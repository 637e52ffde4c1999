import PlanReview.Loop.Iteration

/-!
# Driving a session

`Controller.run` takes the lock of a session, works out what to go on from, and makes iterations
until one of them ends the run or a limit is reached. An iteration adds one to the number that the
iteration limit is compared with, so the number of iterations that are left bounds the rounds.

A finished session is answered from its stored state and left as it is.
-/

namespace PlanReview

open RunM

/-! ## Before the first iteration -/

/-- Whether a session has come to a result. -/
def SessionState.isFinished (s : SessionState) : Bool :=
  s.status.kind == .completed || s.status.kind == .bestEffort

/-- Whether a request leaves a session as it is : it was stopped for good, or it has come to a
result and nothing new is asked of it. -/
def Request.isIdle (r : Request) (s : SessionState) : Bool :=
  !s.canResume ||
    (s.isFinished && r.humanResponse.isNone && r.resume.isNone && !r.resetTurns)

/-- The session a request is about : the stored one, or a new one. -/
def Request.session (r : Request) (slug now : String) : Option SessionState → SessionState
  | none => SessionState.new now slug r.task slug r.workingDir
  | some s =>
    match r.workingDir with
    | some dir => if dir.isEmpty then s else { s with workingDir := some dir }
    | none => s

/-- The line of feedback that a human's answer becomes. -/
def userFeedback (response : String) : String :=
  "[USER FEEDBACK] " ++ response

/-- The session with a human's answer taken in. -/
def SessionState.answer (s : SessionState) (response : String) (approved : Bool) : SessionState :=
  (s.applyHumanResponse response approved).withFeedback
    (s.pendingFeedback ++ [userFeedback response])

/-- The session set back to a plan given from outside. -/
def SessionState.setTo (s : SessionState) (resume : Resume) : SessionState :=
  (({ s with iteration := max 0 (resume.startIteration - 1) }).setCurrentPlan
    resume.plan).withFeedback resume.feedback

/-- The request to a human that a session waits on. -/
def Controller.pendingRequest (c : Controller) (h : HumanInput) : HumanRequest :=
  HumanRequest.of c.artifacts.slug (SessionState.reasonOr h.reason h.question) (some h.question)
    c.runsDir c.activeDir

/-- What to go on from, and the session brought there. -/
def Request.takeUp (r : Request) (c : Controller) (now : String) (s : SessionState) :
    Except Failure (SessionState × Option Resume) :=
  match r.resume, r.humanResponse, s.pendingHumanInput with
  | some resume, _, _ => .ok (s.setTo resume, some resume)
  | none, none, some h => .error (.humanInput (c.pendingRequest h))
  | none, none, none =>
    ((s.resumeFrom now s.pendingFeedback).mapError .invalid).map fun resume => (s, resume)
  | none, some response, _ =>
    let s := s.answer response r.approved
    ((s.resumeFrom now s.pendingFeedback).mapError .invalid).map fun resume => (s, resume)

/-- The session at the start of its iterations. -/
def Request.start (r : Request) (now : String) (s : SessionState) : SessionState :=
  let s := if r.resetTurns then { s with turnBase := s.iteration } else s
  { s with status := { kind := .running }, startTime := now }

/-- A stored review, read back. -/
def readReview (review : Json.Fields) : Except Failure Review :=
  ((Review.decode (.obj review)).report "ReviewResult").mapError .invalid

/-- The last review of a session, if it has one. -/
def SessionState.lastReview (s : SessionState) : Except Failure (Option Review) :=
  match s.reviews.getLast? with
  | none => .ok none
  | some review => (readReview review).map some

/-- The result that a session stands for. -/
def SessionState.result (s : SessionState) (plan : Option Plan) (review : Option Review) :
    LoopResult where
  finalPlan := plan
  totalIterations := s.iteration
  finalReview := review
  success := s.status.kind == .completed
  bestScore := s.bestScore
  totalTokens := s.totalTokens
  status := s.status

/-- The result of a session that is left as it is. -/
def SessionState.storedResult (s : SessionState) (now : String) : Except Failure LoopResult := do
  let plan ← match ← (s.plan now).mapError Failure.invalid with
    | some p => pure (some p)
    | none => (s.best now).mapError Failure.invalid
  return s.result plan (← s.lastReview)

/-! ## Rounds -/

/-- The state of a session that a limit has stopped. -/
def SessionState.stopped (s : SessionState) (stop : HardStop) (description : String) :
    SessionState :=
  let kind := if s.bestScore > 0.0 then StatusKind.bestEffort else .hardStopped
  { s with status := { kind := kind, reason := some description, hardStop := some stop } }

/-- Stop if a limit is reached; the answer says whether one is. -/
def stopAtLimit (c : Controller) : RunM Bool := do
  let r ← get
  match Guardrail.check c.limits r.workspace.now r.state with
  | none => return false
  | some stop =>
    let description ← ofExcept (stop.describe.mapError Failure.ofIndescribable)
    update fun s => s.stopped stop description
    return true

/-- The iterations that are left before the limit on them is reached. -/
def Controller.iterationsLeft (c : Controller) (s : SessionState) : Nat :=
  (c.limits.maxIterations + s.turnBase - s.iteration).toNat

/-- Make iterations until one ends the run or a limit is reached; at most `left`. -/
def rounds (c : Controller) (resume : Option Resume) : Nat → RunM Unit
  | 0 => do
    let _ ← stopAtLimit c
  | left + 1 => do
    if ← stopAtLimit c then return
    match ← iteration c resume with
    | .finished => return
    | .again => rounds c resume left

/-! ## After the last iteration -/

/-- Under which title the plan of an ended run is written. -/
def finalStatus : StatusKind → FinalStatus
  | .completed => .approved
  | .bestEffort => .bestEffort
  | _ => .draft

/-- The plan that an ended run leaves behind. -/
def finalPlan (s : SessionState) (now : String) : Except Failure (Option Plan) := do
  let current ← (s.plan now).mapError Failure.invalid
  if s.status.kind = .bestEffort then
    match ← (s.best now).mapError Failure.invalid with
    | some p => return some p
    | none => return current
  else return current

/-- Store the state of an ended run, and answer with it. -/
def conclude (c : Controller) (plan : Option Plan) : RunM LoopResult := do
  update SessionState.updateSummary
  save c
  let r ← get
  match r.lastReview with
  | some review => return r.state.result plan (some review)
  | none => return r.state.result plan (← ofExcept r.state.lastReview)

/-- End a run : its plan is written, and then the state is stored. -/
def finish (c : Controller) : RunM LoopResult := do
  let r ← get
  let plan ← ofExcept (finalPlan r.state r.now)
  if let some p := plan then
    onWorkspace
      (c.artifacts.writeFinal p (finalStatus r.state.status.kind) (some r.state.bestScore))
  conclude c plan

/-- The outcome of a run as its line of metrics has it. -/
def SessionState.outcome (s : SessionState) : Json.Fields := [
  ("session_id", .str s.sessionId),
  ("iterations", .int s.iteration),
  ("status", .str s.status.kind.word),
  ("best_score", .float s.bestScore),
  ("total_tokens", .int s.totalTokens)]

/-- Add the line of this run to the metrics. -/
def recordMetrics (c : Controller) : RunM Unit := do
  let r ← get
  onWorkspace (r.tally.record c.dir r.state.outcome)

/-- Make iterations and end the run; the metrics are written even if that fails. -/
def drive (c : Controller) (resume : Option Resume) : RunM LoopResult := do
  let result ← attempt do
    rounds c resume (c.iterationsLeft (← get).state)
    finish c
  recordMetrics c
  ofExcept result

/-! ## The whole -/

/-- How a session is entered. -/
inductive Entry where
  | idle (result : LoopResult)
  | running (state : SessionState) (resume : Option Resume)

/-- Work out what to go on from, and store the session as running. -/
def enter (c : Controller) (request : Request) : Act Entry := do
  let w ← get
  let now := w.now.text
  let stored ← ofExcept (SessionState.load w.files now c.dir)
  let s := request.session c.artifacts.slug now stored
  if request.isIdle s then
    return .idle (← ofExcept (s.storedResult now))
  else
    let (s, resume) ← ofExcept (request.takeUp c now s)
    let s := request.start now s
    s.save c.dir
    return .running s resume

/-- What came of a request : the answer, the workspace after it, and the calls that were made. -/
structure Report where
  result : Except Failure LoopResult
  workspace : Workspace
  planned : List PlanningContext := []
  reviewed : List (Plan × ReviewContext) := []

/-- A run from an entry on. -/
def Entry.run (c : Controller) (w : Workspace) : Entry → Report
  | .idle result => { result := .ok result, workspace := w }
  | .running s resume =>
    let (result, r) := drive c resume { workspace := w, state := s }
    { result := result, workspace := r.workspace, planned := r.planned, reviewed := r.reviewed }

/-- The report with the lock of the session given back. -/
def Report.released (c : Controller) (report : Report) : Report :=
  { report with workspace := (Lock.release c.registry c.dir report.workspace).2 }

/-- Run a session as requested, alone. -/
def Controller.run (c : Controller) (request : Request) (w : Workspace) : Report :=
  match Lock.acquire c.registry c.dir w with
  | (.error f, w) => { result := .error f, workspace := w }
  | (.ok (), w) =>
    match enter c request w with
    | (.error f, w) => Report.released c { result := .error f, workspace := w }
    | (.ok entry, w) => Report.released c (entry.run c w)

/-- The stop of a run that ended with nothing worth keeping. -/
def LoopResult.fatalStop? (r : LoopResult) : Option HardStop :=
  if r.status.kind = .hardStopped then r.status.hardStop else none

end PlanReview
