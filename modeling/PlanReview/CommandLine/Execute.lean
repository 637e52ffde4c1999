import PlanReview.CommandLine.Input

/-!
# Executing commands

A command works on the workspace and comes to an `Outcome` : what it prints and the code it ends
with. A failure of the session's own becomes a line of the error output; anything else that goes
wrong is no outcome at all and is passed on.
-/

namespace PlanReview.CommandLine

/-- What a program leaves behind for the shell. -/
structure Outcome where
  code : Nat := 0
  out : String := ""
  err : String := ""

/-- What the program finds around itself. -/
structure Surroundings where
  programDir : Path
  transport : Chat.Transport
  vars : List (String × String)

/-- Some lines. -/
def lines (texts : List String) : String :=
  String.join (texts.map (· ++ "\n"))

/-! ## Outcomes -/

namespace Outcome

/-- The code of a run whose plan was approved. -/
def approved : Nat := 0

/-- The code of a failure. -/
def failed : Nat := 1

/-- The code of a run that waits for a human. -/
def needsInput : Nat := 2

/-- The code of a run that was stopped. -/
def stopped : Nat := 3

/-- The outcome of a failure after something was printed. -/
def ofFailure (out : String) (f : Failure) : Except Failure Outcome :=
  match f with
  | .humanInput r => .ok ⟨needsInput, out, lines [r.message]⟩
  | .stopped text => .ok ⟨stopped, out, lines ["Stopped: " ++ text]⟩
  | f => if f.isOwn then .ok ⟨failed, out, lines ["Error: " ++ f.message]⟩ else .error f

end Outcome

/-- The lines on the last review of a run. -/
def reviewLines (r : LoopResult) : List String :=
  match r.finalReview with
  | some review => ["Final score: " ++ Decimal.fixed 2 review.score,
      "Review summary: " ++ review.summary]
  | none => []

/-- The line on why a run ended. -/
def reasonLine (r : LoopResult) : List String :=
  match Environment.orGiven r.status.reason none with
  | some reason => ["Reason: " ++ reason]
  | none => []

/-- A rule across the page. -/
def bar : String := String.ofList (List.replicate 40 '=')

/-- What a run came to, in words. -/
def resultText (r : LoopResult) : String :=
  lines ([bar, "Plan-Review Complete", bar,
    "Total iterations: " ++ toString r.totalIterations,
    "Final status: " ++ r.status.kind.word] ++ reviewLines r ++
    ["Best score: " ++ Decimal.fixed 2 r.bestScore,
      "Total tokens: " ++ toString r.totalTokens] ++
    (r.finalPlan.toList.map fun p => "Plan title: " ++ p.title) ++ reasonLine r)

/-- The outcome of a run that came to a result. -/
def outcomeOf (r : LoopResult) : Except Failure Outcome :=
  let out := resultText r
  match r.fatalStop? with
  | none => .ok { code := if r.success then Outcome.approved else Outcome.stopped, out := out }
  | some stop =>
    match stop.describe with
    | .error e => .error (Failure.ofIndescribable e)
    | .ok text => Outcome.ofFailure out (.stopped text)

/-! ## Commands -/

/-- Drive a controller on the workspace. -/
def drive (c : Controller) (request : Request) : Act LoopResult := do
  let report := c.run request (← get)
  set report.workspace
  ofExcept report.result

/-- Start a session or take one up. -/
def run (around : Surroundings) (e : Environment) (s : Settings) (a : RunArguments) :
    Act Outcome := do
  let w ← get
  let input ← ofExcept (Input.resolve w.files w.now.text s a)
  let setup ← ofExcept
    (SessionSetup.of w.files around.programDir s e input.slug a.offline)
  let result ← drive (setup.controller around.transport s) {
    task := input.task
    workingDir := a.workingDir
    humanResponse := input.response
    resume := input.resume
    resetTurns := a.resetTurns }
  ofExcept (outcomeOf result)

/-- What sessions are measured against. -/
def limitsOf (s : Settings) : OverviewLimits :=
  ⟨s.guardrails.scoreThreshold, s.guardrails.maxIterations, s.guardrails.maxTotalTokens⟩

/-- Show the overview of a session. -/
def status (s : Settings) (path : Path) : Act Outcome := do
  let o ← Act.read fun w => Overview.ofSession w.files w.now.text path (limitsOf s)
  return { out := lines [Json.write Json.stored o.toJson] }

/-- The line of a session in a list. -/
def sessionLine (name : String) (o : Overview) : String :=
  let score := match o.latestScore with
    | some x => Decimal.fixed 2 x
    | none => "-"
  name ++ "\t" ++ o.status.kind.word ++ "\titeration=" ++ toString o.iteration ++
    "\tscore=" ++ score

/-- List the sessions. -/
def sessions (s : Settings) : Act Outcome := do
  let dir := Path.ofString s.output.runsDir
  let texts ← Act.read fun w =>
    (Overview.sessionNames w.files dir).mapM fun name =>
      (Overview.ofSession w.files w.now.text (dir.child name) (limitsOf s)).map (sessionLine name)
  return { out := lines texts }

/-- The plan of a session that can be approved : the one in its state, or the latest one. -/
def approvable (files : FileTree) (now : String) (dir : Path) (state : Option SessionState) :
    Except Failure Plan := do
  let stored ← match state with
    | some s => (s.plan now).mapError Failure.invalid
    | none => pure none
  match stored with
  | some p => return p
  | none =>
    let (file, _) ← Input.latestPlan files dir
    Input.readPlan files now "approve" file

/-- The state of a session that a user has approved. -/
def approvedState (s : SessionState) : SessionState :=
  { s with
    pendingHumanInput := none
    pendingFeedback := []
    status := { kind := .completed, reason := some "approved by user" } }

/-- Write a session's plan as approved and close the session. -/
def approveIn (a : Artifacts) : Act Plan := do
  let w ← get
  let now := w.now.text
  let state ← ofExcept (SessionState.load w.files now a.sessionDir)
  let plan ← ofExcept (approvable w.files now a.sessionDir state)
  a.writeFinal plan .approved none
  if let some s := state then
    (approvedState s).save a.sessionDir
  return plan

/-- Approve the latest plan of a session. -/
def approve (s : Settings) (path : Path) : Act Outcome := do
  let files := (← get).files
  if !files.isDirectory path then throw (.config (.noSessionDirectory path.text))
  let a : Artifacts := {
    sessionDir := path
    activeDir := Path.ofString s.output.activeDir
    slug := (Path.ofParts (path.resolve files.cwd)).name }
  let plan ← Lock.hold "" path (approveIn a)
  let line := "Plan '" ++ plan.title ++ "' approved and written to " ++ a.taskDir.text ++ "/"
  return { out := lines [line] }

/-- How the program is used. -/
def helpText : String :=
  lines (("usage: " ++ programName ++ " COMMAND [OPTION]...") ::
    flagsOf.map fun (name, flags) =>
      "  " ++ name ++ " " ++ String.intercalate " " (flags.map fun f => "[" ++ f.name ++ "]"))

/-- Carry out a command. -/
def carryOut (around : Surroundings) (e : Environment) (s : Settings) : Command → Act Outcome
  | .run a => run around e s a
  | .status path => status s path
  | .sessions => sessions s
  | .approve path => approve s path

/-- The settings that hold for an invocation. -/
def settingsFor (files : FileTree) (e : Environment) (i : Invocation) : Except Failure Settings :=
  (e.resolve files i.config).map i.overrides.apply

/-- Carry out an invocation. -/
def Invocation.execute (i : Invocation) (around : Surroundings) : Act Outcome := do
  let e ← ofExcept ((Environment.ofVariables around.vars).mapError .invalid)
  let result ← Act.attempt do
    let s ← Act.read fun w => settingsFor w.files e i
    carryOut around e s i.command
  match result with
  | .ok outcome => return outcome
  | .error f => ofExcept (Outcome.ofFailure "" f)

/-- Read a command line and carry it out. -/
def execute (around : Surroundings) (words : List String) : Act Outcome := do
  match Invocation.parse words with
  | .error u => throw (.crash (.usage u.message))
  | .ok none => return { out := helpText }
  | .ok (some i) => i.execute around

end PlanReview.CommandLine
