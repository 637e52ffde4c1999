import PlanReview.Guardrail.Condition
import PlanReview.Loop.Basic

/-!
# One iteration

An iteration plans, reviews and decides. Its plan and its review are written before the state that
refers to them. It ends the run when the plan passes and nothing is left to approve, it pauses the
run when a human has to answer, and otherwise it leaves feedback for the next iteration. A phase
that fails is noted and the run goes on; any other failure marks the session as failed.
-/

namespace PlanReview

open RunM

/-- Whether a run goes on after an iteration. -/
inductive Next where
  | finished
  | again
  deriving Repr, DecidableEq

/-- A plan with everything that was found out about it. -/
structure Judged where
  plan : Plan
  checks : List HardCheck
  verdict : Viability.Verdict
  review : Review

/-- A question that pauses a run. -/
structure Pause where
  question : String
  reason : String
  category : String

/-- The reason given for a pause when the reviewer gives none. -/
def defaultHumanReason : String := "Human verification required"

/-! ## Planning and reviewing -/

/-- Whether the plan to go on from is to be reviewed as it is : it stands for this iteration and
nothing is asked of it. -/
def Resume.standsFor (r : Resume) (iteration : Int) : Bool :=
  iteration == r.startIteration && r.feedback.isEmpty

/-- What the planner is told in the present state. -/
def SessionState.planningContext (s : SessionState) (prior : Option Plan) : PlanningContext where
  task := s.task
  iteration := s.iteration
  workingDir := s.workingDir
  pendingFeedback := s.pendingFeedback
  currentPlan := prior
  contextSummary := s.contextSummary

/-- A new plan as the one of an iteration : its version is above that of the plan before it. -/
def Plan.succeeding (p : Plan) (prior : Option Plan) (iteration : Int) (now : String) : Plan :=
  let p := { p with metadata := { p.metadata with iteration := iteration } }
  match prior with
  | none => p
  | some q =>
    if p.metadata.version ≤ q.metadata.version then
      Plan.touch now { p with metadata := { p.metadata with version := q.metadata.version } }
    else p

/-- Call the planner. -/
def callPlanner (c : Controller) (ctx : PlanningContext) : RunM Plan := do
  count "planner_calls"
  let r ← get
  let call := c.planner r.planned.length ctx
  set (({ r with planned := r.planned ++ [ctx] }).afterCall "planner"
    SessionState.addPlannerUsage call)
  ofExcept (call.answer (← get).now)

/-- Call the reviewer. -/
def callReviewer (c : Controller) (p : Plan) (ctx : ReviewContext) : RunM Review := do
  count "reviewer_calls"
  let r ← get
  let call := c.reviewer r.reviewed.length p ctx
  set (({ r with reviewed := r.reviewed ++ [(p, ctx)] }).afterCall "reviewer"
    SessionState.addReviewerUsage call)
  ofExcept (call.answer (← get).now)

/-- The plan of this iteration. -/
def draft (c : Controller) (resume : Option Resume) : RunM Plan := do
  let r ← get
  let prior ← ofExcept ((r.state.plan r.now).mapError .invalid)
  match resume.filter fun q => q.standsFor r.state.iteration with
  | some q => return q.plan
  | none =>
    let p ← callPlanner c (r.state.planningContext prior)
    let p := p.succeeding prior r.state.iteration (← get).now
    update fun s => s.setCurrentPlan p
    return p

/-- Plan and review. -/
def judge (c : Controller) (resume : Option Resume) : RunM Judged := do
  let p ← draft c resume
  let s := (← get).state
  onWorkspace (c.artifacts.writePlan p s.iteration)
  let checks := Checklist.run p
  let verdict := Viability.checkPlan c.viability p
  let review ← callReviewer c p {
    iteration := s.iteration
    workingDir := s.workingDir
    checklist := checks
    viability := some verdict
    graph := some (Graph.Metrics.of p.steps)
    threshold := c.scoreThreshold }
  return ⟨p, checks, verdict, review⟩

/-! ## The verdict -/

/-- The summary of a review whose reviewer gave none. -/
def summarize (r : Review) (verdict : Viability.Verdict) : String :=
  "Score " ++ Decimal.fixed 2 r.score ++ " (" ++
    (if r.passed then "passed" else "needs revision") ++ "); " ++
    toString (r.hardChecks.countP fun c => !c.passed) ++ " hard check(s) failed; viability " ++
    Decimal.fixed 2 verdict.score ++ " with " ++ toString verdict.critical ++ " critical"

/-- The review as it counts : with the results of the hard checks, its verdict recomputed, and a
summary. -/
def Judged.finalReview (j : Judged) (threshold : Float) : Review :=
  let r := ({ j.review with hardChecks := j.checks }).judged threshold
  if r.summary.isEmpty then { r with summary := summarize r j.verdict } else r

/-- The line of the history for an iteration that came to a review. -/
def historyLine (s : SessionState) (now : String) (verdict : Viability.Verdict) (r : Review)
    (outcome : IterationOutcome) (tokensBefore : Int) : IterationRecord where
  iteration := s.iteration
  timestamp := now
  viabilityCritical := verdict.critical
  viabilityWarning := verdict.warning
  reviewScore := some r.score
  reviewPassed := r.passed
  toolCalls := s.toolCalls
  tokens := s.totalTokens - tokensBefore
  outcome := outcome

/-- The line of the history for an iteration in which a phase failed. -/
def phaseErrorLine (s : SessionState) (now : String) (tokensBefore : Int) : IterationRecord where
  iteration := s.iteration
  timestamp := now
  toolCalls := s.toolCalls
  tokens := s.totalTokens - tokensBefore
  outcome := .phaseError

namespace SessionState

/-- The state with a line added to its history. -/
def addHistory (s : SessionState) (line : IterationRecord) : SessionState :=
  { s with iterationHistory := s.iterationHistory ++ [line] }

/-- The state with other feedback for the planner. -/
def withFeedback (s : SessionState) (feedback : List String) : SessionState :=
  { s with pendingFeedback := feedback }

/-- The state at the start of an iteration. -/
def nextIteration (s : SessionState) : SessionState :=
  { s with iteration := s.iteration + 1 }

/-- The state once a review of the current plan is there. -/
def absorb (s : SessionState) (r : Review) (conditions : List Guardrail.Condition) : SessionState :=
  (({ s with consecutivePhaseErrors := 0, lastError := none } : SessionState).recordReview
    r).addConditions (conditions.map (·.name))

/-- The state after a phase failed. -/
def afterPhaseError (s : SessionState) (now message : String) (tokensBefore : Int) :
    SessionState :=
  let s := { s with
    consecutivePhaseErrors := s.consecutivePhaseErrors + 1
    lastError := some message }
  (s.addConditions ["phase_error:" ++ message]).addHistory (phaseErrorLine s now tokensBefore)

/-- The state of a session that has come to its end with an approved plan. -/
def completed (s : SessionState) : SessionState :=
  { s.withFeedback [] with status := { kind := .completed } }

/-- The state of a session that failed. -/
def failed (s : SessionState) (message : String) : SessionState :=
  { s with status := { kind := .failed, error := some message } }

end SessionState

/-! ## Deciding -/

/-- The question of a reviewer that wants a human to decide. -/
def clarification (r : Review) : Pause :=
  let reason := SessionState.textOr r.assessment.humanInputReason defaultHumanReason
  ⟨reason, reason, "clarification"⟩

/-- The question about a condition that needs approval. -/
def approvalOf (condition : Guardrail.Condition) : Pause :=
  let details := String.intercalate ", " condition.details
  ⟨"Approval required for " ++ condition.name ++ ": " ++
      (if details.isEmpty then condition.name else details),
    "Plan triggers " ++ condition.name, condition.name⟩

/-- The first condition that stands against an approved plan. -/
def gate (c : Controller) (p : Plan) (s : SessionState) :
    Except Failure (Option Guardrail.Condition) :=
  if c.requireApproval then
    ((Guardrail.outstanding c.thresholds p.toJson s).mapError Failure.ofBadScore).map List.head?
  else .ok none

/-- The request to a human that a pause makes. -/
def Pause.request (p : Pause) (c : Controller) : HumanRequest :=
  HumanRequest.of c.artifacts.slug p.reason (some p.question) c.runsDir c.activeDir

/-- Pause the run : the state is stored with the question, and the plan is written as a draft. -/
def pause (c : Controller) (plan : Plan) (p : Pause) : RunM Next := do
  let now := (← get).now
  update fun s => (s.requestHumanInput now p.question p.category (some p.reason)).updateSummary
  save c
  onWorkspace (c.artifacts.writeFinal plan .draft none)
  throw (.humanInput (p.request c))

/-- Add the line of this iteration to the history. -/
def note (verdict : Viability.Verdict) (r : Review) (outcome : IterationOutcome)
    (tokensBefore : Int) : RunM Unit := do
  let now := (← get).now
  update fun s => s.addHistory (historyLine s now verdict r outcome tokensBefore)

/-- Decide what a reviewed plan leads to. -/
def decide (c : Controller) (tokensBefore : Int) (j : Judged) (r : Review) : RunM Next := do
  if r.assessment.requiresHumanInput then
    update fun s => s.withFeedback r.feedback
    note j.verdict r .humanInputRequested tokensBefore
    pause c j.plan (clarification r)
  else if r.passed then
    match ← ofExcept (gate c j.plan (← get).state) with
    | some condition =>
      note j.verdict r .humanInputRequested tokensBefore
      pause c j.plan (approvalOf condition)
    | none =>
      note j.verdict r .reviewPassed tokensBefore
      update SessionState.completed
      return .finished
  else
    note j.verdict r (if j.verdict.passed then .reviewFailed else .viabilityFailed) tokensBefore
    update fun s => (s.withFeedback (r.feedback ++ j.verdict.feedback)).updateSummary
    save c
    return .again

/-- Take in the review of a plan : it is written, recorded and acted on. -/
def settle (c : Controller) (tokensBefore : Int) (j : Judged) : RunM Next := do
  let r := j.finalReview c.scoreThreshold
  let n := (← get).state.iteration
  onWorkspace (c.artifacts.writeReview r n)
  modify fun run => { run with lastReview := some r }
  update fun s => s.absorb r (Guardrail.conditions c.thresholds j.plan.toJson r.score n)
  decide c tokensBefore j r

/-! ## Failing -/

/-- What is kept of a failure that ends a run. -/
def failureText : Failure → String
  | .persistence _ | .locked _ => "persistence failure"
  | f => f.message

/-- Mark the session as failed; that it cannot be stored is passed over. -/
def markFailed (c : Controller) (f : Failure) : RunM Unit := do
  update fun s => s.failed (failureText f)
  match ← attempt (save c) with
  | .ok () | .error (.persistence _) => pure ()
  | .error g => throw g

/-- Plan, review and decide once. -/
def iteration (c : Controller) (resume : Option Resume) : RunM Next := do
  update SessionState.nextIteration
  let tokensBefore := (← get).state.totalTokens
  count "iterations"
  match ← attempt (judge c resume) with
  | .ok j => settle c tokensBefore j
  | .error (.phase message) =>
    count "phase_errors"
    let now := (← get).now
    update fun s => s.afterPhaseError now message tokensBefore
    save c
    return .again
  | .error f =>
    markFailed c f
    throw f

end PlanReview
