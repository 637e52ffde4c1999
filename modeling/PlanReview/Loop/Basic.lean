import PlanReview.Artifact.Store
import PlanReview.Guardrail.Limits
import PlanReview.Phase.Basic
import PlanReview.Session.Lock
import PlanReview.Session.Store
import PlanReview.Session.Timing

/-!
# Runs

A `Controller` drives one session : it knows who plans and who reviews, where artifacts go and
which limits hold. A `Run` is what changes while it does so : the workspace, the state of the
session, the tally, and the calls made so far. The state in a run is ahead of the stored one until
it is saved.
-/

namespace PlanReview

/-- What drives a session. -/
structure Controller where
  planner : Planner
  reviewer : Reviewer
  artifacts : Artifacts
  limits : Guardrail.Limits := {}
  thresholds : Guardrail.Thresholds := {}
  viability : Viability.Limits := {}
  /-- The score from which on a plan passes. -/
  scoreThreshold : Float := 0.8
  /-- Whether a plan that meets a condition needs a human's approval. -/
  requireApproval : Bool := false
  /-- The directories of sessions and documents, as a human is told about them. -/
  runsDir : String := "./.plan-forge"
  activeDir : String := "./dev/active"
  registry : Registry := ""

/-- How a session is asked to go on. -/
structure Request where
  task : String
  workingDir : Option String := none
  humanResponse : Option String := none
  approved : Bool := true
  resume : Option Resume := none
  /-- Whether the iterations made so far no longer count against the limit. -/
  resetTurns : Bool := false

/-- What a run came to. -/
structure LoopResult where
  finalPlan : Option Plan := none
  totalIterations : Int := 0
  finalReview : Option Review := none
  success : Bool := false
  bestScore : Float := 0.0
  totalTokens : Int := 0
  status : Status := {}

/-- Where a run stands. -/
structure Run where
  workspace : Workspace
  state : SessionState
  tally : Tally := {}
  /-- The contexts of the calls of the planner, the first call first. -/
  planned : List PlanningContext := []
  /-- The calls of the reviewer, the first one first. -/
  reviewed : List (Plan × ReviewContext) := []
  /-- The last review of this run. -/
  lastReview : Option Review := none

/-- A part of a run. -/
abbrev RunM (α : Type) := ExceptT Failure (StateM Run) α

/-- The directory of the session that is driven. -/
def Controller.dir (c : Controller) : Path :=
  c.artifacts.sessionDir

namespace Run

variable {α : Type}

/-- The present, in words. -/
def now (r : Run) : String :=
  r.workspace.now.text

/-- The run with its state changed. -/
def update (r : Run) (f : SessionState → SessionState) : Run :=
  { r with state := f r.state }

/-- The run with an event counted. -/
def count (r : Run) (event : String) : Run :=
  { r with tally := r.tally.count event }

/-- The run after a call : the clock has moved, the usage is accounted for by `account` and the
duration is noted. -/
def afterCall (r : Run) (name : String) (account : SessionState → TokenUsage → SessionState)
    (call : Call α) : Run :=
  let w := r.workspace.later call.delay
  { r with
    workspace := w
    state := match call.usage with
      | some usage => account r.state usage
      | none => r.state
    tally := r.tally.time name (w.seconds - r.workspace.seconds) }

end Run

namespace RunM

variable {α : Type}

/-- An operation on the workspace of a run. -/
def onWorkspace (a : Act α) : RunM α :=
  fun r =>
    let (result, w) := a r.workspace
    (result, { r with workspace := w })

/-- Whether a part of a run fails, as an answer. -/
def attempt (a : RunM α) : RunM (Except Failure α) :=
  ExceptT.mk (do return .ok (← a.run))

/-- Change the state of the session. -/
def update (f : SessionState → SessionState) : RunM Unit :=
  modify fun r => r.update f

/-- Count an event. -/
def count (event : String) : RunM Unit :=
  modify fun r => r.count event

/-- Store the state of the session. -/
def save (c : Controller) : RunM Unit := do
  onWorkspace ((← get).state.save c.dir)

end RunM

end PlanReview
