import PlanReview.Session.HardStop
import PlanReview.Session.Usage
import PlanReview.Review.Basic
import PlanReview.Time.Iso
import PlanReview.Text.Search

/-!
# The state of a session

Everything that a session of planning and reviewing remembers between runs : counters, the plan
under review and the best one so far as documents, all reviews, the feedback for the next
planning call, requests to a human and their answers, and the history of iterations. The
operations here are the only ways in which a run changes it.
-/

namespace PlanReview

open Schema
open Json (ofOption strings)

/-- The version of the stored form. -/
def schemaVersion : Int := 2

/-- The longest summary of a session that is kept. -/
def summaryLimit : Nat := 2000

/-- What a session is doing. -/
inductive StatusKind where
  | ready | running | completed | bestEffort | paused | failed | hardStopped
  deriving Repr, DecidableEq

/-- How an iteration ended. -/
inductive IterationOutcome where
  | viabilityFailed | reviewFailed | reviewPassed | humanInputRequested | phaseError
  deriving Repr, DecidableEq

/-- The words for the kinds of status. -/
def StatusKind.words : List (String × StatusKind) :=
  [("ready", .ready), ("running", .running), ("completed", .completed),
    ("completed_best_effort", .bestEffort), ("paused", .paused), ("failed", .failed),
    ("hard_stopped", .hardStopped)]

/-- The words for the outcomes of an iteration. -/
def IterationOutcome.words : List (String × IterationOutcome) :=
  [("viability_failed", .viabilityFailed), ("review_failed", .reviewFailed),
    ("review_passed", .reviewPassed), ("human_input_requested", .humanInputRequested),
    ("phase_error", .phaseError)]

/-- The word for a kind of status. -/
def StatusKind.word : StatusKind → String
  | ready => "ready"
  | running => "running"
  | completed => "completed"
  | bestEffort => "completed_best_effort"
  | paused => "paused"
  | failed => "failed"
  | hardStopped => "hard_stopped"

/-- The word for an outcome. -/
def IterationOutcome.word : IterationOutcome → String
  | viabilityFailed => "viability_failed"
  | reviewFailed => "review_failed"
  | reviewPassed => "review_passed"
  | humanInputRequested => "human_input_requested"
  | phaseError => "phase_error"

theorem StatusKind.lookup_word (k : StatusKind) : words.lookup k.word = some k := by
  cases k <;> rfl

theorem IterationOutcome.lookup_word (o : IterationOutcome) : words.lookup o.word = some o := by
  cases o <;> rfl

/-- What a session is doing, and why. -/
structure Status where
  kind : StatusKind := .ready
  reason : Option String := none
  error : Option String := none
  hardStop : Option HardStop := none

/-- Whether a session in this status has come to its end. -/
def Status.isTerminal (s : Status) : Bool :=
  s.kind matches .completed | .bestEffort | .failed | .hardStopped

/-- A question to a human, with the answer once there is one. -/
structure HumanInput where
  question : String
  category : String := "clarification"
  reason : Option String := none
  response : Option String := none
  approved : Bool := false
  iteration : Int := 0
  timestamp : String

/-- One line of the history. -/
structure IterationRecord where
  iteration : Int
  timestamp : String
  viabilityCritical : Int := 0
  viabilityWarning : Int := 0
  reviewScore : Option Float := none
  reviewPassed : Bool := false
  toolCalls : Int := 0
  tokens : Int := 0
  outcome : IterationOutcome := .reviewFailed

/-- A plan to go on from, with the feedback it has got. -/
structure Resume where
  plan : Plan
  feedback : List String := []
  startIteration : Int := 1

/-- The state of a session. Plans and reviews are kept as documents. -/
structure SessionState where
  schemaVersion : Int := PlanReview.schemaVersion
  sessionId : String
  task : String
  workingDir : Option String := none
  taskSlug : String
  iteration : Int := 0
  turnBase : Int := 0
  totalTokens : Int := 0
  tokenBreakdown : TokenBreakdown := {}
  toolCalls : Int := 0
  startTime : String
  status : Status := {}
  currentPlan : Option Json.Fields := none
  bestPlan : Option Json.Fields := none
  bestScore : Float := 0.0
  reviews : List Json.Fields := []
  pendingFeedback : List String := []
  pendingHumanInput : Option HumanInput := none
  humanInputs : List HumanInput := []
  triggeredConditions : List String := []
  iterationHistory : List IterationRecord := []
  consecutivePhaseErrors : Int := 0
  lastError : Option String := none
  lastReviewPassed : Bool := false
  contextSummary : String := ""

/-! ## Documents -/

/-- Read a status. -/
def Status.decode : Decoder Status :=
  record "OrchestrationStatus" fun fs =>
    Status.mk <$> optional fs "kind" .ready (choice StatusKind.words)
      <*> optional fs "reason" none (nullable string)
      <*> optional fs "error" none (nullable string)
      <*> optional fs "hard_stop" none (nullable HardStop.decode)

/-- The document of a status. -/
def Status.toJson (s : Status) : Json :=
  .obj [
    ("kind", .str s.kind.word),
    ("reason", ofOption .str s.reason),
    ("error", ofOption .str s.error),
    ("hard_stop", ofOption HardStop.toJson s.hardStop)]

/-- Read a question to a human; without a time it gets the time `now`. -/
def HumanInput.decode (now : String) : Decoder HumanInput :=
  record "HumanInputRecord" fun fs =>
    HumanInput.mk <$> required fs "question" string
      <*> optional fs "category" "clarification" string
      <*> optional fs "reason" none (nullable string)
      <*> optional fs "response" none (nullable string)
      <*> optional fs "approved" false bool
      <*> optional fs "iteration" 0 int
      <*> optional fs "timestamp" now string

/-- The document of a question to a human. -/
def HumanInput.toJson (h : HumanInput) : Json :=
  .obj [
    ("question", .str h.question),
    ("category", .str h.category),
    ("reason", ofOption .str h.reason),
    ("response", ofOption .str h.response),
    ("approved", .bool h.approved),
    ("iteration", .int h.iteration),
    ("timestamp", .str h.timestamp)]

/-- Read a line of the history. -/
def IterationRecord.decode (now : String) : Decoder IterationRecord :=
  record "IterationRecord" fun fs =>
    IterationRecord.mk <$> required fs "iteration" int
      <*> optional fs "timestamp" now string
      <*> optional fs "viability_critical" 0 int
      <*> optional fs "viability_warning" 0 int
      <*> optional fs "review_score" none (nullable float)
      <*> optional fs "review_passed" false bool
      <*> optional fs "tool_calls" 0 int
      <*> optional fs "tokens" 0 int
      <*> optional fs "outcome" .reviewFailed (choice IterationOutcome.words)

/-- The document of a line of the history. -/
def IterationRecord.toJson (r : IterationRecord) : Json :=
  .obj [
    ("iteration", .int r.iteration),
    ("timestamp", .str r.timestamp),
    ("viability_critical", .int r.viabilityCritical),
    ("viability_warning", .int r.viabilityWarning),
    ("review_score", ofOption .float r.reviewScore),
    ("review_passed", .bool r.reviewPassed),
    ("tool_calls", .int r.toolCalls),
    ("tokens", .int r.tokens),
    ("outcome", .str r.outcome.word)]

/-- Read a plan to go on from. -/
def Resume.decode (now : String) : Decoder Resume :=
  record "ResumeState" fun fs =>
    Resume.mk <$> required fs "plan" (Plan.decode now)
      <*> optional fs "feedback" [] (list string)
      <*> optional fs "start_iteration" 1 int

/-- The document of a plan to go on from. -/
def Resume.toJson (r : Resume) : Json :=
  .obj [
    ("plan", r.plan.toJson),
    ("feedback", strings r.feedback),
    ("start_iteration", .int r.startIteration)]

namespace SessionState

/-- Read a state. -/
def decode (now : String) : Decoder SessionState :=
  record "OrchestrationState" fun fs =>
    SessionState.mk <$> optional fs "schema_version" PlanReview.schemaVersion int
      <*> required fs "session_id" string
      <*> required fs "task" string
      <*> optional fs "working_dir" none (nullable string)
      <*> required fs "task_slug" string
      <*> optional fs "iteration" 0 int
      <*> optional fs "turn_base" 0 int
      <*> optional fs "total_tokens" 0 int
      <*> optional fs "token_breakdown" {} TokenBreakdown.decode
      <*> optional fs "tool_calls" 0 int
      <*> optional fs "start_time_iso" now string
      <*> optional fs "status" {} Status.decode
      <*> optional fs "current_plan" none (nullable dict)
      <*> optional fs "best_plan" none (nullable dict)
      <*> optional fs "best_score" 0.0 float
      <*> optional fs "reviews" [] (list dict)
      <*> optional fs "pending_feedback" [] (list string)
      <*> optional fs "pending_human_input" none (nullable (HumanInput.decode now))
      <*> optional fs "human_inputs" [] (list (HumanInput.decode now))
      <*> optional fs "triggered_conditions" [] (list string)
      <*> optional fs "iteration_history" [] (list (IterationRecord.decode now))
      <*> optional fs "consecutive_phase_errors" 0 int
      <*> optional fs "last_error" none (nullable string)
      <*> optional fs "last_review_passed" false bool
      <*> optional fs "context_summary" "" string

/-- Read a state from a whole document. -/
def ofJson (now : String) (document : Json) : Except Invalid SessionState :=
  (decode now document).report "OrchestrationState"

/-- The fields of a state's document. -/
def fields (s : SessionState) : Json.Fields := [
  ("schema_version", .int s.schemaVersion),
  ("session_id", .str s.sessionId),
  ("task", .str s.task),
  ("working_dir", ofOption .str s.workingDir),
  ("task_slug", .str s.taskSlug),
  ("iteration", .int s.iteration),
  ("turn_base", .int s.turnBase),
  ("total_tokens", .int s.totalTokens),
  ("token_breakdown", s.tokenBreakdown.toJson),
  ("tool_calls", .int s.toolCalls),
  ("start_time_iso", .str s.startTime),
  ("status", s.status.toJson),
  ("current_plan", ofOption .obj s.currentPlan),
  ("best_plan", ofOption .obj s.bestPlan),
  ("best_score", .float s.bestScore),
  ("reviews", .list .obj s.reviews),
  ("pending_feedback", strings s.pendingFeedback),
  ("pending_human_input", ofOption HumanInput.toJson s.pendingHumanInput),
  ("human_inputs", .list HumanInput.toJson s.humanInputs),
  ("triggered_conditions", strings s.triggeredConditions),
  ("iteration_history", .list IterationRecord.toJson s.iterationHistory),
  ("consecutive_phase_errors", .int s.consecutivePhaseErrors),
  ("last_error", ofOption .str s.lastError),
  ("last_review_passed", .bool s.lastReviewPassed),
  ("context_summary", .str s.contextSummary)]

/-- The document of a state. -/
def toJson (s : SessionState) : Json :=
  .obj s.fields

/-- The state of a session that begins at the time `now`. -/
def new (now sessionId task taskSlug : String) (workingDir : Option String) : SessionState where
  sessionId := sessionId
  task := task
  taskSlug := taskSlug
  workingDir := workingDir
  startTime := now

/-! ## Counters -/

/-- Count tokens of the planner and of the reviewer. -/
def addTokens (s : SessionState) (planner reviewer : Option (Option Int × Option Int)) :
    SessionState :=
  let b := match planner with
    | some (i, o) => s.tokenBreakdown.addPlanner (cleanCount i) (cleanCount o)
    | none => s.tokenBreakdown
  let b := match reviewer with
    | some (i, o) => b.addReviewer (cleanCount i) (cleanCount o)
    | none => b
  { s with tokenBreakdown := b, totalTokens := b.total }

/-- Count tool calls. -/
def addToolCalls (s : SessionState) (count : Option Int) : SessionState :=
  { s with toolCalls := s.toolCalls + cleanCount count }

/-- Mark the account as an estimate if the report is one. -/
def noteEstimate (s : SessionState) (estimated : Bool) : SessionState :=
  { s with tokenBreakdown :=
      { s.tokenBreakdown with estimated := s.tokenBreakdown.estimated || estimated } }

/-- Count what a call of the planner used. -/
def addPlannerUsage (s : SessionState) (u : TokenUsage) : SessionState :=
  ((s.addTokens (some (some u.inputTokens, some u.outputTokens)) none).addToolCalls
    (some u.toolCalls)).noteEstimate u.estimated

/-- Count what a call of the reviewer used. -/
def addReviewerUsage (s : SessionState) (u : TokenUsage) : SessionState :=
  ((s.addTokens none (some (some u.inputTokens, some u.outputTokens))).addToolCalls
    (some u.toolCalls)).noteEstimate u.estimated

/-- The seconds since the run began; zero if its time cannot be read. -/
def elapsed (s : SessionState) (now : Instant) : Float :=
  match Iso.instant? s.startTime with
  | some start => now.since start
  | none => 0.0

/-- The iterations that count against the limit. -/
def turns (s : SessionState) : Int :=
  max 0 (s.iteration - s.turnBase)

/-! ## Plans and reviews -/

/-- Put a plan under review. -/
def setCurrentPlan (s : SessionState) (p : Plan) : SessionState :=
  { s with currentPlan := some p.fields }

/-- Whether a review is better than all before it. -/
def isImprovedBy (s : SessionState) (r : Review) : Bool :=
  r.score > s.bestScore

/-- Record a review of the current plan; the plan becomes the best one if the review is better
than all before it. -/
def recordReview (s : SessionState) (r : Review) : SessionState :=
  let s' := { s with reviews := s.reviews ++ [r.fields], lastReviewPassed := r.passed }
  if s.isImprovedBy r then { s' with bestScore := r.score, bestPlan := s.currentPlan } else s'

/-- A stored plan, read back. -/
def readPlan (now : String) : Option Json.Fields → Except Invalid (Option Plan)
  | none => .ok none
  | some fs => (Plan.ofJson now (.obj fs)).map some

/-- The plan under review. -/
def plan (now : String) (s : SessionState) : Except Invalid (Option Plan) :=
  readPlan now s.currentPlan

/-- The best plan. -/
def best (now : String) (s : SessionState) : Except Invalid (Option Plan) :=
  readPlan now s.bestPlan

/-- Add names to a list that has each name once. -/
def insertNew (names : List String) : List String → List String
  | [] => names
  | n :: ns => insertNew (if names.contains n then names else names ++ [n]) ns

/-- Note conditions that a plan has triggered. -/
def addConditions (s : SessionState) (names : List String) : SessionState :=
  { s with triggeredConditions := insertNew s.triggeredConditions names }

/-! ## Human input -/

/-- The reason, or the question in its absence. -/
def reasonOr (reason : Option String) (question : String) : String :=
  match reason with
  | some r => if r.isEmpty then question else r
  | none => question

/-- Ask a human and pause. -/
def requestHumanInput (s : SessionState) (now question category : String)
    (reason : Option String) : SessionState :=
  { s with
    pendingHumanInput := some {
      question := question
      category := category
      reason := reason
      iteration := s.iteration
      timestamp := now }
    status := { kind := .paused, reason := some (reasonOr reason question) } }

/-- The pending question with its answer. -/
def answered (h : HumanInput) (response : String) (approved : Bool) : HumanInput :=
  { h with response := some response, approved := approved }

/-- Answer the pending question, if there is one, and go on. -/
def applyHumanResponse (s : SessionState) (response : String) (approved : Bool) : SessionState :=
  match s.pendingHumanInput with
  | none => s
  | some h =>
    { s with
      humanInputs := s.humanInputs ++ [answered h response approved]
      pendingHumanInput := none
      status := { kind := .running } }

/-- The categories of the questions that were answered with approval. -/
def approvedCategories (s : SessionState) : List String :=
  ((s.humanInputs.filter (·.approved)).map (·.category)).eraseDups

/-! ## Going on -/

/-- Whether the session can be run again. -/
def canResume (s : SessionState) : Bool :=
  s.status.kind != .hardStopped

/-- What to go on from : the plan under review and the given feedback. -/
def resumeFrom (now : String) (s : SessionState) (feedback : List String) :
    Except Invalid (Option Resume) :=
  (s.plan now).map fun p => p.map fun p => ⟨p, feedback, s.iteration + 1⟩

/-- The text, or a word for its absence. -/
def textOr (text : Option String) (absent : String) : String :=
  match text with
  | some t => if t.isEmpty then absent else t
  | none => absent

/-- The line about the last review's summary, if it has one. -/
def lastReviewLine (s : SessionState) : List String :=
  match s.reviews.getLast?.bind (·.lookup "summary") with
  | some (.str text) =>
    if text.isEmpty then [] else ["Last review: " ++ Text.takeChars 200 text]
  | _ => []

/-- The lines of the summary of a session. -/
def summaryLines (s : SessionState) : List String :=
  ["Task: " ++ Text.takeChars 200 s.task,
    "Iteration: " ++ toString s.iteration,
    "Total tokens: " ++ toString s.totalTokens] ++
  s.lastReviewLine ++
  (s.humanInputs.filter (·.approved)).map fun h =>
    "Human approved " ++ textOr h.reason "(unknown reason)" ++ ": " ++
      textOr h.response "(no response)"

/-- The summary of a session, cut to the limit. -/
def summary (s : SessionState) : String :=
  let text := String.intercalate "\n" s.summaryLines
  if summaryLimit < text.length then Text.takeChars (summaryLimit - 3) text ++ "..." else text

/-- Bring the kept summary up to date. -/
def updateSummary (s : SessionState) : SessionState :=
  { s with contextSummary := s.summary }

end SessionState

end PlanReview
