import PlanReview.Plan.Encode
import PlanReview.Plan.Decode
import PlanReview.Decimal.Notation

/-!
# Reviews

A review joins the results of the fast checks on a plan's document with the assessment of a
reviewer. Whether a plan passes is computed from both (`Review.judged`) : no error-level check
may fail, and the score has to reach the threshold.
-/

namespace PlanReview

open Schema
open Json (ofOption strings)

/-- The result of one fast check on a plan's document. -/
structure HardCheck where
  name : String
  passed : Bool
  message : String
  severity : Severity
  deriving Repr, DecidableEq

/-- Something that the plan lacks. -/
structure Gap where
  description : String
  location : Option String := none
  severity : Severity := .warning
  suggestedFix : Option String := none

/-- Something that the plan leaves open. -/
structure UnclearArea where
  description : String
  questions : List String := []

/-- Something that the plan could do. -/
structure Suggestion where
  description : String
  rationale : String := ""
  priority : Priority := .recommended

/-- What a reviewer makes of a plan. -/
structure Assessment where
  overall : String := ""
  gaps : List Gap := []
  unclearAreas : List UnclearArea := []
  suggestions : List Suggestion := []
  score : Float := 0.0
  requiresHumanInput : Bool := false
  humanInputReason : Option String := none

/-- A review of a plan. -/
structure Review where
  passed : Bool := false
  hardChecks : List HardCheck := []
  assessment : Assessment := {}
  summary : String := ""

/-! ## Documents -/

/-- Read the result of a check. -/
def HardCheck.decode : Decoder HardCheck :=
  record "HardCheckResult" fun fs =>
    HardCheck.mk <$> required fs "check_name" string
      <*> required fs "passed" bool
      <*> required fs "message" string
      <*> required fs "severity" (choice Severity.words)

/-- Read a gap. -/
def Gap.decode : Decoder Gap :=
  record "Gap" fun fs =>
    Gap.mk <$> required fs "description" string
      <*> optional fs "location" none (nullable string)
      <*> optional fs "severity" .warning (choice Severity.words)
      <*> optional fs "suggested_fix" none (nullable string)

/-- Read an unclear area. -/
def UnclearArea.decode : Decoder UnclearArea :=
  record "UnclearArea" fun fs =>
    UnclearArea.mk <$> required fs "description" string
      <*> optional fs "questions" [] (list string)

/-- Read a suggestion. -/
def Suggestion.decode : Decoder Suggestion :=
  record "Suggestion" fun fs =>
    Suggestion.mk <$> required fs "description" string
      <*> optional fs "rationale" "" string
      <*> optional fs "priority" .recommended (choice Priority.words)

/-- Read an assessment. -/
def Assessment.decode : Decoder Assessment :=
  record "LlmReview" fun fs =>
    Assessment.mk <$> optional fs "overall_assessment" "" string
      <*> optional fs "gaps" [] (list Gap.decode)
      <*> optional fs "unclear_areas" [] (list UnclearArea.decode)
      <*> optional fs "suggestions" [] (list Suggestion.decode)
      <*> optional fs "score" 0.0 unitInterval
      <*> optional fs "requires_human_input" false bool
      <*> optional fs "human_input_reason" none (nullable string)

/-- Read a review. -/
def Review.decode : Decoder Review :=
  record "ReviewResult" fun fs =>
    Review.mk <$> optional fs "passed" false bool
      <*> optional fs "hard_check_results" [] (list HardCheck.decode)
      <*> optional fs "llm_review" {} Assessment.decode
      <*> optional fs "summary" "" string

/-- Read a review from a document : a whole review, or the bare assessment of a reviewer. -/
def Review.ofJson (document : Json) : Except Invalid Review :=
  if document.isObject && (document.get? "llm_review").isNone then
    ((Assessment.decode document).report "LlmReview").map fun a => { assessment := a }
  else (Review.decode document).report "ReviewResult"

/-- The document of a check's result. -/
def HardCheck.toJson (c : HardCheck) : Json :=
  .obj [
    ("check_name", .str c.name),
    ("passed", .bool c.passed),
    ("message", .str c.message),
    ("severity", .str c.severity.word)]

/-- The document of a gap. -/
def Gap.toJson (g : Gap) : Json :=
  .obj [
    ("description", .str g.description),
    ("location", ofOption .str g.location),
    ("severity", .str g.severity.word),
    ("suggested_fix", ofOption .str g.suggestedFix)]

/-- The document of an unclear area. -/
def UnclearArea.toJson (u : UnclearArea) : Json :=
  .obj [("description", .str u.description), ("questions", strings u.questions)]

/-- The document of a suggestion. -/
def Suggestion.toJson (s : Suggestion) : Json :=
  .obj [
    ("description", .str s.description),
    ("rationale", .str s.rationale),
    ("priority", .str s.priority.word)]

/-- The document of an assessment. -/
def Assessment.toJson (a : Assessment) : Json :=
  .obj [
    ("overall_assessment", .str a.overall),
    ("gaps", .list Gap.toJson a.gaps),
    ("unclear_areas", .list UnclearArea.toJson a.unclearAreas),
    ("suggestions", .list Suggestion.toJson a.suggestions),
    ("score", .float a.score),
    ("requires_human_input", .bool a.requiresHumanInput),
    ("human_input_reason", ofOption .str a.humanInputReason)]

/-- The fields of a review's document. -/
def Review.fields (r : Review) : Json.Fields := [
  ("passed", .bool r.passed),
  ("hard_check_results", .list HardCheck.toJson r.hardChecks),
  ("llm_review", r.assessment.toJson),
  ("summary", .str r.summary)]

/-- The document of a review. -/
def Review.toJson (r : Review) : Json :=
  .obj r.fields

/-! ## The verdict -/

/-- The reviewer's score. -/
def Review.score (r : Review) : Float :=
  r.assessment.score

/-- Whether a check failed that may not fail. -/
def Review.isBlocked (r : Review) : Bool :=
  r.hardChecks.any fun c => !c.passed && c.severity == .error

/-- Whether the review lets a plan pass at a threshold. -/
def Review.passes (r : Review) (threshold : Float) : Bool :=
  !r.isBlocked && r.score ≥ threshold

/-- The review with its verdict recomputed at a threshold. -/
def Review.judged (r : Review) (threshold : Float) : Review :=
  { r with passed := r.passes threshold }

/-! ## Feedback -/

/-- How much a failed check matters to the planner. -/
def checkMark : Severity → String
  | .error => "[MUST FIX]"
  | .warning => "[SHOULD FIX]"
  | .info => "[CONSIDER]"

/-- How much a gap matters to the planner. -/
def gapMark : Severity → String
  | .error => "[CRITICAL]"
  | .warning => "[SHOULD FIX]"
  | .info => "[CONSIDER]"

/-- The lines of feedback about a gap. -/
def Gap.feedback (g : Gap) : List String :=
  (gapMark g.severity ++ " " ++ g.description) ::
    match g.suggestedFix with
    | some fix => if fix.isEmpty then [] else ["  Suggested: " ++ fix]
    | none => []

/-- The lines of feedback about an unclear area. -/
def UnclearArea.feedback (u : UnclearArea) : List String :=
  ("[CLARIFY] " ++ u.description) :: u.questions.map ("  - " ++ ·)

/-- The review as lines of feedback for the planner. -/
def Review.feedback (r : Review) : List String :=
  (r.hardChecks.filter (!·.passed)).map
    (fun c => checkMark c.severity ++ " " ++ c.name ++ ": " ++ c.message) ++
  r.assessment.gaps.flatMap Gap.feedback ++
  r.assessment.unclearAreas.flatMap UnclearArea.feedback

end PlanReview
