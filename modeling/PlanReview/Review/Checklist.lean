import PlanReview.Review.Basic
import PlanReview.Text.Lines

/-!
# The checklist

Six fast checks on a plan's document, made before any reviewer sees it. Four of them are errors
when they fail, the other two warnings.
-/

namespace PlanReview.Checklist

/-- The result of a check : it passes if `passed`, and has a message for either outcome. -/
def result (name : String) (severity : Severity) (passed : Bool) (good bad : String) :
    HardCheck where
  name := name
  passed := passed
  message := if passed then good else bad
  severity := severity

/-- There are acceptance criteria. -/
def acceptanceCriteria (p : Plan) : HardCheck :=
  result "has_acceptance_criteria" .error (!p.acceptanceCriteria.isEmpty)
    ("Found " ++ toString p.acceptanceCriteria.length ++ " acceptance criteria")
    "Plan has no acceptance criteria defined"

/-- There are phases. -/
def phases (p : Plan) : HardCheck :=
  result "has_phases" .error (!p.phases.isEmpty)
    ("Found " ++ toString p.phases.length ++ " phases") "Plan has no phases defined"

/-- Whether some checkpoint of the phase has tasks. -/
def hasTasks (phase : PlanPhase) : Bool :=
  phase.checkpoints.any fun c => !c.tasks.isEmpty

/-- Every phase has tasks. -/
def phasesHaveTasks (p : Plan) : HardCheck :=
  let idle := (p.phases.filter fun phase => !hasTasks phase).map (·.name)
  result "phases_have_tasks" .error idle.isEmpty "All phases have tasks"
    ("Phases without tasks: " ++ String.intercalate ", " idle)

/-- Every file reference is usable. -/
def fileReferences (p : Plan) : HardCheck :=
  let invalid := (p.fileReferences.filter fun r => !r.isValid).map (·.path)
  result "file_references_valid" .error invalid.isEmpty
    ("All " ++ toString p.fileReferences.length ++ " file references are valid")
    ("Invalid file references: " ++ String.intercalate ", " invalid)

/-- All tasks of a plan. -/
def tasks (p : Plan) : List Task :=
  p.phases.flatMap fun phase => phase.checkpoints.flatMap (·.tasks)

/-- Every task is described. -/
def taskDescriptions (p : Plan) : HardCheck :=
  let blank := (tasks p).countP fun t => !Text.hasInk t.description
  result "no_empty_descriptions" .warning (blank == 0) "All tasks have descriptions"
    (toString blank ++ " tasks have empty descriptions")

/-- Risks were thought of. -/
def risks (p : Plan) : HardCheck :=
  result "has_risks" .warning (!p.risks.isEmpty)
    ("Identified " ++ toString p.risks.length ++ " risks")
    "No risks identified - consider potential issues"

/-- All checks, in order. -/
def run (p : Plan) : List HardCheck :=
  [acceptanceCriteria p, phases p, phasesHaveTasks p, fileReferences p, taskDescriptions p,
    risks p]

/-- The results in words, one line each. -/
def summary (results : List HardCheck) : String :=
  String.intercalate "\n" (results.map fun c =>
    "- [" ++ (if c.passed then "PASS" else "FAIL") ++ "] " ++ c.name ++ " (" ++ c.severity.word ++
      "): " ++ c.message)

end PlanReview.Checklist
