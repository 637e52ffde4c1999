import PlanReview.Json.Writer
import PlanReview.Phase.Basic
import PlanReview.Settings.Recipe

/-!
# Prompts

What a model is told before it plans or reviews : sections of text with empty lines between them.
The recipe opens, what is known about the session follows, and the form of the reply comes last.
-/

namespace PlanReview.Prompt

/-- A section that is only there for a text that is not empty. -/
def part (text : Option String) (write : String → String) : List String :=
  match Environment.orGiven text none with
  | some s => [write s]
  | none => []

/-- The sections with an empty line between them. -/
def join (sections : List String) : String :=
  String.intercalate "\n\n" sections

/-- The document of a plan, as a model is shown it. -/
def planText (p : Plan) : String :=
  Json.write { Json.indented with asciiOnly := true } p.toJson

/-- How a planner has to reply. -/
def planHint : String :=
  "Respond with a single JSON object describing the plan. No prose outside it."

/-- How a reviewer has to reply. -/
def reviewHint : String :=
  "Respond with a single JSON object with keys overall_assessment, gaps, unclear_areas," ++
    " suggestions, score (0..1), requires_human_input and human_input_reason."

/-- The opening section of a recipe. -/
def opening (r : Recipe) : List String :=
  part r.prompt Text.strip

/-- The section on the working directory. -/
def place (workingDir : Option String) : List String :=
  part workingDir ("Working directory: " ++ ·)

/-- The feedback that a revised plan has to take up. -/
def feedback (lines : List String) : List String :=
  if lines.isEmpty then []
  else ["Address this feedback in the revised plan:\n" ++ String.intercalate "\n" lines]

/-- The sections on the plan to be revised. -/
def revision (c : PlanningContext) : List String :=
  match c.currentPlan with
  | some p =>
    if c.isUpdate then ("Previous plan:\n" ++ planText p) :: feedback c.pendingFeedback else []
  | none => []

/-- What a planner is told. -/
def planning (r : Recipe) (c : PlanningContext) : String :=
  join (opening r ++ ["Task: " ++ Text.strip c.task] ++ place c.workingDir ++
    ["Iteration: " ++ toString c.iteration] ++
    part (some c.contextSummary) ("Session so far:\n" ++ ·) ++ revision c ++ [planHint])

/-- The section on the hard checks. -/
def checklist (checks : List HardCheck) : List String :=
  if checks.isEmpty then [] else ["Hard checklist:\n" ++ Checklist.summary checks]

/-- The section on the viability of the plan. -/
def viability (v : Option Viability.Verdict) : List String :=
  v.toList.map fun v => "Viability analysis:\n" ++ v.summary

/-- The section on the graph of the instructions. -/
def graph (m : Option Graph.Metrics) : List String :=
  part (m.map Graph.Metrics.markdown) ("Instruction graph:\n" ++ ·)

/-- What a reviewer is told. -/
def reviewing (r : Recipe) (p : Plan) (c : ReviewContext) : String :=
  join (opening r ++ ["Iteration: " ++ toString c.iteration] ++ place c.workingDir ++
    ["Plan under review:\n" ++ planText p] ++ checklist c.checklist ++ viability c.viability ++
    graph c.graph ++
    ["A plan passes at score " ++ Decimal.fixed 2 c.threshold ++ " or above.", reviewHint])

end PlanReview.Prompt
