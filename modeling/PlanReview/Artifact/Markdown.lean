import PlanReview.Graph.Metrics
import PlanReview.Text.Lines

/-!
# Plans as markdown

A finished plan is written as three documents : the plan itself, its tasks as a list to tick off,
and the context it was made in.
-/

namespace PlanReview

/-- Under which title a plan is written. -/
inductive FinalStatus where
  | approved | bestEffort | draft
  deriving Repr, DecidableEq

/-- The words for the titles. -/
def FinalStatus.words : List (String × FinalStatus) :=
  [("approved", .approved), ("best_effort", .bestEffort), ("draft", .draft)]

namespace Markdown

/-- The line about the status of a plan. -/
def statusLine (status : FinalStatus) (score : Option Float) : String :=
  match status with
  | .draft => "**Status:** DRAFT - Awaiting Human Input"
  | .bestEffort =>
    let x := score.getD 0.0
    "**Status:** Best Effort (score " ++ Decimal.fixed 2 (if x == 0.0 then 0.0 else x) ++ ")"
  | .approved => "**Status:** Approved"

/-- How high a risk is. -/
def riskTag : Severity → String
  | .error => "[HIGH]"
  | .warning => "[MEDIUM]"
  | .info => "[LOW]"

/-- The lines for a text that may be missing or empty. -/
def ifText (text : Option String) (lines : String → List String) : List String :=
  match text with
  | some t => if t.isEmpty then [] else lines t
  | none => []

/-- The lines for a list that may be empty. -/
def ifAny (items : List String) (lines : List String → List String) : List String :=
  if items.isEmpty then [] else lines items

/-- Names with commas between them. -/
def commas (items : List String) : String :=
  String.intercalate ", " items

/-- The lines about a checkpoint. -/
def checkpointLines (c : Checkpoint) : List String :=
  ("- [ ] **" ++ c.id ++ "**: " ++ c.description) ::
    ifText c.validation fun v => ["  - Validation: " ++ v]

/-- The lines about the phase number `n`. -/
def phaseLines (phase : PlanPhase) (n : Nat) : List String :=
  ["### Phase " ++ toString n ++ ": " ++ phase.name ++ " (" ++ phase.tier.word ++ ")"] ++
  ifText (some phase.goal) (fun g => ["Goal: " ++ g]) ++
  ifAny phase.dependencies (fun ds => ["Depends on: " ++ commas ds]) ++
  [""] ++ phase.checkpoints.flatMap checkpointLines ++ [""]

/-- The lines about a risk. -/
def riskLines (r : Risk) : List String :=
  ("- " ++ riskTag r.severity ++ " " ++ r.description) ::
    ifText (some r.mitigation) fun m => ["  - Mitigation: " ++ m]

/-- The lines about the instruction number `n`. -/
def instructionLines (i : Instruction) (n : Nat) : List String :=
  let head := toString n ++ ". **" ++ i.id ++ "** (`" ++ i.op.word ++ "`) " ++
    i.description
  [String.ofList (Text.dropEndWhile Text.isBlank head.toList)] ++
  ifAny i.dependencies (fun ds => ["   - Depends on: " ++ commas ds]) ++
  (match i.estimatedTokens with
   | some n => ["   - Estimated tokens: " ++ toString n]
   | none => [])

/-- The lines about the instructions of a plan. -/
def instructionSection (instructions : List Instruction) : List String :=
  if instructions.isEmpty then []
  else
    ["## Instructions", ""] ++
    ifText (some (Graph.Metrics.of instructions).markdown) (fun table => [table, ""]) ++
    (instructions.zipIdx 1).flatMap (fun (i, n) => instructionLines i n) ++ [""]

/-- The document of a plan. -/
def plan (p : Plan) (status : FinalStatus) (score : Option Float) : String :=
  String.intercalate "\n" (
    ["# " ++ p.title, "", statusLine status score, "",
      "**Tier:** " ++ p.tier.word ++ "  ",
      "**Version:** " ++ toString p.metadata.version ++ " (iteration " ++
        toString p.metadata.iteration ++ ")",
      ""] ++
    ifText (some p.description) (fun d => [d, ""]) ++
    ["## Goal", "", p.effectiveGoal, "", "## Phases", ""] ++
    (p.phases.zipIdx 1).flatMap (fun (phase, n) => phaseLines phase n) ++
    ["## Acceptance Criteria", ""] ++
    p.acceptanceCriteria.map (fun c =>
      "- [ ] " ++ c.description ++ " (" ++ c.priority.word ++ ")") ++
    ["", "## Risks", ""] ++
    p.risks.flatMap riskLines ++
    [""] ++
    instructionSection p.steps)

/-- The lines about a task. -/
def taskLines (t : Task) : List String :=
  ["- [ ] " ++ t.description] ++
  t.fileReferences.map (fun r => "  - `" ++ r ++ "`") ++
  ifText t.implementationNotes (fun n => ["  - Notes: " ++ n])

/-- The document of a plan's tasks. -/
def tasks (p : Plan) : String :=
  String.intercalate "\n" (
    ["# " ++ p.title ++ " - Tasks", ""] ++
    p.phases.flatMap fun phase =>
      ["## " ++ phase.name, ""] ++
      phase.checkpoints.flatMap fun c =>
        ["### " ++ c.id ++ ": " ++ c.description] ++ c.tasks.flatMap taskLines ++ [""])

/-- A section with a list. -/
def listSection (heading : String) (items : List String) : List String :=
  ifAny items fun items => ["## " ++ heading, ""] ++ items.map ("- " ++ ·) ++ [""]

/-- The section about the files of a plan. -/
def fileSection (references : List FileReference) : List String :=
  if references.isEmpty then []
  else
    ["## File References", "", "| Path | Action | Description |", "|---|---|---|"] ++
    references.map (fun r =>
      "| `" ++ r.path ++ "` | " ++ r.action.word ++ " | " ++ r.description ++ " |") ++
    [""]

/-- The section about what was verified before planning. -/
def evidenceSection : Option GroundingSnapshot → List String
  | none => []
  | some s =>
    ["## Grounding Evidence", "", "| File | Exists |", "|---|---|"] ++
    s.verifiedFiles.map (fun f =>
      "| `" ++ f.path ++ "` | " ++ (if f.doesExist then "yes" else "no") ++ " |") ++
    s.verifiedTargets.map (fun t =>
      "| `" ++ t.target ++ "` | " ++ (if t.resolves then "resolves" else "missing") ++
        " |") ++
    [""]

/-- The document of a plan's context. -/
def context (p : Plan) : String :=
  let problem := p.context.problemStatement
  String.intercalate "\n" (
    ["# " ++ p.title ++ " - Context", "", "## Problem Statement", "",
      if problem.isEmpty then "(none)" else problem, ""] ++
    listSection "Constraints" p.context.constraints ++
    listSection "Assumptions" p.context.assumptions ++
    listSection "Existing Patterns" p.context.existingPatterns ++
    ifText p.reasoning (fun r => ["## Reasoning", "", r, ""]) ++
    fileSection p.fileReferences ++
    evidenceSection p.groundingSnapshot ++
    ifText p.operatorRunbook (fun r => ["## Operator Runbook", "", r, ""]))

end Markdown

end PlanReview
