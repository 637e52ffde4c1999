import PlanReview.Settings.Environment
import PlanReview.Text.Lines

/-!
# Recipes

A recipe holds the instructions for a planner or reviewer, and may name a provider and a model.
Recipes are YAML files. Two come with the program (`builtin`); a relative path leads to one of them
if nothing else is found under it.
-/

namespace PlanReview

/-- A recipe. -/
structure Recipe where
  path : Path
  instructions : String
  prompt : Option String := none
  provider : Option String := none
  model : Option String := none

namespace Recipe

/-- The lines of the recipe for planners. -/
def plannerLines : List String := [
  "# Planner recipe. \x60instructions\x60 becomes the system prompt.",
  "provider: openai",
  "instructions: |",
  "  You are a senior engineer writing an implementation plan for a coding agent.",
  "  Produce a plan object with: title, description, goal, tier (quick, standard or strategic),",
  "  context (problem_statement, constraints, assumptions, existing_patterns), phases",
  "  (name, goal, tier, checkpoints with id, description, tasks and validation),",
  "  acceptance_criteria, file_references (path, action, description), risks",
  "  (description, severity, mitigation) and reasoning.",
  "",
  "  Also produce \x60instructions\x60: an executable graph of steps. Each step has id, op,",
  "  params, dependencies, description and estimated_tokens. Allowed ops are SEARCH_CODE,",
  "  SEARCH_SEMANTIC, READ_FILES, EDIT_CODE, GENERATE_TEST, RUN_TEST, RUN_COMMAND,",
  "  VERIFY_EXISTS, GET_DEPENDENCIES, DEFINE_TASK and VERIFY_TASK.",
  "",
  "  Rules for instructions:",
  "  - Follow SEARCH_CODE -> READ_FILES -> GENERATE_TEST -> RUN_TEST (expect fail)",
  "    -> EDIT_CODE -> RUN_TEST (expect pass).",
  "  - Pass data with $\x7bid.field\x7d where field is one of output, stdout, stderr,",
  "    exit_code, artifacts or metadata, and list every referenced id in dependencies.",
  "  - EDIT_CODE and GENERATE_TEST take goal, role, context_files and constraints.",
  "  - Keep each EDIT_CODE to at most four files.",
  "  - When feedback is given, fix the instructions instead of removing them.",
  "prompt: |",
  "  Plan the following work. Ground every file path in what you can verify."]

/-- The lines of the recipe for reviewers. -/
def reviewerLines : List String := [
  "# Reviewer recipe. \x60instructions\x60 becomes the system prompt.",
  "provider: openai",
  "instructions: |",
  "  You review implementation plans written for a coding agent. Judge completeness,",
  "  correctness, testability and whether the instruction graph can actually run.",
  "  Use the hard checklist and the viability analysis you are given; critical",
  "  viability violations must be reflected as gaps with severity \"error\".",
  "",
  "  Score from 0 to 1. Report gaps (description, location, severity, suggested_fix),",
  "  unclear_areas (description, questions) and suggestions (description, rationale,",
  "  priority). Set requires_human_input with a human_input_reason only when a decision",
  "  cannot be made from the task and the codebase."]

/-- The text of a file with some lines. -/
def fileText (lines : List String) : String :=
  String.join (lines.map (· ++ "\n"))

/-- The recipes that come with the program, under their paths inside its directory. -/
def builtin : List (String × String) := [
  ("recipes/planner.yaml", fileText plannerLines),
  ("recipes/reviewer.yaml", fileText reviewerLines)]

/-- The path of a recipe : a relative one is taken from the directory for recipes if there is one,
else from the working directory if something is there, else from the program's directory. -/
def resolve (files : FileTree) (programDir : Path) (recipe : String) (recipeDir : Option String) :
    Path :=
  let path := Path.ofString recipe
  if path.absolute then path
  else
    match Environment.orGiven recipeDir none with
    | some dir => (Path.ofString dir).join path
    | none => if files.has path then path else programDir.join path

/-- The recipe in the entries of a file. -/
def ofEntries (path : Path) (entries : YamlEntries) : Except Failure Recipe := do
  let context := "recipe " ++ path.name
  SettingsFile.onlyKnown context ["instructions", "prompt", "provider", "model"] entries
  match entries.get? "instructions" with
  | none => throw (.config (.noInstructions path.name))
  | some y =>
    let instructions ← SettingsFile.string (context ++ ".instructions") y
    if !Text.hasInk instructions then throw (.config (.blankInstructions path.name))
    let part (name : String) : Except Failure (Option String) :=
      SettingsFile.field entries context name none SettingsFile.stringOrNull
    return ⟨path, instructions, ← part "prompt", ← part "provider", ← part "model"⟩

/-- The recipe in a file. -/
def load (files : FileTree) (path : Path) : Except Failure Recipe := do
  match ← SettingsFile.read files "recipe" path with
  | .null => throw (.config (.emptyRecipe path.text))
  | y => ofEntries path (← SettingsFile.mapping ("recipe " ++ path.name) y)

end Recipe

end PlanReview
