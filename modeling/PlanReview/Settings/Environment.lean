import PlanReview.Settings.File
import PlanReview.Text.LowerCase

/-!
# Settings from the environment

Variables that override the settings of a file, and those that say how a model is reached. Letter
case does not matter in their names; each has a long name and a short one, and the long one goes
first.
-/

namespace PlanReview

open Schema

/-- What the environment sets. -/
structure Environment where
  threshold : Option Float := none
  maxIterations : Option Int := none
  maxTotalTokens : Option Int := none
  plannerProvider : Option String := none
  plannerModel : Option String := none
  reviewerProvider : Option String := none
  reviewerModel : Option String := none
  recipeDir : Option String := none
  apiKey : Option String := none
  baseUrl : String := "https://api.openai.com/v1"
  model : String := "gpt-4.1-mini"
  timeoutSeconds : Int := 30

namespace Environment

/-- The long and the short name of every variable, in order. -/
def names : List (String × String) := [
  ("PLAN_FORGE_THRESHOLD", "threshold"),
  ("PLAN_FORGE_MAX_ITERATIONS", "max_iterations"),
  ("PLAN_FORGE_MAX_TOTAL_TOKENS", "max_total_tokens"),
  ("PLAN_FORGE_PLANNER_PROVIDER", "planner_provider"),
  ("PLAN_FORGE_PLANNER_MODEL", "planner_model"),
  ("PLAN_FORGE_REVIEWER_PROVIDER", "reviewer_provider"),
  ("PLAN_FORGE_REVIEWER_MODEL", "reviewer_model"),
  ("PLAN_FORGE_RECIPE_DIR", "recipe_dir"),
  ("OPENAI_API_KEY", "openai_api_key"),
  ("OPENAI_BASE_URL", "openai_base_url"),
  ("OPENAI_MODEL", "openai_model"),
  ("OPENAI_TIMEOUT_SECONDS", "openai_timeout_seconds")]

/-- The value of the variable with a name, letter case aside; the last one given counts. -/
def valueOf (vars : List (String × String)) (name : String) : Option String :=
  (vars.reverse.find? fun v => Text.lowerString v.1 == Text.lowerString name).map Prod.snd

/-- The variable that sets something, under the name by which it was found. -/
def given (vars : List (String × String)) (long : String) : Option (String × Json) :=
  match valueOf vars long with
  | some v => some (long, .str v)
  | none =>
    (names.lookup long).bind fun short =>
      (valueOf vars short).map fun v => (short, .str v)

/-- A setting of the environment with a default. -/
def setting {α : Type} (vars : List (String × String)) (long : String) (default : α)
    (d : Decoder α) : Checked α :=
  match given vars long with
  | some (name, v) => (d v).under (.field name)
  | none => .ok default

/-- What the variables of an environment set. -/
def ofVariables (vars : List (String × String)) : Except Invalid Environment :=
  let maybe {α : Type} (long : String) (d : Decoder α) : Checked (Option α) :=
    setting vars long none fun j => (d j).map some
  (Environment.mk <$> maybe "PLAN_FORGE_THRESHOLD" float
    <*> maybe "PLAN_FORGE_MAX_ITERATIONS" int
    <*> maybe "PLAN_FORGE_MAX_TOTAL_TOKENS" int
    <*> maybe "PLAN_FORGE_PLANNER_PROVIDER" string
    <*> maybe "PLAN_FORGE_PLANNER_MODEL" string
    <*> maybe "PLAN_FORGE_REVIEWER_PROVIDER" string
    <*> maybe "PLAN_FORGE_REVIEWER_MODEL" string
    <*> maybe "PLAN_FORGE_RECIPE_DIR" string
    <*> maybe "OPENAI_API_KEY" string
    <*> setting vars "OPENAI_BASE_URL" "https://api.openai.com/v1" string
    <*> setting vars "OPENAI_MODEL" "gpt-4.1-mini" string
    <*> setting vars "OPENAI_TIMEOUT_SECONDS" 30 int).report "EnvSettings"

/-- The document of what the environment sets. -/
def toJson (e : Environment) : Json :=
  .obj [
    ("threshold", Json.ofOption .float e.threshold),
    ("max_iterations", Json.ofOption .int e.maxIterations),
    ("max_total_tokens", Json.ofOption .int e.maxTotalTokens),
    ("planner_provider", Json.ofOption .str e.plannerProvider),
    ("planner_model", Json.ofOption .str e.plannerModel),
    ("reviewer_provider", Json.ofOption .str e.reviewerProvider),
    ("reviewer_model", Json.ofOption .str e.reviewerModel),
    ("recipe_dir", Json.ofOption .str e.recipeDir),
    ("openai_api_key", Json.ofOption .str e.apiKey),
    ("openai_base_url", .str e.baseUrl),
    ("openai_model", .str e.model),
    ("openai_timeout_seconds", .int e.timeoutSeconds)]

/-- A text that is given and not empty, or what stands without it. -/
def orGiven (given : Option String) (default : Option String) : Option String :=
  match given with
  | some s => if s.isEmpty then default else some s
  | none => default

/-- Put the environment over settings. -/
def apply (e : Environment) (s : Settings) : Settings :=
  let s : Settings := {
    planning := { s.planning with
      provider := orGiven e.plannerProvider s.planning.provider
      model := orGiven e.plannerModel s.planning.model }
    review := { s.review with
      provider := orGiven e.reviewerProvider s.review.provider
      model := orGiven e.reviewerModel s.review.model }
    output := s.output
    guardrails := { s.guardrails with
      maxIterations := e.maxIterations.getD s.guardrails.maxIterations
      maxTotalTokens := e.maxTotalTokens.getD s.guardrails.maxTotalTokens } }
  match e.threshold with
  | some x => s.withThreshold x
  | none => s

/-- The settings of a file, if there is one, with the environment over them. -/
def resolve (e : Environment) (files : FileTree) (path : Option Path) : Except Failure Settings :=
  match path with
  | some p => (SettingsFile.load files p).map e.apply
  | none => .ok (e.apply {})

end Environment

end PlanReview
