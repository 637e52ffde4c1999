import PlanReview.Guardrail.Limits
import PlanReview.Viability.Verdict

/-!
# Settings

What can be set about sessions : who plans and reviews with which recipe, where sessions and
documents go, and the limits of a run. Every setting has a default.
-/

namespace PlanReview

open Schema

/-- The settings of a planner or reviewer. -/
structure PhaseSettings where
  recipe : String
  provider : Option String := none
  model : Option String := none

/-- Where sessions and documents go. -/
structure OutputSettings where
  runsDir : String := "./.plan-forge"
  activeDir : String := "./dev/active"
  slug : Option String := none

/-- The limits of a run and the score from which on a plan passes. -/
structure GuardrailSettings where
  maxIterations : Int := 10
  maxTotalTokens : Int := 500000
  maxToolCalls : Int := 100
  timeoutSeconds : Int := 600
  scoreThreshold : Float := 0.8
  maxPhaseErrors : Int := 3
  requireApproval : Bool := false

/-- All settings. -/
structure Settings where
  planning : PhaseSettings := { recipe := "recipes/planner.yaml" }
  review : PhaseSettings := { recipe := "recipes/reviewer.yaml" }
  output : OutputSettings := {}
  guardrails : GuardrailSettings := {}

/-- The limits that a run is checked against. -/
def GuardrailSettings.limits (g : GuardrailSettings) : Guardrail.Limits where
  maxIterations := g.maxIterations
  maxTotalTokens := g.maxTotalTokens
  maxToolCalls := g.maxToolCalls
  timeoutSeconds := Float.ofInt g.timeoutSeconds
  maxPhaseErrors := g.maxPhaseErrors

/-- The settings with another passing score, moved into the unit interval. -/
def Settings.withThreshold (s : Settings) (threshold : Float) : Settings :=
  { s with guardrails := { s.guardrails with scoreThreshold := Viability.clampUnit threshold } }

/-! ## Documents -/

/-- Read the settings of a phase whose recipe is `recipe` by default. -/
def PhaseSettings.decode (shape recipe : String) : Decoder PhaseSettings :=
  record shape fun fs =>
    PhaseSettings.mk <$> optional fs "recipe" recipe string
      <*> optional fs "provider_override" none (nullable string)
      <*> optional fs "model_override" none (nullable string)

/-- Read where sessions and documents go. -/
def OutputSettings.decode : Decoder OutputSettings :=
  record "OutputConfig" fun fs =>
    OutputSettings.mk <$> optional fs "runs_dir" "./.plan-forge" string
      <*> optional fs "active_dir" "./dev/active" string
      <*> optional fs "slug" none (nullable string)

/-- Read the limits of a run. -/
def GuardrailSettings.decode : Decoder GuardrailSettings :=
  record "GuardrailsConfig" fun fs =>
    GuardrailSettings.mk <$> optional fs "max_iterations" 10 int
      <*> optional fs "max_total_tokens" 500000 int
      <*> optional fs "max_tool_calls" 100 int
      <*> optional fs "execution_timeout_secs" 600 int
      <*> optional fs "score_threshold" 0.8 float
      <*> optional fs "max_phase_errors" 3 int
      <*> optional fs "require_condition_approval" false bool

/-- Read all settings. -/
def Settings.decode : Decoder Settings :=
  let base : Settings := {}
  record "ForgeConfig" fun fs =>
    Settings.mk
      <$> optional fs "planning" base.planning
        (PhaseSettings.decode "PlanningConfig" base.planning.recipe)
      <*> optional fs "review" base.review (PhaseSettings.decode "ReviewConfig" base.review.recipe)
      <*> optional fs "output" {} OutputSettings.decode
      <*> optional fs "guardrails" {} GuardrailSettings.decode

/-- The document of the settings of a phase. -/
def PhaseSettings.toJson (p : PhaseSettings) : Json :=
  .obj [
    ("recipe", .str p.recipe),
    ("provider_override", Json.ofOption .str p.provider),
    ("model_override", Json.ofOption .str p.model)]

/-- The document of where sessions and documents go. -/
def OutputSettings.toJson (o : OutputSettings) : Json :=
  .obj [
    ("runs_dir", .str o.runsDir),
    ("active_dir", .str o.activeDir),
    ("slug", Json.ofOption .str o.slug)]

/-- The document of the limits of a run. -/
def GuardrailSettings.toJson (g : GuardrailSettings) : Json :=
  .obj [
    ("max_iterations", .int g.maxIterations),
    ("max_total_tokens", .int g.maxTotalTokens),
    ("max_tool_calls", .int g.maxToolCalls),
    ("execution_timeout_secs", .int g.timeoutSeconds),
    ("score_threshold", .float g.scoreThreshold),
    ("max_phase_errors", .int g.maxPhaseErrors),
    ("require_condition_approval", .bool g.requireApproval)]

/-- The document of all settings. -/
def Settings.toJson (s : Settings) : Json :=
  .obj [
    ("planning", s.planning.toJson),
    ("review", s.review.toJson),
    ("output", s.output.toJson),
    ("guardrails", s.guardrails.toJson)]

end PlanReview
