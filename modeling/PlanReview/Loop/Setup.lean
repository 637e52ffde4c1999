import PlanReview.Chat.Client
import PlanReview.Chat.Offline
import PlanReview.Loop.Rounds
import PlanReview.Phase.Chat

/-!
# From settings to a controller

Settings, environment and recipes together say which models plan and review, and where a session
lives. Without a key for a server, or if it is asked for, the offline model takes either role.
-/

namespace PlanReview

/-- Which model takes a role. -/
inductive ModelChoice where
  | offline (role : Chat.Role)
  | remote (client : Chat.Client)

namespace ModelChoice

/-- The provider that stands for the offline model. -/
def offlineProvider : String := "mock"

/-- The providers that are reached over HTTP. -/
def remoteProviders : List String := ["openai", "openai_compat"]

/-- Whether a role is left to the offline model. -/
def isOffline (e : Environment) (provider : Option String) (offline : Bool) : Bool :=
  offline || provider == some offlineProvider || (Environment.orGiven e.apiKey none).isNone

/-- The model for a role. -/
def of (e : Environment) (role : Chat.Role) (provider model : Option String) (offline : Bool) :
    Except Failure ModelChoice :=
  if isOffline e provider offline then .ok (.offline role)
  else
    match provider.filter fun p => !remoteProviders.contains p with
    | some name => .error (.config (.unknownProvider name))
    | none => .ok (.remote {
        baseUrl := e.baseUrl
        apiKey := e.apiKey.getD ""
        model := (Environment.orGiven model none).getD e.model
        timeoutSeconds := e.timeoutSeconds })

/-- The chosen model, over a network. -/
def model (transport : Chat.Transport) : ModelChoice → Chat.Model
  | offline role => Chat.Offline.model (some role)
  | remote client => client.asModel transport

end ModelChoice

/-- What a planner or reviewer works with. -/
structure PhaseSetup where
  recipe : Recipe
  model : ModelChoice

/-- What a role works with : its recipe, and the model that settings or recipe name. -/
def PhaseSetup.of (files : FileTree) (programDir : Path) (e : Environment) (s : PhaseSettings)
    (role : Chat.Role) (offline : Bool) : Except Failure PhaseSetup := do
  let recipe ← Recipe.load files (Recipe.resolve files programDir s.recipe e.recipeDir)
  let model ← ModelChoice.of e role (Environment.orGiven s.provider recipe.provider)
    (Environment.orGiven s.model recipe.model) offline
  return ⟨recipe, model⟩

/-- What a session works with. -/
structure SessionSetup where
  planner : PhaseSetup
  reviewer : PhaseSetup
  artifacts : Artifacts

/-- The directory of a session. -/
def Settings.sessionDir (s : Settings) (slug : String) : Path :=
  (Path.ofString s.output.runsDir).child slug

/-- What a session works with under some settings. -/
def SessionSetup.of (files : FileTree) (programDir : Path) (s : Settings) (e : Environment)
    (slug : String) (offline : Bool) : Except Failure SessionSetup := do
  let planner ← PhaseSetup.of files programDir e s.planning .planner offline
  let reviewer ← PhaseSetup.of files programDir e s.review .reviewer offline
  return {
    planner := planner
    reviewer := reviewer
    artifacts := {
      sessionDir := s.sessionDir slug
      activeDir := Path.ofString s.output.activeDir
      slug := slug } }

/-- The controller of a session. -/
def SessionSetup.controller (setup : SessionSetup) (transport : Chat.Transport) (s : Settings) :
    Controller where
  planner := ChatPhase.planner (setup.planner.model.model transport) setup.planner.recipe
  reviewer := ChatPhase.reviewer (setup.reviewer.model.model transport) setup.reviewer.recipe
  artifacts := setup.artifacts
  limits := s.guardrails.limits
  scoreThreshold := s.guardrails.scoreThreshold
  requireApproval := s.guardrails.requireApproval
  runsDir := s.output.runsDir
  activeDir := s.output.activeDir

end PlanReview
