import PlanReview.Files.Tree
import PlanReview.Settings.Basic
import PlanReview.Failure
import PlanReview.Yaml.Reader

/-!
# Settings from a file

A file of settings is a YAML mapping with known groups of known fields. Nothing in it is converted :
a number given as a text is a fault. `review.pass_threshold` is another name for
`guardrails.score_threshold`, and giving both with different values is a fault too.
-/

namespace PlanReview

/-- The name of a value's type, as the messages about misused values have it. -/
def Yaml.typeName : Yaml → String
  | .null => "NoneType"
  | .bool _ => "bool"
  | .int _ => "int"
  | .float _ => "float"
  | .text _ => "str"
  | .special _ => "str"
  | .moment written => if written.length = 10 then "datetime.date" else "datetime.datetime"
  | .seq _ => "list"
  | .map _ => "dict"

/-- Whether two keys have an order : they are of one type, or both are numbers. -/
def Yaml.comparesWith (a b : Yaml) : Bool :=
  a.typeName == b.typeName || (a.keyNumber?.isSome && b.keyNumber?.isSome)

/-- The entries of a YAML mapping. -/
abbrev YamlEntries := List (Yaml × Yaml)

namespace YamlEntries

/-- The value under a key. -/
def get? (entries : YamlEntries) (key : String) : Option Yaml :=
  (entries.find? fun e => match e.1 with
    | .text k => k == key
    | _ => false).map Prod.snd

/-- The keys that are not among the known ones. -/
def unknown (entries : YamlEntries) (known : List String) : List Yaml :=
  (entries.map Prod.fst).filter fun k => match k with
    | .text k => !known.contains k
    | _ => true

/-- The value under a key, unless it is missing or null. -/
def present? (entries : YamlEntries) (key : String) : Option Yaml :=
  match entries.get? key with
  | some .null => none
  | v => v

end YamlEntries

namespace SettingsFile

/-- A mapping. -/
def mapping (context : String) : Yaml → Except Failure YamlEntries
  | .map entries => .ok entries
  | _ => .error (.config (.notMapping context))

/-- What naming keys runs into that are not all texts : they are sorted, then joined. Which two keys
of types without an order meet first is left to chance; here it is the first key and the next one
that does not compare with it. -/
def unnamed : List Yaml → String
  | [] => ""
  | k :: ks =>
    match ks.find? fun k' => !k.comparesWith k' with
    | some k' => "'<' not supported between instances of " ++ Text.quoted k'.typeName ++ " and " ++
        Text.quoted k.typeName
    | none => "sequence item 0: expected str instance, " ++ k.typeName ++ " found"

/-- Refuse keys that are not known. Only texts can be named in the message. -/
def onlyKnown (context : String) (known : List String) (entries : YamlEntries) :
    Except Failure Unit :=
  let unknown := entries.unknown known
  let names := unknown.filterMap fun k => match k with
    | .text k => some k
    | _ => none
  if unknown.isEmpty then .ok ()
  else if names.length = unknown.length then
    .error (.config (.unknownFields context (names.mergeSort fun a b => a ≤ b)))
  else .error (.crash (.kind (unnamed unknown)))

/-- A text. -/
def string (context : String) : Yaml → Except Failure String
  | .text s => .ok s
  | _ => .error (.config (.notString context))

/-- A text, or null. -/
def stringOrNull (context : String) : Yaml → Except Failure (Option String)
  | .null => .ok none
  | y => (string context y).map some

/-- A number. -/
def number (context : String) : Yaml → Except Failure Float
  | .int n => if Decimal.fitsFloat n then .ok (Float.ofInt n) else .error (.crash .tooLarge)
  | .float x => .ok x
  | _ => .error (.config (.notNumber context))

/-- An integer. -/
def integer (context : String) : Yaml → Except Failure Int
  | .int n => .ok n
  | _ => .error (.config (.notInteger context))

/-- A truth value. -/
def boolean (context : String) : Yaml → Except Failure Bool
  | .bool b => .ok b
  | _ => .error (.config (.notBoolean context))

/-- A number from zero to one. -/
def score (context : String) (y : Yaml) : Except Failure Float := do
  let x ← number context y
  if 0.0 ≤ x && x ≤ 1.0 then return x else throw (.config (.notInUnit context))

/-- A field that may be missing. -/
def field {α : Type} (entries : YamlEntries) (context name : String) (default : α)
    (read : String → Yaml → Except Failure α) : Except Failure α :=
  match entries.get? name with
  | some y => read (context ++ "." ++ name) y
  | none => .ok default

/-- The settings of a phase, with the passing score if it may have one. -/
def phase (context : String) (base : PhaseSettings) (scored : Bool) (y : Yaml) :
    Except Failure (PhaseSettings × Option Float) := do
  let entries ← mapping context y
  onlyKnown context
    (["recipe", "provider_override", "model_override"] ++ if scored then ["pass_threshold"] else [])
    entries
  let recipe ← field entries context "recipe" base.recipe string
  let provider ← field entries context "provider_override" base.provider stringOrNull
  let model ← field entries context "model_override" base.model stringOrNull
  let passing ← field entries context "pass_threshold" none fun c y => (score c y).map some
  return (⟨recipe, provider, model⟩, passing)

/-- Where sessions and documents go. -/
def output (base : OutputSettings) (y : Yaml) : Except Failure OutputSettings := do
  let entries ← mapping "output" y
  onlyKnown "output" ["runs_dir", "active_dir", "slug"] entries
  let runsDir ← field entries "output" "runs_dir" base.runsDir string
  let activeDir ← field entries "output" "active_dir" base.activeDir string
  let slug ← field entries "output" "slug" base.slug stringOrNull
  return ⟨runsDir, activeDir, slug⟩

/-- Refuse a given limit that leaves nothing to do. -/
def positive (entries : YamlEntries) (name : String) (value : Int) : Except Failure Unit :=
  if (entries.get? name).isSome && value < 1 then
    .error (.config (.belowOne ("guardrails." ++ name)))
  else .ok ()

/-- The limits of a run. -/
def guardrails (base : GuardrailSettings) (y : Yaml) : Except Failure GuardrailSettings := do
  let entries ← mapping "guardrails" y
  onlyKnown "guardrails" ["max_iterations", "max_total_tokens", "max_tool_calls",
    "execution_timeout_secs", "max_phase_errors", "score_threshold",
    "require_condition_approval"] entries
  let limit (name : String) (default : Int) := field entries "guardrails" name default integer
  let maxIterations ← limit "max_iterations" base.maxIterations
  let maxTotalTokens ← limit "max_total_tokens" base.maxTotalTokens
  let maxToolCalls ← limit "max_tool_calls" base.maxToolCalls
  let timeoutSeconds ← limit "execution_timeout_secs" base.timeoutSeconds
  let maxPhaseErrors ← limit "max_phase_errors" base.maxPhaseErrors
  positive entries "max_iterations" maxIterations
  positive entries "max_phase_errors" maxPhaseErrors
  let threshold ← field entries "guardrails" "score_threshold" base.scoreThreshold score
  let approval ←
    field entries "guardrails" "require_condition_approval" base.requireApproval boolean
  return ⟨maxIterations, maxTotalTokens, maxToolCalls, timeoutSeconds, threshold, maxPhaseErrors,
    approval⟩

/-- A group of settings, or its defaults. -/
def group {α : Type} (entries : YamlEntries) (name : String) (default : α)
    (read : Yaml → Except Failure α) : Except Failure α :=
  match entries.present? name with
  | some y => read y
  | none => .ok default

/-- Whether the group of limits sets the passing score. -/
def setsScore (entries : YamlEntries) : Bool :=
  match entries.present? "guardrails" with
  | some (.map limits) => (YamlEntries.get? limits "score_threshold").isSome
  | _ => false

/-- The settings in the entries of a file. -/
def ofEntries (entries : YamlEntries) : Except Failure Settings := do
  onlyKnown "config" ["planning", "review", "output", "guardrails"] entries
  let base : Settings := {}
  let (planning, _) ← group entries "planning" (base.planning, none)
    (phase "planning" base.planning false)
  let (review, passing) ← group entries "review" (base.review, none)
    (phase "review" base.review true)
  let out ← group entries "output" base.output (output base.output)
  let limits ← group entries "guardrails" base.guardrails (guardrails base.guardrails)
  let settings : Settings := ⟨planning, review, out, limits⟩
  match passing with
  | none => return settings
  | some x =>
    if setsScore entries && !(limits.scoreThreshold == x) then
      throw (.config .thresholdsDisagree)
    return settings.withThreshold x

/-- The YAML value in a file; `what` names the kind of file. -/
def read (files : FileTree) (what : String) (path : Path) : Except Failure Yaml :=
  if !files.has path then .error (.config (.notFound what path.text))
  else
    match files.read path with
    | .error e => .error (.crash (.file e))
    | .ok content =>
      match content.readText? with
      | none => .error (.crash (.undecodable content))
      | some text =>
        match Yaml.parse text with
        | none => .error (.config (.badYaml what path.text))
        | some y => .ok y

/-- The settings in a file; an empty one sets nothing. -/
def load (files : FileTree) (path : Path) : Except Failure Settings := do
  match ← read files "config" path with
  | .null => return {}
  | y => ofEntries (← mapping "config" y)

end SettingsFile

end PlanReview
