import PlanReview.Guardrail.Glob
import PlanReview.Session.State
import PlanReview.Text.LowerCase

/-!
# Conditions that call for a human

Some plans are not carried out without a human's approval, whatever their score. A condition
looks at every string of the plan's document, or at the score and the iteration, and says what
it has found. Before a session is finished the conditions without an approved answer are asked
about (`outstanding`).
-/

namespace PlanReview.Guardrail

/-- A condition that was met, with what met it. -/
structure Condition where
  name : String
  details : List String := []
  deriving Repr, DecidableEq

/-- Where the conditions on score and iteration begin. -/
structure Thresholds where
  iterationSoftLimit : Int := 7
  lowScore : Float := 0.5

/-- The document of a condition. -/
def Condition.toJson (c : Condition) : Json :=
  .obj [("name", .str c.name), ("details", .strings c.details)]

/-- Words that point at security. -/
def securityKeywords : List String :=
  ["credential", "auth", "encrypt", "secret", "token", "password", "api_key", "private_key",
    "certificate"]

/-- Patterns of paths that may hold secrets. -/
def sensitivePatterns : List String :=
  ["*.env", "*.env.*", "*secret*", "*credential*", "*.pem", "*.key", "**/secrets/**"]

/-- Phrases for a public interface. -/
def interfacePhrases : List String :=
  ["pub fn", "pub struct", "pub enum", "pub trait", "public api", "function signature"]

/-- Words for changing something. -/
def changeWords : List String :=
  ["modify", "change", "update", "refactor"]

/-- Phrases for deleting data, in lower case. -/
def deletionPhrases : List String :=
  ["drop table", "delete from", "truncate", "rm -rf", "shutil.rmtree"]

/-- Whether one of the phrases occurs in a text. -/
def mentions (phrases : List String) (text : List Char) : Bool :=
  phrases.any fun p => Text.occurs p.toList text

/-- A condition, if there is anything to say about it. -/
def met (name : String) (details : List String) : Option Condition :=
  if details.isEmpty then none else some ⟨name, details⟩

/-- Something about security is mentioned. -/
def securitySensitive (plan : Json) : Option Condition :=
  met "security_sensitive"
    ((plan.texts.flatMap fun t =>
      let lowered := Text.lower t.toList
      securityKeywords.filter fun k => Text.occurs k.toList lowered).eraseDups)

/-- Whether a path may hold secrets. -/
def isSensitivePath (path : String) : Bool :=
  let lowered := Text.lower path.toList
  (sensitivePatterns.any fun p => globMatches p.toList lowered) ||
    Text.occurs "/secrets/".toList ('/' :: lowered)

/-- Whether a text could be a path at all. -/
def looksLikePath (text : String) : Bool :=
  text.toList.any fun c => c = '/' || c = '\\' || c = '.'

/-- A file that may hold secrets is mentioned. -/
def sensitiveFiles (plan : Json) : Option Condition :=
  met "sensitive_file_pattern"
    ((plan.texts.filter fun t => looksLikePath t && isSensitivePath t).eraseDups)

/-- The score is low. -/
def lowScore (thresholds : Thresholds) (score : Float) : Option Condition :=
  if score < thresholds.lowScore then
    some ⟨"low_score", [Decimal.fixed 2 score ++ " < " ++ Decimal.fixed 2 thresholds.lowScore]⟩
  else none

/-- The session takes long. -/
def manyIterations (thresholds : Thresholds) (iteration : Int) : Option Condition :=
  if thresholds.iterationSoftLimit ≤ iteration then
    some ⟨"iteration_soft_limit",
      [toString iteration ++ " >= " ++ toString thresholds.iterationSoftLimit]⟩
  else none

/-- The beginnings of the texts that satisfy `p`, each once. -/
def snippets (plan : Json) (p : List Char → Bool) : List String :=
  ((plan.texts.filter fun t => p (Text.lower t.toList)).map (Text.takeChars 60)).eraseDups

/-- A public interface is changed. -/
def breakingChanges (plan : Json) : Option Condition :=
  met "breaking_api_changes"
    (snippets plan fun t => mentions changeWords t && mentions interfacePhrases t)

/-- Data is deleted. -/
def dataDeletion (plan : Json) : Option Condition :=
  met "data_deletion" (snippets plan (mentions deletionPhrases))

/-- All conditions that a plan meets, in order. -/
def conditions (thresholds : Thresholds) (plan : Json) (score : Float) (iteration : Int) :
    List Condition :=
  (securitySensitive plan).toList ++
  (sensitiveFiles plan).toList ++
  (lowScore thresholds score).toList ++
  (manyIterations thresholds iteration).toList ++
  (breakingChanges plan).toList ++
  (dataDeletion plan).toList

/-! ## Before finishing -/

/-- Why a stored score is no number. -/
inductive BadScore where
  /-- The review has no record of an assessment, but a value of another type. -/
  | noRecord (typeName : String)
  /-- The score is of a type that is never a number. -/
  | wrongKind (typeName : String)
  /-- The score is an integer too large for a double. -/
  | tooLarge
  /-- The score is a text that is not a numeral. -/
  | badText (text : String)
  deriving Repr, DecidableEq

/-- A stored value as a score. -/
def scoreOfJson : Json → Except BadScore Float
  | .float x => .ok x
  | .int n => if Decimal.fitsFloat n then .ok (Float.ofInt n) else .error .tooLarge
  | .bool b => .ok (if b then 1.0 else 0.0)
  | .str s =>
    match Decimal.readFloat? Text.digitValue? s.toList with
    | some x => .ok x
    | none => .error (.badText s)
  | j => .error (.wrongKind j.typeName)

/-- The score of a stored review; zero where nothing is stored. -/
def storedScore (review : Json.Fields) : Except BadScore Float :=
  match review.lookup "llm_review" with
  | none => .ok 0.0
  | some (.obj assessment) =>
    match assessment.lookup "score" with
    | none => .ok 0.0
    | some j => scoreOfJson j
  | some j => .error (.noRecord j.typeName)

/-- The score of the last stored review. -/
def lastScore (s : SessionState) : Except BadScore Float :=
  match s.reviews.getLast? with
  | none => .ok 0.0
  | some review => storedScore review

/-- The conditions that no human has approved yet. -/
def outstanding (thresholds : Thresholds) (plan : Json) (s : SessionState) :
    Except BadScore (List Condition) :=
  (lastScore s).map fun score =>
    (conditions thresholds plan score s.iteration).filter fun c =>
      !s.approvedCategories.contains c.name

end PlanReview.Guardrail
