import PlanReview.Text.CharClass
import PlanReview.Text.CaseRanges

/-!
# Lower case

The full lower-case mapping of Unicode : each character by itself, except that a capital
dotted I becomes two characters and a capital sigma becomes the final form at the end of a
word.
-/

namespace PlanReview.Text

/-- The lower-case form of a character taken by itself. -/
def lowerChar (c : Char) : Char :=
  if c.toNat < 128 then c.toLower
  else
    match lowerRuns.find? fun r =>
      r.first ≤ c.toNat && c.toNat ≤ r.last && (c.toNat - r.first) % r.step == 0 with
    | some r => Char.ofNat (c.toNat + r.distance).toNat
    | none => c

/-- Whether a character has a case. -/
def isCased (c : Char) : Bool :=
  if c.toNat < 128 then c.isAlpha else inRanges casedRanges c.toNat

/-- Whether the search for the end of a word passes over a character. -/
def isCaseIgnorable (c : Char) : Bool :=
  if c.toNat < 128 then c == '\'' || c == '.' || c == ':' || c == '^' || c == '\u0060'
  else inRanges caseIgnorableRanges c.toNat

/-- Whether the next character that is not passed over has a case. -/
def casedNext (cs : List Char) : Bool :=
  match cs.dropWhile isCaseIgnorable with
  | [] => false
  | c :: _ => isCased c

/-- Lower-case a text; `before` holds the characters already read, the nearest first. -/
def lowerAfter (before : List Char) : List Char → List Char
  | [] => []
  | c :: cs =>
    (if c = 'Σ' then [if casedNext before && !casedNext cs then 'ς' else 'σ']
     else if c = 'İ' then ['i', '\u0307']
     else [lowerChar c]) ++ lowerAfter (c :: before) cs

/-- The lower-case form of a text. -/
def lower (text : List Char) : List Char :=
  lowerAfter [] text

/-- The lower-case form of a string. -/
def lowerString (text : String) : String :=
  String.ofList (lower text.toList)

end PlanReview.Text
