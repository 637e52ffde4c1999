import PlanReview.Schema.Checked
import PlanReview.Json.Value
import PlanReview.Decimal.Numeral

/-!
# Reading documents

A `Decoder` reads a JSON value as a value of some type. Scalars are taken leniently : an integer
may be written as a whole double, a truth value or a numeral in a string, and so on, but a string
is never made from anything else. Records pass over keys they do not know and give a missing
optional field its default.
-/

namespace PlanReview.Schema

/-- How to read a JSON value. -/
abbrev Decoder (α : Type) := Json → Checked α

variable {α : Type}

/-! ## Scalars -/

/-- A string. -/
def string : Decoder String
  | .str s => .ok s
  | _ => .fault .string

/-- Whitespace at the ends of a numeral : that of Unicode's property, which leaves out the four
information separators. -/
def isMargin (c : Char) : Bool :=
  Text.isBlank c && !(0x1C ≤ c.toNat && c.toNat ≤ 0x1F)

/-- An integer written in a string : after the digits a point and zeros may follow. -/
def intOfText? (text : List Char) : Option Int :=
  let (negative, cs) := Decimal.readSign (Text.stripWhile isMargin text)
  let (ds, rest) := Decimal.numeral Decimal.asciiDigit? cs
  let fractionOk :=
    match rest with
    | [] => true
    | ['.'] => false
    | '.' :: zeros => zeros.all (· == '0')
    | _ => false
  if ds.isEmpty || !fractionOk then none
  else
    let n : Nat := Decimal.natOfDigits ds
    some (if negative then -n else n)

/-- Whether an integer fits a signed word of sixty-four bits. -/
def isWord (n : Int) : Bool :=
  -9223372036854775808 ≤ n && n ≤ 9223372036854775807

/-- An integer. -/
def int : Decoder Int
  | .int n => .ok n
  | .bool b => .ok (if b then 1 else 0)
  | .float x =>
    match Decimal.Reading.ofFloat x with
    | .finite b =>
      if !b.isWhole then .fault .intFraction
      else if isWord b.truncate then .ok b.truncate
      else .fault .intSize
    | _ => .fault .intFinite
  | .str s =>
    match intOfText? s.toList with
    | some n => .ok n
    | none => .fault .intText
  | _ => .fault .int

/-- The words for truth values. -/
def truthWords : List (String × Bool) := [
  ("0", false), ("off", false), ("f", false), ("false", false), ("n", false), ("no", false),
  ("1", true), ("on", true), ("t", true), ("true", true), ("y", true), ("yes", true)]

/-- A truth value. -/
def bool : Decoder Bool
  | .bool b => .ok b
  | .int n => if n = 0 then .ok false else if n = 1 then .ok true else .fault .boolText
  | .float x =>
    match int (.float x) with
    | .ok 0 => .ok false
    | .ok 1 => .ok true
    | .ok _ => .fault .boolText
    | .bad _ => .fault .bool
  | .str s =>
    match truthWords.lookup (String.ofList (s.toList.map Char.toLower)) with
    | some b => .ok b
    | none => .fault .boolText
  | _ => .fault .bool

/-- A double. -/
def float : Decoder Float
  | .float x => .ok x
  | .int n => if Decimal.fitsFloat n then .ok (Float.ofInt n) else .fault .float
  | .bool b => .ok (if b then 1.0 else 0.0)
  | .str s =>
    match Decimal.readFloat? Decimal.asciiDigit? s.toList with
    | some x => .ok x
    | none => .fault .floatText
  | _ => .fault .float

/-- A double from zero to one. -/
def unitInterval : Decoder Float := fun j =>
  match float j with
  | .bad e => .bad e
  | .ok x =>
    if !(x ≤ 1.0) then .fault (.atMost 1)
    else if !(0.0 ≤ x) then .fault (.atLeast 0)
    else .ok x

/-- One of a few words, each standing for a value. -/
def choice (words : List (String × α)) : Decoder α
  | .str s =>
    match words.lookup s with
    | some a => .ok a
    | none => .fault (.choice (words.map Prod.fst))
  | _ => .fault (.choice (words.map Prod.fst))

/-- One member of a closed list of names. -/
def member (words : List (String × α)) : Decoder α
  | .str s =>
    match words.lookup s with
    | some a => .ok a
    | none => .fault (.member (words.map Prod.fst))
  | _ => .fault (.member (words.map Prod.fst))

/-! ## Compound values -/

/-- Any value at all. -/
def any : Decoder Json := .ok

/-- Null, or what `d` reads. -/
def nullable (d : Decoder α) : Decoder (Option α)
  | .null => .ok none
  | j => (d j).map some

/-- The items of an array, the first of them at index `i`. -/
def itemsFrom (d : Decoder α) : Nat → List Json → Checked (List α)
  | _, [] => .ok []
  | i, j :: js => .ap (.map List.cons ((d j).under (.index i))) (itemsFrom d (i + 1) js)

/-- An array. -/
def list (d : Decoder α) : Decoder (List α)
  | .arr items => itemsFrom d 0 items
  | _ => .fault .list

/-- An object whose fields are kept as they are. -/
def dict : Decoder Json.Fields
  | .obj fields => .ok fields
  | _ => .fault .dict

/-- An object with known fields. -/
def record (name : String) (read : Json.Fields → Checked α) : Decoder α
  | .obj fields => read fields
  | _ => .fault (.record name)

/-- A field that has to be there. -/
def required (fields : Json.Fields) (name : String) (d : Decoder α) : Checked α :=
  match fields.lookup name with
  | some j => (d j).under (.field name)
  | none => .under (.field name) (.fault .missing)

/-- A field with a default. -/
def optional (fields : Json.Fields) (name : String) (default : α) (d : Decoder α) : Checked α :=
  match fields.lookup name with
  | some j => (d j).under (.field name)
  | none => .ok default

end PlanReview.Schema
