import PlanReview.Decimal.Numeral
import PlanReview.Text.Search

/-!
# YAML values

What a YAML document stands for. A scalar without quotes is read by its spelling : `resolve`
knows the words for null and truth values, integers in four bases and in sixties, doubles and
dates; everything else is a text. Keys of a mapping are values themselves, and two keys that are
equal as values are one key, with the last value given for it.
-/

namespace PlanReview

/-- A YAML value. -/
inductive Yaml where
  | null
  | bool (value : Bool)
  | int (value : Int)
  | float (value : Float)
  | text (value : String)
  /-- A date or a time, as it was written. -/
  | moment (text : String)
  /-- The key that merges a mapping, or the one that stands for the default value. -/
  | special (text : String)
  | seq (items : List Yaml)
  | map (entries : List (Yaml × Yaml))
  deriving Inhabited

namespace Yaml

/-! ## Spellings -/

/-- The spellings of truth values. -/
def truthWords : List (String × Bool) := [
  ("yes", true), ("Yes", true), ("YES", true), ("no", false), ("No", false), ("NO", false),
  ("true", true), ("True", true), ("TRUE", true), ("false", false), ("False", false),
  ("FALSE", false), ("on", true), ("On", true), ("ON", true), ("off", false), ("Off", false),
  ("OFF", false)]

/-- The spellings of null. -/
def nullWords : List String := ["", "~", "null", "Null", "NULL"]

/-- A text without underscores. -/
def withoutGaps (s : List Char) : List Char :=
  s.filter (· != '_')

/-- The value of digits in a base; letters count on from ten. -/
def digitIn (c : Char) : Nat :=
  if c.isDigit then c.toNat - '0'.toNat else c.toLower.toNat - 'a'.toNat + 10

/-- The number that digits with gaps stand for in a base. -/
def numberIn (base : Nat) (s : List Char) : Nat :=
  (withoutGaps s).foldl (fun n c => n * base + digitIn c) 0

/-- Whether a text has characters, all of them digits of a kind or gaps. -/
def areDigits (p : Char → Bool) (s : List Char) : Bool :=
  !s.isEmpty && s.all fun c => p c || c == '_'

/-- Whether a character is a digit of base eight. -/
def isOctal (c : Char) : Bool := '0' ≤ c && c ≤ '7'

/-- Whether a character is a digit of base sixteen. -/
def isHex (c : Char) : Bool :=
  c.isDigit || ('a' ≤ c && c ≤ 'f') || ('A' ≤ c && c ≤ 'F')

/-- Whether a text is a digit of base sixty, written with one or two decimal digits. -/
def isSixtieth : List Char → Bool
  | [a] => a.isDigit
  | [a, b] => '0' ≤ a && a ≤ '5' && b.isDigit
  | _ => false

/-- The number written with colons between its digits in base sixty. -/
def sixties? (s : List Char) : Option Nat :=
  match Text.splitAt ':' s with
  | first :: rest =>
    if first.head? != some '0' && areDigits Char.isDigit first && first.head? != some '_' &&
        !rest.isEmpty && rest.all isSixtieth then
      some (rest.foldl (fun n d => n * 60 + numberIn 10 d) (numberIn 10 first))
    else none
  | [] => none

/-- The number that a text without sign stands for. -/
def natural? (s : List Char) : Option Nat :=
  match s with
  | '0' :: 'b' :: rest => if areDigits (fun c => c == '0' || c == '1') rest then
      some (numberIn 2 rest) else none
  | '0' :: 'x' :: rest => if areDigits isHex rest then some (numberIn 16 rest) else none
  | ['0'] => some 0
  | '0' :: rest => if areDigits isOctal rest then some (numberIn 8 rest) else none
  | c :: rest =>
    if c.isDigit && rest.all (fun d => d.isDigit || d == '_') then some (numberIn 10 s)
    else sixties? s
  | [] => none

/-- The exponent part of a double : a letter, a sign and digits. -/
def isExponent : List Char → Bool
  | [] => true
  | e :: sign :: ds =>
    (e == 'e' || e == 'E') && (sign == '+' || sign == '-') && !ds.isEmpty && ds.all Char.isDigit
  | _ => false

/-- Whether a text without sign is spelled as a double; without digits before the point there has
to be one after it. -/
def isDecimal (s : List Char) : Bool :=
  let whole := s.takeWhile fun c => c.isDigit || c == '_'
  match s.dropWhile fun c => c.isDigit || c == '_' with
  | '.' :: rest =>
    let places := rest.takeWhile fun c => c.isDigit || c == '_'
    isExponent (rest.dropWhile fun c => c.isDigit || c == '_') &&
      (if whole.isEmpty then (places.head?.map Char.isDigit).getD false
       else (whole.head?.map Char.isDigit).getD false)
  | _ => false

/-- The double that a text without sign stands for in base sixty, with a point in the last
digit. -/
def sixtiesWithPoint? (s : List Char) : Option Float :=
  let whole := s.takeWhile (· != '.')
  match s.dropWhile (· != '.') with
  | '.' :: places =>
    match (Text.splitAt ':' whole).reverse with
    | last :: before =>
      if before.isEmpty || !isSixtieth last || !places.all (fun c => c.isDigit || c == '_') ||
          !(before.dropLast.all isSixtieth) || !areDigits Char.isDigit (before.getLast?.getD []) ||
          (before.getLast?.getD []).head? == some '_' then none
      else
        let high := before.reverse.foldl (fun n d => n * 60 + numberIn 10 d) 0
        let low := Decimal.readFloat? Decimal.asciiDigit? (withoutGaps (last ++ '.' :: places))
        low.map fun x => x + Float.ofNat (high * 60)
    | [] => none
  | _ => none

/-- The double that a text without sign stands for. -/
def unsignedFloat? (s : List Char) : Option Float :=
  if isDecimal s then Decimal.readFloat? Decimal.asciiDigit? (withoutGaps s)
  else if [".inf", ".Inf", ".INF"].any (·.toList == s) then some (1.0 / 0.0)
  else sixtiesWithPoint? s

/-- Whether a sign may stand before the spelling of a double. -/
def takesSign (s : List Char) : Bool :=
  !(isDecimal s && s.head? == some '.')

/-- The double that a text stands for. -/
def float? (s : List Char) : Option Float :=
  match s with
  | '-' :: rest => if takesSign rest then (unsignedFloat? rest).map fun x => -x else none
  | '+' :: rest => if takesSign rest then unsignedFloat? rest else none
  | _ =>
    if [".nan", ".NaN", ".NAN"].any (·.toList == s) then some (0.0 / 0.0) else unsignedFloat? s

/-- The integer that a text stands for. -/
def int? (s : List Char) : Option Int :=
  match s with
  | '-' :: rest => (natural? rest).map fun n => -(n : Int)
  | '+' :: rest => (natural? rest).map Int.ofNat
  | _ => (natural? s).map Int.ofNat

/-- What is left of a text after `low` to `high` digits. -/
def afterDigits? (low high : Nat) (s : List Char) : Option (List Char) :=
  let n := ((s.take high).takeWhile Char.isDigit).length
  if low ≤ n then some (s.drop n) else none

/-- What is left of a text after a character. -/
def afterChar? (c : Char) : List Char → Option (List Char)
  | d :: rest => if c = d then some rest else none
  | [] => none

/-- Whether a text is a zone at the end of a time. -/
def isZone (s : List Char) : Bool :=
  match s.dropWhile fun c => c == ' ' || c == '\t' with
  | ['Z'] => true
  | sign :: rest =>
    (sign == '+' || sign == '-') &&
      match afterDigits? 1 2 rest with
      | some [] => true
      | some (':' :: minutes) => afterDigits? 2 2 minutes == some []
      | _ => false
  | [] => s.isEmpty

/-- Whether a text is a time of day after a date, perhaps with a zone. -/
def isClock (s : List Char) : Bool :=
  let time := match s with
    | 'T' :: rest | 't' :: rest => some rest
    | ' ' :: rest | '\t' :: rest => some (rest.dropWhile fun c => c == ' ' || c == '\t')
    | _ => none
  let seconds := ((((time.bind (afterDigits? 1 2)).bind (afterChar? ':')).bind
    (afterDigits? 2 2)).bind (afterChar? ':')).bind (afterDigits? 2 2)
  match seconds with
  | some ('.' :: rest) => isZone (rest.dropWhile Char.isDigit)
  | some rest => isZone rest
  | none => false

/-- Whether a text is a date, or a date with a time. -/
def isMoment (s : List Char) : Bool :=
  let afterYear := (afterDigits? 4 4 s).bind (afterChar? '-')
  let day := ((afterYear.bind (afterDigits? 2 2)).bind (afterChar? '-')).bind (afterDigits? 2 2)
  let looseDay := ((afterYear.bind (afterDigits? 1 2)).bind (afterChar? '-')).bind
    (afterDigits? 1 2)
  day == some [] || (looseDay.map isClock).getD false

/-- What a scalar without quotes stands for. -/
def resolve (s : String) : Yaml :=
  match truthWords.lookup s, float? s.toList, int? s.toList with
  | some b, _, _ => bool b
  | none, some x, _ => float x
  | none, none, some n => int n
  | none, none, none =>
    if s = "<<" || s = "=" then special s
    else if nullWords.contains s then null
    else if isMoment s.toList then moment s
    else text s

/-! ## Mappings -/

/-- The number that a key counts as; truth values are zero and one. -/
def keyNumber? : Yaml → Option (Int ⊕ Float)
  | bool b => some (.inl (if b then 1 else 0))
  | int n => some (.inl n)
  | float x => some (.inr x)
  | _ => none

/-- Whether two keys are one key. -/
def sameKey (a b : Yaml) : Bool :=
  match a, b with
  | null, null => true
  | text s, text t => s == t
  | moment s, moment t => s == t
  | _, _ =>
    match keyNumber? a, keyNumber? b with
    | some (.inl n), some (.inl m) => n == m
    | some (.inl n), some (.inr x) => Float.ofInt n == x
    | some (.inr x), some (.inl n) => x == Float.ofInt n
    | some (.inr x), some (.inr y) => x == y
    | _, _ => false

/-- The entries with the value of a key set. -/
def setEntry (entries : List (Yaml × Yaml)) (key value : Yaml) : List (Yaml × Yaml) :=
  match entries with
  | [] => [(key, value)]
  | (k, v) :: rest => if sameKey k key then (k, value) :: rest else (k, v) :: setEntry rest key value

/-- The entries of some mappings, those of the first one last. -/
def entriesOf? : List Yaml → Option (List (Yaml × Yaml))
  | [] => some []
  | map entries :: rest => (entriesOf? rest).map (· ++ entries)
  | _ :: _ => none

/-- The entries that a merge key brings in; only mappings can be merged. -/
def merged? : Yaml → Option (List (Yaml × Yaml))
  | map entries => some entries
  | seq items => entriesOf? items
  | _ => none

/-- The entries that written pairs bring in through merge keys. -/
def mergedPairs? : List (Yaml × Yaml) → Option (List (Yaml × Yaml))
  | [] => some []
  | (special "<<", value) :: rest => do return (← merged? value) ++ (← mergedPairs? rest)
  | _ :: rest => mergedPairs? rest

/-- A pair that is an entry of its own; a key cannot be a collection, and a merge key cannot be a
value. -/
def ownPair? : Yaml × Yaml → Option (Option (Yaml × Yaml))
  | (special "<<", _) => some none
  | (_, special _) => none
  | (special s, value) => some (some (text s, value))
  | (seq _, _) | (map _, _) => none
  | (key, value) => some (some (key, value))

/-- The mapping that written pairs stand for : what is merged in comes first, and of equal keys
the last value counts. -/
def ofPairs? (pairs : List (Yaml × Yaml)) : Option Yaml := do
  let brought ← mergedPairs? pairs
  let own ← pairs.mapM ownPair?
  return map ((brought ++ own.filterMap id).foldl (fun es e => setEntry es e.1 e.2) [])

/-- The sequence of some items. -/
def ofItems? (items : List Yaml) : Option Yaml :=
  if items.any fun y => y matches special _ then none else some (seq items)

end Yaml

end PlanReview
