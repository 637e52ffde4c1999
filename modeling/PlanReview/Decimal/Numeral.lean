import PlanReview.Text.Lines
import PlanReview.Decimal.Nearest

/-!
# Reading numbers

A numeral is an optional sign and digits, in which single underscores may separate digits.
`readInt?` takes whole numbers, `readFloat?` decimal fractions with an optional exponent and
the words for infinity and not-a-number. Both pass over whitespace at the ends.
-/

namespace PlanReview.Decimal

/-- The bits of the double nearest to `digits · 10 ^ exponent`. Far outside the range of doubles
the answer is known without computing the power. -/
def decimalBits (digits : Nat) (exponent : Int) : Nat :=
  let size : Int := (toString digits).length + exponent
  if digits = 0 || size < -400 then 0
  else if 400 < size then infinityBits
  else nearestBits (digits * pow10 exponent.toNat) (pow10 (-exponent).toNat)

/-- The double nearest to `± digits · 10 ^ exponent`. -/
def ofDecimal (negative : Bool) (digits : Nat) (exponent : Int) : Float :=
  signed negative (decimalBits digits exponent)

/-- Whether an integer rounds to a finite double. -/
def fitsFloat (n : Int) : Bool :=
  n.natAbs < pow2 1024 - pow2 970

/-- The digits at the head of a text, most significant first, with single underscores between
them, and the rest. -/
def digitRun (value? : Char → Option Nat) : List Char → List Nat × List Char
  | [] => ([], [])
  | '_' :: c :: cs =>
    match value? c with
    | some d =>
      let (ds, rest) := digitRun value? cs
      (d :: ds, rest)
    | none => ([], '_' :: c :: cs)
  | c :: cs =>
    match value? c with
    | some d =>
      let (ds, rest) := digitRun value? cs
      (d :: ds, rest)
    | none => ([], c :: cs)

/-- Digits that start with a digit. -/
def numeral (value? : Char → Option Nat) (text : List Char) : List Nat × List Char :=
  match text with
  | '_' :: _ => ([], text)
  | _ => digitRun value? text

/-- The number that a list of decimal digits writes. -/
def natOfDigits (ds : List Nat) : Nat :=
  ds.foldl (fun n d => 10 * n + d) 0

/-- An optional sign; true for a minus. -/
def readSign : List Char → Bool × List Char
  | '-' :: cs => (true, cs)
  | '+' :: cs => (false, cs)
  | cs => (false, cs)

/-- The value of an ASCII digit. -/
def asciiDigit? (c : Char) : Option Nat :=
  if c.isDigit then some (c.toNat - '0'.toNat) else none

/-- A whole number, its digits read by `value?`. -/
def readInt? (value? : Char → Option Nat) (text : List Char) : Option Int :=
  let (negative, cs) := readSign (Text.stripWhile Text.isBlank text)
  match numeral value? cs with
  | ([], _) => none
  | (ds, []) => some (if negative then -(natOfDigits ds : Int) else natOfDigits ds)
  | _ => none

/-- Whether `text` is the word `word`, letter case aside. -/
def isWordOf (word : String) (text : List Char) : Bool :=
  text.map Char.toLower == word.toList

/-- The exponent part of a decimal fraction; zero when there is none. -/
def readExponent? (value? : Char → Option Nat) : List Char → Option Int
  | [] => some 0
  | c :: cs =>
    if c = 'e' || c = 'E' then
      let (negative, cs) := readSign cs
      match numeral value? cs with
      | ([], _) => none
      | (ds, []) => some (if negative then -(natOfDigits ds : Int) else natOfDigits ds)
      | _ => none
    else none

/-- A decimal fraction, its digits read by `value?`. -/
def readFloat? (value? : Char → Option Nat) (text : List Char) : Option Float :=
  let (negative, cs) := readSign (Text.stripWhile Text.isBlank text)
  if isWordOf "inf" cs || isWordOf "infinity" cs then
    some (if negative then -(1.0 / 0.0) else 1.0 / 0.0)
  else if isWordOf "nan" cs then some (0.0 / 0.0)
  else
    let (whole, rest) := numeral value? cs
    let (fraction, rest) :=
      match rest with
      | '.' :: rest => numeral value? rest
      | rest => ([], rest)
    if whole.isEmpty && fraction.isEmpty then none
    else
      (readExponent? value? rest).map fun e =>
        ofDecimal negative (natOfDigits (whole ++ fraction)) (e - fraction.length)

end PlanReview.Decimal
