import PlanReview.Text.CharClass
import PlanReview.Text.UnprintableRanges

/-!
# Quoted text

A text between quotes, on one line and with every character visible : single quotes, unless
the text has single quotes and no double ones. A backslash and the quote in use are escaped,
line feed, carriage return and tab have letters, and what has no printed form shows its code
point in two, four or eight hexadecimal digits.
-/

namespace PlanReview.Text

/-- Lower-case hexadecimal digits of `n`, at least `width` of them. -/
def hexDigits (width n : Nat) : List Char :=
  let digits := Nat.toDigits 16 n
  List.replicate (width - digits.length) '0' ++ digits

/-- Whether a character has a printed form. -/
def isPrintable (c : Char) : Bool :=
  if c.toNat < 128 then 0x20 ≤ c.toNat && c.toNat < 0x7F
  else !inRanges unprintableRanges c.toNat

/-- The form of a character inside quotes `quote`. -/
def quoteChar (quote c : Char) : List Char :=
  if c = quote || c = '\\' then ['\\', c]
  else if c = '\n' then ['\\', 'n']
  else if c = '\r' then ['\\', 'r']
  else if c = '\t' then ['\\', 't']
  else if isPrintable c then [c]
  else if c.toNat < 0x100 then '\\' :: 'x' :: hexDigits 2 c.toNat
  else if c.toNat < 0x10000 then '\\' :: 'u' :: hexDigits 4 c.toNat
  else '\\' :: 'U' :: hexDigits 8 c.toNat

/-- The quote that a text is put between. -/
def quoteFor (text : List Char) : Char :=
  if text.contains '\'' && !text.contains '"' then '"' else '\''

/-- The text between quotes. -/
def quoted (text : String) : String :=
  let quote := quoteFor text.toList
  String.ofList (quote :: (text.toList.flatMap (quoteChar quote) ++ [quote]))

end PlanReview.Text
