import PlanReview.Json.Value
import PlanReview.Text.Quoted
import PlanReview.Decimal.Notation

/-!
# Writing JSON

A `Layout` fixes the blanks between tokens, the indentation, whether characters beyond ASCII
are escaped, and how doubles are written. The four layouts at the end are the ones in use.
-/

namespace PlanReview.Json

open Decimal (FloatNotation)

/-- How JSON is laid out. With an indentation every item and field has a line of its own. -/
structure Layout where
  itemGap : String := " "
  keyGap : String := " "
  indent : Option Nat := none
  asciiOnly : Bool := false
  floats : FloatNotation

/-- `\u` and the four digits of a UTF-16 unit. -/
def unitEscape (n : Nat) : List Char :=
  '\\' :: 'u' :: Text.hexDigits 4 n

/-- The form of a character inside a JSON string. -/
def escapeChar (asciiOnly : Bool) (c : Char) : List Char :=
  if c = '"' then ['\\', '"']
  else if c = '\\' then ['\\', '\\']
  else if c = '\n' then ['\\', 'n']
  else if c = '\r' then ['\\', 'r']
  else if c = '\t' then ['\\', 't']
  else if c = '\x08' then ['\\', 'b']
  else if c = '\x0c' then ['\\', 'f']
  else if c.toNat < 0x20 then unitEscape c.toNat
  else if asciiOnly && 0x7F ≤ c.toNat then
    if c.toNat < 0x10000 then unitEscape c.toNat
    else
      let n := c.toNat - 0x10000
      unitEscape (0xD800 + n / 0x400) ++ unitEscape (0xDC00 + n % 0x400)
  else [c]

/-- A string between double quotes. -/
def stringText (asciiOnly : Bool) (s : String) : List Char :=
  '"' :: (s.toList.flatMap (escapeChar asciiOnly) ++ ['"'])

/-- What stands before an item at nesting `depth`. -/
def Layout.lineStart (l : Layout) (depth : Nat) : List Char :=
  match l.indent with
  | none => []
  | some n => '\n' :: List.replicate (n * depth) ' '

/-- What stands between two items at nesting `depth`. -/
def Layout.itemBreak (l : Layout) (depth : Nat) : List Char :=
  match l.indent with
  | none => ',' :: l.itemGap.toList
  | some _ => ',' :: l.lineStart depth

mutual
/-- The text of a value that stands at nesting `depth`. -/
def render (l : Layout) (depth : Nat) : Json → List Char
  | null => "null".toList
  | bool b => (if b then "true" else "false").toList
  | int n => (toString n).toList
  | float x => (l.floats.write x).toList
  | str s => stringText l.asciiOnly s
  | arr [] => "[]".toList
  | arr (x :: xs) =>
    '[' :: (l.lineStart (depth + 1) ++ render l (depth + 1) x ++
      renderItems l (depth + 1) xs ++ l.lineStart depth ++ [']'])
  | obj [] => "{}".toList
  | obj ((k, v) :: fs) =>
    '{' :: (l.lineStart (depth + 1) ++ stringText l.asciiOnly k ++ (':' :: l.keyGap.toList) ++
      render l (depth + 1) v ++ renderFields l (depth + 1) fs ++ l.lineStart depth ++ ['}'])

/-- The items after the first. -/
def renderItems (l : Layout) (depth : Nat) : List Json → List Char
  | [] => []
  | x :: xs => l.itemBreak depth ++ render l depth x ++ renderItems l depth xs

/-- The fields after the first. -/
def renderFields (l : Layout) (depth : Nat) : List (String × Json) → List Char
  | [] => []
  | (k, v) :: fs =>
    l.itemBreak depth ++ stringText l.asciiOnly k ++ (':' :: l.keyGap.toList) ++
      render l depth v ++ renderFields l depth fs
end

/-- The text of a value. -/
def write (l : Layout) (j : Json) : String :=
  String.ofList (render l 0 j)

/-- Doubles in JSON : positional below `10 ^ 16`, and the three values that are no numbers
under their own names. -/
def wordedFloats : FloatNotation where
  low := -4
  high := 16
  plus := "+"
  exponentWidth := 2
  nan := "NaN"
  infinity := "Infinity"
  negativeInfinity := "-Infinity"

/-- Doubles in stored sessions : no padding in an exponent, and null for what is no number. -/
def storedFloats : FloatNotation where
  low := -5
  high := 16
  plus := "+"
  exponentWidth := 1
  nan := "null"
  infinity := "null"
  negativeInfinity := "null"

/-- No blanks at all. -/
def compact : Layout where
  itemGap := ""
  keyGap := ""
  floats := wordedFloats

/-- On one line, a blank after commas and colons. -/
def oneLine : Layout where
  floats := wordedFloats

/-- Two blanks of indentation per level. -/
def indented : Layout where
  indent := some 2
  floats := wordedFloats

/-- The layout of stored sessions. -/
def stored : Layout where
  indent := some 2
  floats := storedFloats

end PlanReview.Json
