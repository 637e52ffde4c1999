import PlanReview.Json.Value
import PlanReview.Text.Quoted
import PlanReview.Decimal.Notation

/-!
# Values inside messages

A value that a message quotes is written as a literal : strings in quotes, truth values and null
as words with a capital, and doubles as in running text.
-/

namespace PlanReview.Json

mutual
/-- The literal of a value. -/
def literal : Json → String
  | null => "None"
  | bool b => if b then "True" else "False"
  | int n => toString n
  | float x => Decimal.plainNotation.write x
  | str s => Text.quoted s
  | arr items => "[" ++ literalItems items ++ "]"
  | obj fields => "\x7b" ++ literalFields fields ++ "\x7d"

/-- The literals of some items, with commas. -/
def literalItems : List Json → String
  | [] => ""
  | [x] => literal x
  | x :: xs => literal x ++ ", " ++ literalItems xs

/-- The literals of some fields, with commas. -/
def literalFields : List (String × Json) → String
  | [] => ""
  | [(k, v)] => Text.quoted k ++ ": " ++ literal v
  | (k, v) :: fs => Text.quoted k ++ ": " ++ literal v ++ ", " ++ literalFields fs
end

/-- A value in running text : a string as it is, any other value as its literal. -/
def display : Json → String
  | str s => s
  | j => literal j

end PlanReview.Json
