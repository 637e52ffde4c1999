import PlanReview.Text.CharClass

/-!
# Trimming and splitting into lines

`strip` removes whitespace at both ends. `lines` splits at every line boundary Unicode knows,
a carriage return followed by a line feed counting as one, and a boundary at the end opens no
further line. `normalizeNewlines` is what reading a text file does.
-/

namespace PlanReview.Text

/-- Drop the characters of the class `p` from the end. -/
def dropEndWhile (p : Char → Bool) (text : List Char) : List Char :=
  (text.reverse.dropWhile p).reverse

/-- Drop the characters of the class `p` from both ends. -/
def stripWhile (p : Char → Bool) (text : List Char) : List Char :=
  dropEndWhile p (text.dropWhile p)

/-- The text without whitespace at its ends. -/
def strip (text : String) : String :=
  String.ofList (stripWhile isBlank text.toList)

/-- Whether the text has a character other than whitespace. -/
def hasInk (text : String) : Bool :=
  text.toList.any fun c => !isBlank c

/-- The characters that end a line. -/
def isLineEnd (c : Char) : Bool :=
  inRanges [(0x0A, 0x0D), (0x1C, 0x1E), (0x85, 0x85), (0x2028, 0x2029)] c.toNat

/-- The lines of a text, without their ends. -/
def splitLines : List Char → List (List Char)
  | [] => []
  | '\r' :: '\n' :: cs => [] :: splitLines cs
  | c :: cs =>
    if isLineEnd c then [] :: splitLines cs
    else
      match splitLines cs with
      | [] => [[c]]
      | line :: rest => (c :: line) :: rest

/-- The first line of a text, empty when there is none. -/
def firstLine (text : String) : String :=
  String.ofList ((splitLines text.toList).headD [])

/-- Every line end `\r\n` or `\r` becomes `\n`. -/
def normalizeNewlines : List Char → List Char
  | [] => []
  | '\r' :: '\n' :: cs => '\n' :: normalizeNewlines cs
  | c :: cs => (if c = '\r' then '\n' else c) :: normalizeNewlines cs

end PlanReview.Text
