import PlanReview.Json.Reader
import PlanReview.Text.Lines

/-!
# Replies of a model

A model is asked for one JSON object and often wraps it in prose or a code fence, or leaves a
comma before a closing bracket. `readObject` first reads the reply strictly. If that does not
give an object it unwraps the first fence, takes the first balanced block of braces, drops such
commas, and reads once more.
-/

namespace PlanReview.Reply

/-- Why no object can be recovered from a reply. -/
inductive Fault where
  | noObject
  | unbalanced
  | syntaxError (e : Json.SyntaxError)
  deriving Repr, DecidableEq

/-- The wording of a fault. -/
def Fault.message : Fault → String
  | noObject => "No JSON object found"
  | unbalanced => "Unbalanced JSON braces"
  | syntaxError e => "Failed to parse JSON object: " ++ e.message

/-! ## Fences -/

/-- The mark that opens and closes a fenced block. -/
def fence : List Char := ['\u0060', '\u0060', '\u0060']

/-- The text up to the next fence, if there is one. -/
def beforeFence? : List Char → Option (List Char)
  | [] => none
  | c :: cs =>
    if fence.isPrefixOf (c :: cs) then some []
    else (beforeFence? cs).map (c :: ·)

/-- The text after the name of the language `json`, letter case aside, if it is named; the long s
counts as an s. -/
def afterLanguage (s : List Char) : List Char :=
  match s with
  | j :: ss :: o :: n :: rest =>
    if (j = 'j' || j = 'J') && (ss = 's' || ss = 'S' || ss = 'ſ') && (o = 'o' || o = 'O') &&
        (n = 'n' || n = 'N') then rest
    else s
  | _ => s

/-- The content of the first fenced block. -/
def fenced? : List Char → Option (List Char)
  | [] => none
  | c :: cs =>
    if fence.isPrefixOf (c :: cs) then
      beforeFence? ((afterLanguage (cs.drop 2)).dropWhile Text.isBlank)
    else fenced? cs

/-- The content of the first fenced block, or the whole text without one; blanks at the ends
aside. -/
def unwrap (text : List Char) : List Char :=
  Text.stripWhile Text.isBlank ((fenced? text).getD text)

/-! ## Blocks -/

/-- The characters of a block up to the brace that closes it. `depth` braces are open, and one
more to close the block; `inString` and `escaped` say where the reader is inside a string. -/
def closeBlock? (depth : Nat) (inString escaped : Bool) : List Char → Option (List Char)
  | [] => none
  | c :: cs =>
    if inString then
      (if escaped then closeBlock? depth true false cs
       else if c = '\\' then closeBlock? depth true true cs
       else closeBlock? depth (c != '"') false cs).map (c :: ·)
    else if c = '"' then (closeBlock? depth true false cs).map (c :: ·)
    else if c = '{' then (closeBlock? (depth + 1) false false cs).map (c :: ·)
    else if c = '}' then
      match depth with
      | 0 => some [c]
      | d + 1 => (closeBlock? d false false cs).map (c :: ·)
    else (closeBlock? depth false false cs).map (c :: ·)

/-- The first balanced block of braces; braces inside strings do not count. -/
def firstBlock (text : List Char) : Except Fault (List Char) :=
  match text.dropWhile (· != '{') with
  | [] => .error .noObject
  | c :: cs =>
    match closeBlock? 0 false false cs with
    | some block => .ok (c :: block)
    | none => .error .unbalanced

/-- Whether a text goes on with a closing bracket or brace, blanks aside. -/
def closesNext (s : List Char) : Bool :=
  match s.dropWhile Text.isBlank with
  | ']' :: _ | '}' :: _ => true
  | _ => false

/-- Drop every comma before a closing bracket, together with the blanks between them; `dropping`
says that the blanks at the head follow such a comma. -/
def dropCommas (dropping : Bool) : List Char → List Char
  | [] => []
  | c :: cs =>
    if dropping && Text.isBlank c then dropCommas true cs
    else if c = ',' && closesNext cs then dropCommas true cs
    else c :: dropCommas false cs

/-! ## Reading -/

/-- Recover an object from a reply by force. -/
def salvage (text : List Char) : Except Fault Json :=
  match firstBlock (unwrap text) with
  | .error f => .error f
  | .ok block =>
    (Json.parse (String.ofList (dropCommas false block))).mapError .syntaxError

/-- Read the object in a reply. -/
def readObject (text : String) : Except Fault Json :=
  match Json.parse text with
  | .ok (.obj fields) => .ok (.obj fields)
  | _ => salvage text.toList

end PlanReview.Reply
