import PlanReview.Text.Search
import PlanReview.Text.Utf8

/-!
# Request targets

The target of a request is a path and a query. Percent signs hide bytes in both, and in a query a
plus sign stands for a blank. Dots that lead nowhere or back are resolved before anything is
decoded, so an encoded dot stays one.
-/

namespace PlanReview.Web

/-- The value of a hexadecimal digit. -/
def hexValue? (c : Char) : Option Nat :=
  if c.isDigit then some (c.toNat - 48)
  else if 'a' ≤ c && c ≤ 'f' then some (c.toNat - 87)
  else if 'A' ≤ c && c ≤ 'F' then some (c.toNat - 55)
  else none

/-- The byte that two hexadecimal digits write. -/
def hexByte? (high low : Char) : Option UInt8 :=
  match hexValue? high, hexValue? low with
  | some h, some l => some (UInt8.ofNat (16 * h + l))
  | _, _ => none

/-- The bytes that a text stands for. -/
def percentBytes : List Char → List UInt8
  | '%' :: high :: low :: rest =>
    match hexByte? high low with
    | some b => b :: percentBytes rest
    | none => (String.utf8EncodeChar '%') ++ percentBytes (high :: low :: rest)
  | c :: rest => String.utf8EncodeChar c ++ percentBytes rest
  | [] => []

/-- A text with its hidden bytes read. -/
def percentDecode (text : List Char) : List Char :=
  Text.Utf8.lossy 0 (percentBytes text)

/-- One part of a path after others : a dot leads nowhere, and two lead back. -/
def stepInto (parts : List (List Char)) (part : List Char) : List (List Char) :=
  if part = ['.'] then parts
  else if part = ['.', '.'] then
    if parts = [[]] then parts else parts.dropLast
  else parts ++ [part]

/-- A path without dots that lead nowhere or back. -/
def withoutDots (path : List Char) : List Char :=
  ['/'].intercalate ((Text.splitAt '/' path).foldl stepInto [])

/-- A name and a value in a query. -/
def pairOf (text : List Char) : List Char × List Char :=
  (text.takeWhile (· != '='), (text.dropWhile (· != '=')).drop 1)

/-- A part of a query, decoded. -/
def queryDecode (text : List Char) : String :=
  String.ofList (percentDecode (text.map fun c => if c = '+' then ' ' else c))

/-- The names and values in a query. -/
def queryPairs (query : List Char) : List (String × String) :=
  ((Text.splitAt '&' query).filter (!·.isEmpty)).map fun text =>
    (queryDecode (pairOf text).1, queryDecode (pairOf text).2)

/-- What is asked of a service. -/
structure Target where
  path : List Char
  query : List (String × String) := []

/-- Read a target. A path is decoded by the one who sends it and by the one who gets it. -/
def Target.ofString (text : String) : Target :=
  let text := text.toList.takeWhile (· != '#')
  let path := '/' :: (text.takeWhile (· != '?')).dropWhile (· == '/')
  { path := percentDecode (percentDecode (withoutDots path))
    query := queryPairs ((text.dropWhile (· != '?')).drop 1) }

/-- The value of a name in the query : the last one given. -/
def Target.value? (t : Target) (name : String) : Option String :=
  t.query.reverse.lookup name

end PlanReview.Web
