import PlanReview.Files.Tree
import PlanReview.Json.Reader
import PlanReview.Text.Utf8

/-!
# Documents in bytes

A document that comes as bytes may be encoded in units of one, two or four bytes. Its first
characters are plain ones, so the encoding shows in a byte order mark, or in where the first four
bytes are zero (`encodingOf`). Half a pair of UTF-16 units is let pass in every encoding, and as in every
text the replacement character stands for it.
-/

namespace PlanReview.Json

/-- How a document is encoded. Units of several bytes may have the high byte first. -/
inductive Encoding where
  | utf8
  | utf16 (highFirst : Bool)
  | utf32 (highFirst : Bool)
  deriving Repr, DecidableEq

/-- The encoding that the first bytes of a document show. -/
def encodingOf (bytes : List UInt8) : Encoding :=
  if [0x00, 0x00, 0xFE, 0xFF].isPrefixOf bytes then .utf32 true
  else if [0xFF, 0xFE, 0x00, 0x00].isPrefixOf bytes then .utf32 false
  else if [0xFE, 0xFF].isPrefixOf bytes then .utf16 true
  else if [0xFF, 0xFE].isPrefixOf bytes then .utf16 false
  else
    match bytes with
    | [a, b] => if a = 0 then .utf16 true else if b = 0 then .utf16 false else .utf8
    | a :: b :: c :: d :: _ =>
      if a = 0 then (if b = 0 then .utf32 true else .utf16 true)
      else if b = 0 then (if c = 0 && d = 0 then .utf32 false else .utf16 false)
      else .utf8
    | _ => .utf8

/-! ## Units of one byte -/

/-- Whether a lead byte and the bytes after it encode half a pair of UTF-16 units. -/
def isHalfPair (b : UInt8) : List UInt8 → Bool
  | c :: d :: _ => b = 0xED && 0xA0 ≤ c && c ≤ 0xBF && 0x80 ≤ d && d ≤ 0xBF
  | _ => false

/-- The text of some bytes, passing over the next `skip` of them. -/
def decodeUtf8? : Nat → List UInt8 → Option (List Char)
  | _, [] => some []
  | skip + 1, _ :: bs => decodeUtf8? skip bs
  | 0, b :: bs =>
    match Text.Utf8.headChar b bs with
    | .ok n => (decodeUtf8? n bs).map (Text.Utf8.charOf n b bs :: ·)
    | .error _ => if isHalfPair b bs then (decodeUtf8? 2 bs).map ('\uFFFD' :: ·) else none

/-! ## Units of two bytes -/

/-- The units that some bytes are. -/
def units16? (highFirst : Bool) : List UInt8 → Option (List Nat)
  | [] => some []
  | [_] => none
  | a :: b :: bs =>
    let unit := if highFirst then a.toNat * 0x100 + b.toNat else b.toNat * 0x100 + a.toNat
    (units16? highFirst bs).map (unit :: ·)

/-- The text that units are. -/
def ofUnits16 : List Nat → List Char
  | [] => []
  | [n] => [unitChar n]
  | n :: m :: ns =>
    if isHighUnit n && isLowUnit m then
      Char.ofNat (0x10000 + (n - 0xD800) * 0x400 + (m - 0xDC00)) :: ofUnits16 ns
    else unitChar n :: ofUnits16 (m :: ns)

/-! ## Units of four bytes -/

/-- The unit that four bytes are. -/
def unit32 (highFirst : Bool) (a b c d : UInt8) : Nat :=
  (if highFirst then [a, b, c, d] else [d, c, b, a]).foldl (fun n b => n * 0x100 + b.toNat) 0

/-- The text of some bytes, four for each character. -/
def decodeUtf32? (highFirst : Bool) : List UInt8 → Option (List Char)
  | [] => some []
  | a :: b :: c :: d :: bs =>
    if unit32 highFirst a b c d < 0x110000 then
      (decodeUtf32? highFirst bs).map (unitChar (unit32 highFirst a b c d) :: ·)
    else none
  | _ => none

/-! ## The text of a document -/

/-- A text without the byte order mark at its head. -/
def dropMark : List Char → List Char
  | '\uFEFF' :: rest => rest
  | text => text

/-- The text of bytes in an encoding. -/
def decodeAs? (bytes : List UInt8) : Encoding → Option (List Char)
  | .utf8 => decodeUtf8? 0 bytes
  | .utf16 highFirst => (units16? highFirst bytes).map ofUnits16
  | .utf32 highFirst => decodeUtf32? highFirst bytes

/-! ## What is wrong with a document -/

/-- The name of an encoding. -/
def Encoding.name : Encoding → String
  | utf8 => "utf-8"
  | utf16 highFirst => if highFirst then "utf-16-be" else "utf-16-le"
  | utf32 highFirst => if highFirst then "utf-32-be" else "utf-32-le"

/-- The first fault of bytes in units of one byte, passing over the next `skip` of them;
`position` bytes came before. -/
def faultUtf8? (position : Nat) : Nat → List UInt8 → Option Text.Utf8.Fault
  | _, [] => none
  | skip + 1, _ :: bs => faultUtf8? (position + 1) skip bs
  | 0, b :: bs =>
    match Text.Utf8.headChar b bs with
    | .ok n => faultUtf8? (position + 1) n bs
    | .error (kind, count) =>
      if isHalfPair b bs then faultUtf8? (position + 1) 2 bs else some ⟨kind, position, b, count⟩

/-- What is wrong with bytes in units of two bytes : one of them is left over. -/
def faultUtf16? (codec : String) (position : Nat) : List UInt8 → Option String
  | [] => none
  | [b] => some (Text.Utf8.complaint codec position 1 b "truncated data")
  | _ :: _ :: bs => faultUtf16? codec (position + 2) bs

/-- What is wrong with bytes in units of four bytes : some are left over, or a unit is no
character. -/
def faultUtf32? (codec : String) (highFirst : Bool) (position : Nat) : List UInt8 → Option String
  | [] => none
  | a :: b :: c :: d :: bs =>
    if unit32 highFirst a b c d < 0x110000 then faultUtf32? codec highFirst (position + 4) bs
    else some (Text.Utf8.complaint codec position 4 a "code point not in range(0x110000)")
  | b :: bs => some (Text.Utf8.complaint codec position (bs.length + 1) b "truncated data")

/-- The bytes after the byte order mark of units of one byte. -/
def afterMark : List UInt8 → List UInt8
  | 0xEF :: 0xBB :: 0xBF :: bs => bs
  | bs => bs

/-- What is wrong with bytes in an encoding. In units of one byte the byte order mark is not
counted. -/
def faultAs? (bytes : List UInt8) (encoding : Encoding) : Option String :=
  match encoding with
  | .utf8 => (faultUtf8? 0 0 (afterMark bytes)).map Text.Utf8.Fault.message
  | .utf16 _ => faultUtf16? encoding.name 0 bytes
  | .utf32 highFirst => faultUtf32? encoding.name highFirst 0 bytes

/-! ## Documents -/

/-- The bytes of a content. -/
def bytesOf : Content → List UInt8
  | .text s => s.toUTF8.toList
  | .binary bytes => bytes.toList

/-- What is wrong with the bytes of a document that is no text. -/
def encodingFault (body : Content) : String :=
  (faultAs? (bytesOf body) (encodingOf (bytesOf body))).getD ""

/-- The text of a document, whatever it is encoded in; nothing if the bytes are no encoding of a
text. -/
def textOf? (body : Content) : Option String :=
  let text? :=
    match body with
    | .binary bytes => decodeAs? bytes.toList (encodingOf bytes.toList)
    | .text s =>
      match encodingOf s.toUTF8.toList with
      | .utf8 => some s.toList
      | encoding => decodeAs? s.toUTF8.toList encoding
  text?.map fun text => String.ofList (dropMark text)

end PlanReview.Json
