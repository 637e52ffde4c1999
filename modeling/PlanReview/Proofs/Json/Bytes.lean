import PlanReview.Json.Encoding

/-!
# Documents in bytes and their faults

Bytes are a text in an encoding exactly if no fault is found in them, so the words for a document
that cannot be decoded are never missing. Decoding and looking for a fault go over the bytes in the
same steps, and the inductions follow those.
-/

namespace PlanReview.Json

open Text.Utf8 (headChar)

/-- In units of one byte, wherever reading begins. -/
theorem decodeUtf8?_isSome (position skip : Nat) (bytes : List UInt8) :
    (decodeUtf8? skip bytes).isSome = (faultUtf8? position skip bytes).isNone := by
  fun_induction faultUtf8? position skip bytes with
  | case1 => simp [decodeUtf8?]
  | case2 position skip b bs ih => simpa [decodeUtf8?] using ih
  | case3 position b bs n hhead ih => simpa [decodeUtf8?, hhead] using ih
  | case4 position b bs kind count hhead hhalf ih => simpa [decodeUtf8?, hhead, hhalf] using ih
  | case5 position b bs kind count hhead hhalf => simp [decodeUtf8?, hhead, hhalf]

theorem units16?_isSome (codec : String) (highFirst : Bool) (position : Nat) (bytes : List UInt8) :
    (units16? highFirst bytes).isSome = (faultUtf16? codec position bytes).isNone := by
  fun_induction faultUtf16? codec position bytes with
  | case1 => rfl
  | case2 => rfl
  | case3 position a b bs ih => simpa [units16?] using ih

theorem decodeUtf32?_isSome (codec : String) (highFirst : Bool) (position : Nat)
    (bytes : List UInt8) :
    (decodeUtf32? highFirst bytes).isSome =
      (faultUtf32? codec highFirst position bytes).isNone := by
  fun_induction faultUtf32? codec highFirst position bytes with
  | case1 => rfl
  | case2 position a b c d bs hunit ih => simpa [decodeUtf32?, hunit] using ih
  | case3 position a b c d bs hunit => simp [decodeUtf32?, hunit]
  | case4 position b bs hshort =>
    match bs with
    | [] | [_] | [_, _] => rfl
    | c :: d :: e :: rest => exact (hshort c d e rest rfl).elim

/-- The byte order mark is a character, so it is no fault, and none hides behind it. -/
theorem decodeUtf8?_afterMark (bytes : List UInt8) :
    (decodeUtf8? 0 bytes).isSome = (decodeUtf8? 0 (afterMark bytes)).isSome := by
  unfold afterMark
  split
  · rename_i bs
    have hhead : headChar 0xEF (0xBB :: 0xBF :: bs) = .ok 2 := rfl
    simp [decodeUtf8?, hhead]
  · rfl

/-- Bytes are the encoding of a text exactly if no fault is found in them. -/
theorem decodeAs?_isSome (bytes : List UInt8) (encoding : Encoding) :
    (decodeAs? bytes encoding).isSome = (faultAs? bytes encoding).isNone := by
  cases encoding with
  | utf8 =>
    rw [decodeAs?, decodeUtf8?_afterMark, decodeUtf8?_isSome 0]
    simp [faultAs?]
  | utf16 highFirst =>
    rw [decodeAs?, Option.isSome_map, units16?_isSome, faultAs?]
  | utf32 highFirst => exact decodeUtf32?_isSome ..

end PlanReview.Json
