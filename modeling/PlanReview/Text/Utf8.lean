import PlanReview.Text.Quoted

/-!
# Bytes that should be text

The encoding of a character is a lead byte and up to three bytes that go on with it; which bytes
may follow a lead byte is fixed by a small table (`follow?`). `faultFrom?` finds the first place
where bytes are not the encoding of a text, and `lossy` reads on past all of them.
-/

namespace PlanReview.Text.Utf8

/-- What is wrong with some bytes. -/
inductive FaultKind where
  | badStart
  | badContinuation
  | truncated
  deriving Repr, DecidableEq

/-- The first bytes that are not the encoding of a character. -/
structure Fault where
  kind : FaultKind
  position : Nat
  first : UInt8
  count : Nat

/-- How many bytes follow a lead byte, and the range of the first of them. -/
def follow? (b : Nat) : Option (Nat × Nat × Nat) :=
  if b < 0x80 then some (0, 0x80, 0xBF)
  else if b < 0xC2 then none
  else if b < 0xE0 then some (1, 0x80, 0xBF)
  else if b = 0xE0 then some (2, 0xA0, 0xBF)
  else if b = 0xED then some (2, 0x80, 0x9F)
  else if b < 0xF0 then some (2, 0x80, 0xBF)
  else if b = 0xF0 then some (3, 0x90, 0xBF)
  else if b < 0xF4 then some (3, 0x80, 0xBF)
  else if b = 0xF4 then some (3, 0x80, 0x8F)
  else none

/-- Check that `n` more bytes go on with a character, the next of them from `low` to `high`. The
fault comes with the number of bytes that did. -/
def continues : Nat → Nat → Nat → List UInt8 → Except (FaultKind × Nat) Unit
  | 0, _, _, _ => .ok ()
  | _ + 1, _, _, [] => .error (.truncated, 0)
  | n + 1, low, high, b :: bs =>
    if low ≤ b.toNat && b.toNat ≤ high then
      (continues n 0x80 0xBF bs).mapError fun (kind, good) => (kind, good + 1)
    else .error (.badContinuation, 0)

/-- Check the character at the head of some bytes : the number of bytes that follow its lead byte,
or what is wrong with how many bytes. -/
def headChar (b : UInt8) (bs : List UInt8) : Except (FaultKind × Nat) Nat :=
  match follow? b.toNat with
  | none => .error (.badStart, 1)
  | some (n, low, high) =>
    match continues n low high bs with
    | .ok () => .ok n
    | .error (kind, good) => .error (kind, good + 1)

/-- The first fault, passing over the next `skip` bytes; `position` bytes came before. -/
def faultFrom? (position : Nat) : Nat → List UInt8 → Option Fault
  | _, [] => none
  | skip + 1, _ :: bs => faultFrom? (position + 1) skip bs
  | 0, b :: bs =>
    match headChar b bs with
    | .ok n => faultFrom? (position + 1) n bs
    | .error (kind, count) => some ⟨kind, position, b, count⟩

/-- The bits that a lead byte adds to a character of `n` more bytes. -/
def leadBits (n : Nat) (b : UInt8) : Nat :=
  if n = 0 then b.toNat else b.toNat % Nat.pow 2 (6 - n)

/-- The character that a lead byte and `n` more bytes encode. -/
def charOf (n : Nat) (b : UInt8) (bs : List UInt8) : Char :=
  Char.ofNat ((bs.take n).foldl (fun v c => v * 64 + c.toNat % 64) (leadBits n b))

/-- The text of some bytes, passing over the next `skip` of them; every fault becomes one
replacement character. -/
def lossy : Nat → List UInt8 → List Char
  | _, [] => []
  | skip + 1, _ :: bs => lossy skip bs
  | 0, b :: bs =>
    match headChar b bs with
    | .ok n => charOf n b bs :: lossy n bs
    | .error (_, count) => '\ufffd' :: lossy (count - 1) bs

/-- The wording of the kind of a fault. -/
def FaultKind.message : FaultKind → String
  | badStart => "invalid start byte"
  | badContinuation => "invalid continuation byte"
  | truncated => "unexpected end of data"

/-- What a codec says of `count` bytes from `position` on, the first of them `first`. -/
def complaint (codec : String) (position count : Nat) (first : UInt8) (reason : String) : String :=
  let bytes :=
    if count = 1 then
      "byte 0x" ++ String.ofList (hexDigits 2 first.toNat) ++ " in position " ++ toString position
    else "bytes in position " ++ toString position ++ "-" ++ toString (position + count - 1)
  quoted codec ++ " codec can't decode " ++ bytes ++ ": " ++ reason

/-- The wording of a fault. -/
def Fault.message (f : Fault) : String :=
  complaint "utf-8" f.position f.count f.first f.kind.message

end PlanReview.Text.Utf8
