import PlanReview.Text.WordRanges

/-!
# Character classes

Whitespace, word characters and decimal digits, over all of Unicode. The classes of core's
`Char` know ASCII only. What is a letter or digit there is a word character here
(`isWord_of_isAlphanum`); beyond ASCII the tables of the character database decide.
-/

namespace PlanReview.Text

/-- Whether `n` lies in one of the closed ranges of `table`. -/
def inRanges (table : List (Nat × Nat)) (n : Nat) : Bool :=
  table.any fun r => r.1 ≤ n && n ≤ r.2

/-- The code points of whitespace. -/
def blankRanges : List (Nat × Nat) := [
  (0x09, 0x0D), (0x1C, 0x20), (0x85, 0x85), (0xA0, 0xA0), (0x1680, 0x1680), (0x2000, 0x200A),
  (0x2028, 0x2029), (0x202F, 0x202F), (0x205F, 0x205F), (0x3000, 0x3000)]

/-- Whitespace : the separators of Unicode and the controls that move the position. -/
def isBlank (c : Char) : Bool :=
  inRanges blankRanges c.toNat

/-- A letter, a number or an underscore. -/
def isWord (c : Char) : Bool :=
  if c.toNat < 128 then c.isAlphanum || c == '_' else inRanges wordRanges c.toNat

/-- The value of a decimal digit of any script. -/
def digitValue? (c : Char) : Option Nat :=
  if c.toNat < 128 then
    if c.isDigit then some (c.toNat - '0'.toNat) else none
  else
    (decimalRanges.find? fun r => r.1 ≤ c.toNat && c.toNat ≤ r.2).map fun r =>
      (c.toNat - r.1) % 10

/-- A decimal digit of any script. -/
def isDecimal (c : Char) : Bool :=
  (digitValue? c).isSome

/-- A letter or digit of ASCII. -/
def isAsciiAlnum (c : Char) : Bool :=
  c.isAlphanum

/-- The letters and digits of ASCII lie between zero and z. -/
theorem toNat_of_isAlphanum {c : Char} (h : c.isAlphanum = true) :
    0x30 ≤ c.toNat ∧ c.toNat ≤ 0x7A := by
  delta Char.isAlphanum Char.isAlpha Char.isUpper Char.isLower Char.isDigit at h
  simp only [Bool.or_eq_true, Bool.and_eq_true, decide_eq_true_eq, ge_iff_le,
    UInt32.le_iff_toNat_le] at h
  change ((65 ≤ c.toNat ∧ c.toNat ≤ 90) ∨ (97 ≤ c.toNat ∧ c.toNat ≤ 122)) ∨
    (48 ≤ c.toNat ∧ c.toNat ≤ 57) at h
  omega

theorem isWord_of_isAlphanum {c : Char} (h : c.isAlphanum = true) : isWord c = true := by
  have hrange := toNat_of_isAlphanum h
  rw [isWord, if_pos (by omega), h, Bool.true_or]

end PlanReview.Text
