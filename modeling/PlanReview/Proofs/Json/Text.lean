import PlanReview.Json.Reader
import PlanReview.Json.Writer

/-!
# Strings in JSON

A string is read back as it was written (`stringBody_stringText`), with or without escapes for
what is beyond ASCII. Every character is written as a piece that the reader takes off in one step
(`stringBody_escapeChar`); an escape by number needs some text after it, and the closing quote is
always there.
-/

namespace PlanReview.Json

variable {start rest : List Char}

/-! ## Escapes by number -/

theorem hexDigit?_digitChar {d : Nat} (h : d < 16) : hexDigit? (Nat.digitChar d) = some d := by
  revert d
  decide

theorem hexDigits_of_lt {n : Nat} (h : n < 16) (width : Nat) :
    Text.hexDigits (width + 1) n = List.replicate width '0' ++ [Nat.digitChar n] := by
  rw [Text.hexDigits, Nat.toDigits_of_lt_base h]
  rfl

theorem hexDigits_of_le {n : Nat} (h : 16 ≤ n) (width : Nat) :
    Text.hexDigits (width + 1) n =
      Text.hexDigits width (n / 16) ++ [Nat.digitChar (n % 16)] := by
  unfold Text.hexDigits
  rw [Nat.toDigits_of_base_le (by decide) h]
  simp

/-- One more place, filled with a zero if need be. -/
theorem hexDigits_succ (width n : Nat) :
    Text.hexDigits (width + 2) n =
      Text.hexDigits (width + 1) (n / 16) ++ [Nat.digitChar (n % 16)] := by
  rcases Nat.lt_or_ge n 16 with h | h
  · rw [hexDigits_of_lt h, Nat.div_eq_of_lt h, hexDigits_of_lt (by decide), Nat.mod_eq_of_lt h,
      List.replicate_succ']
    rfl
  · exact hexDigits_of_le h _

/-- The four digits of a unit. -/
theorem hexDigits_four {n : Nat} (h : n < 0x10000) :
    Text.hexDigits 4 n = [Nat.digitChar (n / 0x1000), Nat.digitChar (n / 0x100 % 16),
      Nat.digitChar (n / 0x10 % 16), Nat.digitChar (n % 16)] := by
  rw [hexDigits_succ, hexDigits_succ, hexDigits_succ, hexDigits_of_lt (by omega),
    show n / 16 / 16 / 16 = n / 0x1000 by omega, show n / 16 / 16 = n / 0x100 by omega]
  rfl

theorem unitOf?_digits {n : Nat} (h : n < 0x10000) :
    unitOf? (Nat.digitChar (n / 0x1000)) (Nat.digitChar (n / 0x100 % 16))
      (Nat.digitChar (n / 0x10 % 16)) (Nat.digitChar (n % 16)) = some n := by
  unfold unitOf?
  rw [hexDigit?_digitChar (by omega), hexDigit?_digitChar (Nat.mod_lt _ (by decide)),
    hexDigit?_digitChar (Nat.mod_lt _ (by decide)), hexDigit?_digitChar (Nat.mod_lt _ (by decide))]
  exact congrArg some (by omega)

theorem toNat_valid (c : Char) : c.toNat < 0xD800 ∨ 0xDFFF < c.toNat ∧ c.toNat < 0x110000 :=
  c.valid

/-- A character that fits one unit. -/
theorem numberedChar_unit {c e : Char} (h : c.toNat < 0x10000) :
    numberedChar (Text.hexDigits 4 c.toNat ++ e :: rest) = .ok (c, e :: rest) := by
  have hvalid := toNat_valid c
  have hunit : unitChar c.toNat = c := by
    unfold unitChar isHighUnit isLowUnit
    rw [if_neg (by simp; omega), Char.ofNat_toNat]
  have hhigh : isHighUnit c.toNat = false := by
    unfold isHighUnit
    simp
    omega
  rw [hexDigits_four h]
  simp only [List.cons_append, List.nil_append, numberedChar, unitOf?_digits h, hunit, hhigh]
  rfl

/-- A character that takes two units. -/
theorem numberedChar_pair {c e : Char} (h : 0x10000 ≤ c.toNat) :
    numberedChar (Text.hexDigits 4 (0xD800 + (c.toNat - 0x10000) / 0x400) ++
      unitEscape (0xDC00 + (c.toNat - 0x10000) % 0x400) ++ e :: rest) = .ok (c, e :: rest) := by
  have hvalid := toNat_valid c
  obtain ⟨n, hn⟩ : ∃ n, c.toNat = n + 0x10000 := ⟨c.toNat - 0x10000, by omega⟩
  have hc : Char.ofNat (n + 0x10000) = c := by rw [← hn, Char.ofNat_toNat]
  rw [hn] at hvalid ⊢
  rw [Nat.add_sub_cancel, unitEscape, hexDigits_four (by omega), hexDigits_four (by omega)]
  have hhigh : isHighUnit (0xD800 + n / 0x400) = true := by
    unfold isHighUnit
    simp
    omega
  have hlow : isLowUnit (0xDC00 + n % 0x400) = true := by
    unfold isLowUnit
    simp
    omega
  have hsum : 0x10000 + (0xD800 + n / 0x400 - 0xD800) * 0x400 + (0xDC00 + n % 0x400 - 0xDC00) =
      n + 0x10000 := by
    omega
  have h1 := unitOf?_digits (n := 0xD800 + n / 0x400) (by omega)
  have h2 := unitOf?_digits (n := 0xDC00 + n % 0x400) (by omega)
  generalize 0xD800 + n / 0x400 = high at *
  generalize 0xDC00 + n % 0x400 = low at *
  simp only [List.cons_append, List.nil_append, numberedChar, secondUnit?, h1, h2, hhigh, hlow,
    if_true, hsum, hc]

/-! ## Strings -/

theorem stringBody_backslash {s u : List Char} {c : Char}
    (h : escapedChar start s = .ok (c, u)) :
    stringBody start ('\\' :: s) = consChar c (stringBody start u) := by
  rw [stringBody]
  split
  · rename_i heq
    rw [h] at heq
    cases heq
  · rename_i heq
    rw [h] at heq
    cases heq
    rfl

theorem stringBody_unitEscape {n : Nat} {tail u : List Char} {c : Char}
    (h : numberedChar (Text.hexDigits 4 n ++ tail) = .ok (c, u)) :
    stringBody start (unitEscape n ++ tail) = consChar c (stringBody start u) := by
  unfold unitEscape
  rw [List.cons_append, List.cons_append]
  refine stringBody_backslash ?_
  unfold escapedChar
  exact h

theorem stringBody_plain {c : Char} (hquote : c ≠ '"') (hback : c ≠ '\\')
    (hcontrol : 0x20 ≤ c.toNat) (s : List Char) :
    stringBody start (c :: s) = consChar c (stringBody start s) := by
  rw [stringBody]
  · rw [if_neg (by omega)]
  · exact hquote
  · exact hback

/-- The piece that stands for a character is taken off in one step. -/
theorem stringBody_escapeChar (asciiOnly : Bool) (c e : Char) :
    stringBody start (escapeChar asciiOnly c ++ e :: rest) =
      consChar c (stringBody start (e :: rest)) := by
  unfold escapeChar
  split
  · subst_vars
    exact stringBody_backslash rfl
  rename_i hquote
  split
  · subst_vars
    exact stringBody_backslash rfl
  rename_i hback
  iterate 5
    split
    · subst_vars
      exact stringBody_backslash rfl
  split
  · rw [stringBody_unitEscape (numberedChar_unit (by omega))]
  split
  · split
    · rw [stringBody_unitEscape (numberedChar_unit ‹_›)]
    · rw [List.append_assoc, stringBody_unitEscape]
      rw [← List.append_assoc]
      exact numberedChar_pair (by omega)
  · exact stringBody_plain hquote hback (by omega) _

/-- A string between quotes is read back. -/
theorem stringBody_flatMap (asciiOnly : Bool) (cs : List Char) :
    stringBody start (cs.flatMap (escapeChar asciiOnly) ++ '"' :: rest) = .ok (cs, rest) := by
  induction cs with
  | nil => rw [List.flatMap_nil, List.nil_append, stringBody]
  | cons c cs ih =>
    obtain ⟨e, tail, htail⟩ : ∃ e tail,
        cs.flatMap (escapeChar asciiOnly) ++ '"' :: rest = e :: tail := by
      cases cs.flatMap (escapeChar asciiOnly) with
      | nil => exact ⟨_, _, rfl⟩
      | cons e tail => exact ⟨_, _, rfl⟩
    rw [List.flatMap_cons, List.append_assoc, htail, stringBody_escapeChar, ← htail, ih]
    rfl

end PlanReview.Json
