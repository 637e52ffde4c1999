import PlanReview.Proofs.Json.Number

/-!
# Texts of scalars

The grammar of words and numbers : a number is a whole part, a fraction and an exponent, the last
two of which may be missing, with a minus before them or without. The reader takes exactly these
texts off the head of a longer one (`isScalar_of_scalar?`, `scalar?_append`), provided that what
follows does not go on with a number. A scalar has only letters, digits, signs and points
(`IsScalar.isScalarChar`), so it holds nothing that means anything elsewhere in JSON.
-/

namespace PlanReview.Json

open Decimal

variable {s u w ws ds fs es ft et rest : List Char} {negative : Bool} {e? : Option Int} {j : Json}

/-- A letter, a digit, a sign or a point. -/
def isScalarChar (c : Char) : Bool :=
  c.isAlphanum || c == '-' || c == '+' || c == '.'

theorem isScalarChar_of_isDigit {c : Char} (h : c.isDigit = true) : isScalarChar c = true := by
  simp [isScalarChar, Char.isAlphanum, h]

theorem isScalarChar_of_isAlpha {c : Char} (h : c.isUpper = true ∨ c.isLower = true) :
    isScalarChar c = true := by
  have hletter : c.isAlphanum = true := Bool.or_eq_true_iff.2 (.inl (Bool.or_eq_true_iff.2 h))
  simp [isScalarChar, hletter]

theorem isScalarChar_of_hexDigit? {c : Char} {n : Nat} (h : hexDigit? c = some n) :
    isScalarChar c = true := by
  unfold hexDigit? at h
  split at h
  · exact isScalarChar_of_isDigit ‹_›
  split at h
  · rename_i hrange
    rw [Bool.and_eq_true, decide_eq_true_eq, decide_eq_true_eq] at hrange
    have hz : c.val ≤ 'z'.val := UInt32.le_trans hrange.2 (by decide)
    exact isScalarChar_of_isAlpha
      (.inr (Bool.and_eq_true_iff.2 ⟨decide_eq_true hrange.1, decide_eq_true hz⟩))
  split at h
  · rename_i hrange
    rw [Bool.and_eq_true, decide_eq_true_eq, decide_eq_true_eq] at hrange
    have hz : c.val ≤ 'Z'.val := UInt32.le_trans hrange.2 (by decide)
    exact isScalarChar_of_isAlpha (.inl (decide_eq_true ⟨hrange.1, hz⟩))
  · cases h

/-- What is read as a unit is made of digits and letters. -/
theorem isScalarChar_of_unitOf? {a b c d : Char} {n : Nat} (h : unitOf? a b c d = some n) :
    ∀ x ∈ [a, b, c, d], isScalarChar x = true := by
  unfold unitOf? at h
  split at h
  · rename_i ha hb hc hd
    simp [isScalarChar_of_hexDigit? ha, isScalarChar_of_hexDigit? hb, isScalarChar_of_hexDigit? hc,
      isScalarChar_of_hexDigit? hd]
  · cases h

/-- The digits that a unit is written with are digits and letters. -/
theorem isScalarChar_hexDigits (width n : Nat) :
    ∀ c ∈ Text.hexDigits width n, isScalarChar c = true := by
  have hdigit : ∀ d < 16, isScalarChar (Nat.digitChar d) = true := by decide
  have hdigits (n : Nat) : ∀ c ∈ Nat.toDigits 16 n, isScalarChar c = true := by
    induction n using Nat.strongRecOn with
    | _ n ih =>
      rw [Nat.toDigits_eq_if (by decide)]
      split
      · exact List.forall_mem_singleton.2 (hdigit n ‹_›)
      · refine List.forall_mem_append.2 ⟨ih _ (Nat.div_lt_self (by omega) (by decide)), ?_⟩
        exact List.forall_mem_singleton.2 (hdigit _ (Nat.mod_lt _ (by decide)))
  rw [Text.hexDigits]
  refine List.forall_mem_append.2 ⟨fun c hc => ?_, hdigits n⟩
  rw [List.eq_of_mem_replicate hc]
  rfl

theorem AllDigits.isScalarChar (h : AllDigits ds) : ∀ c ∈ ds, Json.isScalarChar c = true :=
  fun c hc => isScalarChar_of_isDigit (h c hc)

/-! ## The grammar of numbers -/

/-- A fraction as it is written, and its digits. -/
inductive IsFraction : List Char → List Char → Prop
  | none : IsFraction [] []
  | some {fs : List Char} : AllDigits fs → fs ≠ [] → IsFraction ('.' :: fs) fs

/-- An exponent as it is written, and its value. -/
inductive IsExponent : List Char → Option Int → Prop
  | none : IsExponent [] none
  | some {mark : Char} {sign es : List Char} {negative : Bool} : mark = 'e' ∨ mark = 'E' →
      IsSign sign negative → AllDigits es → es ≠ [] →
      IsExponent (mark :: (sign ++ es)) (some (signedValue negative es))

/-- The value of a number with the whole part `ws`, the fraction `fs` and the exponent `e?`. -/
def numberOf (negative : Bool) (ws fs : List Char) (e? : Option Int) : Json :=
  if fs.isEmpty && e?.isNone then .int (signedValue negative ws)
  else .float (ofDecimal negative (digitsValue (ws ++ fs)) (e?.getD 0 - fs.length))

/-- A number without its sign as it is written, and its value with the sign. -/
inductive IsMagnitude (negative : Bool) : List Char → Json → Prop
  | mk {ws ft fs et : List Char} {e? : Option Int} : IsWhole ws → IsFraction ft fs →
      IsExponent et e? → IsMagnitude negative (ws ++ (ft ++ et)) (numberOf negative ws fs e?)

/-- A scalar as it is written, and its value. -/
inductive IsScalar : List Char → Json → Prop
  | word {w : String × Json} : w ∈ words → IsScalar w.1.toList w.2
  | number {negative : Bool} {w : List Char} {j : Json} : IsMagnitude negative w j →
      IsScalar ((if negative then ['-'] else []) ++ w) j

/-! ## What the reader takes off -/

theorem eq_append_of_digits (h : digits s = (ds, u)) : s = ds ++ u ∧ AllDigits ds := by
  obtain ⟨rfl, rfl⟩ := Prod.mk.inj h
  refine ⟨List.takeWhile_append_dropWhile.symm, ?_⟩
  have hall := List.all_takeWhile (p := Char.isDigit) (l := s)
  exact List.all_eq_true.1 hall

theorem eq_append_of_wholePart (h : wholePart s = (ws, u)) (hne : ws ≠ []) :
    s = ws ++ u ∧ IsWhole ws := by
  unfold wholePart at h
  split at h
  · obtain ⟨rfl, rfl⟩ := Prod.mk.inj h
    exact ⟨rfl, isWhole_zero⟩
  · rename_i hzero
    obtain ⟨rfl, hall⟩ := eq_append_of_digits h
    refine ⟨rfl, hall, hne, fun hfirst => ?_⟩
    obtain ⟨c, cs, rfl⟩ := List.exists_cons_of_ne_nil hne
    obtain rfl : c = '0' := by simpa using hfirst
    exact absurd rfl (hzero (cs ++ u))

theorem isFraction_of_fraction (h : fraction s = (fs, u)) :
    ∃ w, s = w ++ u ∧ IsFraction w fs := by
  unfold fraction at h
  split at h
  · rename_i c cs
    split at h
    · rename_i hc
      obtain ⟨heq, hall⟩ := eq_append_of_digits h
      refine ⟨'.' :: fs, by rw [heq, List.cons_append], .some hall ?_⟩
      rintro rfl
      have htake := congrArg Prod.fst h
      simp [digits, hc] at htake
    · obtain ⟨rfl, rfl⟩ := Prod.mk.inj h
      exact ⟨[], rfl, .none⟩
  · obtain ⟨rfl, rfl⟩ := Prod.mk.inj h
    exact ⟨[], rfl, .none⟩

theorem isSign_of_readSign (h : readSign s = (negative, u)) :
    ∃ sign, s = sign ++ u ∧ IsSign sign negative := by
  unfold readSign at h
  split at h <;> obtain ⟨rfl, rfl⟩ := Prod.mk.inj h
  · exact ⟨['-'], rfl, .minus⟩
  · exact ⟨['+'], rfl, .plus⟩
  · exact ⟨[], rfl, .none⟩

theorem isExponent_of_exponent (h : exponent s = (e?, u)) :
    ∃ w, s = w ++ u ∧ IsExponent w e? := by
  have hnone (h : (none, s) = (e?, u)) : ∃ w, s = w ++ u ∧ IsExponent w e? := by
    obtain ⟨rfl, rfl⟩ := Prod.mk.inj h
    exact ⟨[], rfl, .none⟩
  unfold exponent at h
  split at h
  · exact hnone h
  · rename_i mark cs
    split at h
    · rename_i hmark
      cases hsign : readSign cs with
      | mk negative t =>
        obtain ⟨sign, rfl, hwritten⟩ := isSign_of_readSign hsign
        rw [hsign] at h
        dsimp only at h
        split at h
        · exact hnone h
        · rename_i ds v hne hdigits
          obtain ⟨rfl, rfl⟩ := Prod.mk.inj h
          obtain ⟨rfl, hall⟩ := eq_append_of_digits hdigits
          refine ⟨mark :: (sign ++ ds), by simp, .some (by simpa using hmark) hwritten hall ?_⟩
          exact fun hnil => hne hnil
    · exact hnone h

theorem isMagnitude_of_magnitude? (h : magnitude? negative s = some (j, u)) :
    ∃ w, s = w ++ u ∧ IsMagnitude negative w j := by
  cases hw : wholePart s with
  | mk ws t =>
    have hne : ws ≠ [] := by
      rintro rfl
      unfold magnitude? at h
      rw [hw] at h
      cases h
    cases hf : fraction t with
    | mk fs t' =>
      cases he : exponent t' with
      | mk e? v =>
        obtain ⟨rfl, hwhole⟩ := eq_append_of_wholePart hw hne
        obtain ⟨ft, rfl, hfraction⟩ := isFraction_of_fraction hf
        obtain ⟨et, rfl, hexponent⟩ := isExponent_of_exponent he
        have hvalue : some (numberOf negative ws fs e?, v) = some (j, u) := by
          rw [← h, magnitude?_eq hw hne hf he, numberOf]
          split <;> rfl
        obtain ⟨rfl, rfl⟩ := Prod.mk.inj (Option.some.inj hvalue)
        exact ⟨ws ++ (ft ++ et), by simp, .mk hwhole hfraction hexponent⟩

/-- A scalar is taken off as the grammar has it. -/
theorem isScalar_of_scalar? (h : scalar? s = some (j, u)) : ∃ w, s = w ++ u ∧ IsScalar w j := by
  unfold scalar? at h
  split at h
  · rename_i hfound
    cases h
    obtain ⟨w, hw, hstart⟩ := List.exists_of_findSome?_eq_some hfound
    obtain ⟨rest, hrest, heq⟩ := Option.map_eq_some_iff.1 hstart
    cases heq
    exact ⟨_, Text.afterStart?_eq_some_iff.1 hrest, .word hw⟩
  · split at h
    · obtain ⟨w, rfl, hw⟩ := isMagnitude_of_magnitude? h
      exact ⟨'-' :: w, rfl, .number hw⟩
    · obtain ⟨w, rfl, hw⟩ := isMagnitude_of_magnitude? h
      exact ⟨w, rfl, @IsScalar.number false w j hw⟩

/-! ## What the grammar has is taken off -/

theorem IsExponent.append (h : IsExponent et e?) (hrest : Stops rest) :
    exponent (et ++ rest) = (e?, rest) ∧
      ∀ c ∈ (et ++ rest).head?, c.isDigit = false ∧ c ≠ '.' := by
  cases h with
  | none => exact ⟨exponent_none hrest, fun c hc => ⟨hrest.noDigit c hc, (hrest.noMark c hc).1⟩⟩
  | @some mark sign es negative hmark hsign hall hne =>
    have htext : mark :: (sign ++ es) ++ rest = mark :: (sign ++ (es ++ rest)) := by simp
    rw [htext]
    refine ⟨exponent_some hmark hsign hall hne hrest, fun c hc => ?_⟩
    obtain rfl : mark = c := by simpa using hc
    rcases hmark with rfl | rfl <;> decide

theorem IsFraction.append (h : IsFraction ft fs)
    (hrest : ∀ c ∈ rest.head?, c.isDigit = false ∧ c ≠ '.') :
    fraction (ft ++ rest) = (fs, rest) ∧ NoDigit (ft ++ rest) := by
  cases h with
  | none => exact ⟨fraction_none fun c hc => (hrest c hc).2, fun c hc => (hrest c hc).1⟩
  | some hall hne => exact ⟨fraction_point hall hne fun c hc => (hrest c hc).1, noDigit_point _⟩

theorem IsMagnitude.append (h : IsMagnitude negative w j) (hrest : Stops rest) :
    magnitude? negative (w ++ rest) = some (j, rest) := by
  obtain ⟨hwhole, hfraction, hexponent⟩ := h
  rename_i ws ft fs et e?
  obtain ⟨he, hhead⟩ := hexponent.append hrest
  obtain ⟨hf, hdigit⟩ := hfraction.append hhead
  have htext : ws ++ (ft ++ et) ++ rest = ws ++ (ft ++ (et ++ rest)) := by simp
  rw [htext, magnitude?_eq (wholePart_append hwhole hdigit) hwhole.ne_nil hf he, numberOf]
  split <;> rfl

/-- A scalar that the grammar has is taken off. -/
theorem scalar?_append (h : IsScalar w j) (hrest : Stops rest) :
    scalar? (w ++ rest) = some (j, rest) := by
  cases h with
  | word hw =>
    simp only [words, List.mem_cons, List.not_mem_nil, or_false] at hw
    rcases hw with rfl | rfl | rfl | rfl | rfl | rfl <;> rfl
  | number hmagnitude =>
    rw [List.append_assoc]
    exact scalar?_of_magnitude? (hmagnitude.append hrest)

/-! ## Characters of scalars -/

theorem IsFraction.isScalarChar (h : IsFraction ft fs) : ∀ c ∈ ft, Json.isScalarChar c = true := by
  cases h with
  | none => exact fun _ hc => absurd hc List.not_mem_nil
  | some hall _ => exact List.forall_mem_cons.2 ⟨by decide, hall.isScalarChar⟩

theorem IsExponent.isScalarChar (h : IsExponent et e?) :
    ∀ c ∈ et, Json.isScalarChar c = true := by
  cases h with
  | none => exact fun _ hc => absurd hc List.not_mem_nil
  | some hmark hsign hall _ =>
    refine List.forall_mem_cons.2 ⟨?_, List.forall_mem_append.2 ⟨?_, hall.isScalarChar⟩⟩
    · rcases hmark with rfl | rfl <;> decide
    · cases hsign <;> exact List.all_eq_true.1 rfl

theorem IsMagnitude.isScalarChar (h : IsMagnitude negative w j) :
    ∀ c ∈ w, Json.isScalarChar c = true := by
  obtain ⟨hwhole, hfraction, hexponent⟩ := h
  exact List.forall_mem_append.2 ⟨hwhole.digits.isScalarChar,
    List.forall_mem_append.2 ⟨hfraction.isScalarChar, hexponent.isScalarChar⟩⟩

/-- A scalar has only letters, digits, signs and points. -/
theorem IsScalar.isScalarChar (h : IsScalar w j) : ∀ c ∈ w, Json.isScalarChar c = true := by
  cases h with
  | word hw =>
    simp only [words, List.mem_cons, List.not_mem_nil, or_false] at hw
    rcases hw with rfl | rfl | rfl | rfl | rfl | rfl <;> exact List.all_eq_true.1 rfl
  | number hmagnitude =>
    refine List.forall_mem_append.2 ⟨?_, hmagnitude.isScalarChar⟩
    split <;> exact List.all_eq_true.1 rfl

theorem stops_nil : Stops [] :=
  ⟨nofun, nofun⟩

/-- What is read as a scalar with nothing left is made of these characters. -/
theorem isScalarChar_of_scalar? (h : scalar? (w ++ []) = some (j, [])) :
    ∀ c ∈ w, Json.isScalarChar c = true := by
  obtain ⟨v, hv, hscalar⟩ := isScalar_of_scalar? h
  rw [List.append_cancel_right hv]
  exact hscalar.isScalarChar

theorem isScalarChar_int (n : Int) : ∀ c ∈ (toString n).toList, isScalarChar c = true :=
  isScalarChar_of_scalar? (scalar?_int n stops_nil)

theorem isScalarChar_float {style : FloatNotation} (h : IsJsonNotation style) {x : Float}
    (hx : x.isFinite = true) : ∀ c ∈ (style.write x).toList, isScalarChar c = true :=
  isScalarChar_of_scalar? (scalar?_float h hx stops_nil)

theorem IsScalar.ne_nil (h : IsScalar w j) : w ≠ [] := by
  cases h with
  | word hw =>
    simp only [words, List.mem_cons, List.not_mem_nil, or_false] at hw
    rcases hw with rfl | rfl | rfl | rfl | rfl | rfl <;> decide
  | number hmagnitude =>
    obtain ⟨hwhole, -, -⟩ := hmagnitude
    simp [hwhole.ne_nil]

theorem IsScalar.isObject (h : IsScalar w j) : j.isObject = false := by
  cases h with
  | word hw =>
    simp only [words, List.mem_cons, List.not_mem_nil, or_false] at hw
    rcases hw with rfl | rfl | rfl | rfl | rfl | rfl <;> rfl
  | number hmagnitude =>
    obtain ⟨-, -, -⟩ := hmagnitude
    rw [numberOf]
    split <;> rfl

end PlanReview.Json
