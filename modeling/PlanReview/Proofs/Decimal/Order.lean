import Mathlib.Data.Prod.Lex
import PlanReview.Decimal.Binary

/-!
# Doubles in order

Doubles are compared by what they stand for, and what is no number compares with nothing. Those that
are not negative are in order by their rank (`le_iff_rank`). A score is a double from zero to one
(`InUnit`), so it is finite, and a double above a score is positive. Scores stand in a row
(`lt_iff_below`, `le_iff_not_below`), so that of two different ones one is above the other.
-/

namespace PlanReview.Decimal

open Float.Model (UnpackedFloat)

variable {x y z : Float}

theorem le_iff : x ≤ y ↔ x.toModel.unpack.le y.toModel.unpack = true := by
  change decide (x.toModel ≤ y.toModel) = true ↔ _
  rw [decide_eq_true_iff]
  rfl

theorem lt_iff : x < y ↔ x.toModel.unpack.lt y.toModel.unpack = true := by
  change decide (x.toModel < y.toModel) = true ↔ _
  rw [decide_eq_true_iff]
  rfl

/-! ## Zero -/

/-- Whether an unpacked double is the positive zero. -/
def isZero : UnpackedFloat → Bool
  | .zero .positive => true
  | _ => false

theorem unpack_zero : (0.0 : Float).toModel.unpack = .zero .positive := by
  have h : isZero (0.0 : Float).toModel.unpack = true := by decide +kernel
  generalize (0.0 : Float).toModel.unpack = u at h
  cases u with
  | zero s => cases s <;> first | rfl | cases h
  | _ => cases h

/-- What is not below zero is a zero or positive. -/
theorem zero_le {u : UnpackedFloat} (h : UnpackedFloat.le (.zero .positive) u = true) :
    (∃ s, u = .zero s) ∨ u = .infinity .positive ∨ ∃ m e hm, u = .finite .positive m e hm := by
  cases u with
  | notANumber => cases h
  | zero s => exact .inl ⟨s, rfl⟩
  | infinity s =>
    cases s with
    | negative => cases h
    | positive => exact .inr (.inl rfl)
  | finite s m e hm =>
    cases s with
    | negative => cases h
    | positive => exact .inr (.inr ⟨m, e, hm, rfl⟩)

/-- A double above one that is not negative is positive. -/
theorem pos_of_lt (hy : 0.0 ≤ y) (h : y < x) : 0.0 < x := by
  rw [le_iff] at hy
  rw [lt_iff] at h ⊢
  rw [unpack_zero] at hy ⊢
  generalize x.toModel.unpack = v at h ⊢
  rcases zero_le hy with ⟨s, hu⟩ | hu | ⟨m, e, hm, hu⟩ <;> rw [hu] at h <;> cases v with
  | notANumber => cases h
  | zero s' => cases h
  | infinity s' => cases s' <;> first | rfl | cases h
  | finite s' m' e' hm' => cases s' <;> first | rfl | cases h

/-! ## Doubles that are not negative -/

/-- Where a double that is not negative stands among them : zeros first, infinity last, and between
them first the exponents count, then the mantissas. -/
def rank : UnpackedFloat → Nat ×ₗ Int ×ₗ Nat
  | .zero _ => toLex (0, toLex (0, 0))
  | .finite _ m e _ => toLex (1, toLex (e, m))
  | .infinity _ | .notANumber => toLex (2, toLex (0, 0))

theorem le_iff_rank (hx : 0.0 ≤ x) (hy : 0.0 ≤ y) :
    x ≤ y ↔ rank x.toModel.unpack ≤ rank y.toModel.unpack := by
  rw [le_iff, unpack_zero] at hx hy
  rw [le_iff]
  rcases zero_le hx with ⟨s, hu⟩ | hu | ⟨m, e, hm, hu⟩ <;>
    rcases zero_le hy with ⟨s', hv⟩ | hv | ⟨m', e', hm', hv⟩ <;> rw [hu, hv]
  case inr.inl.inr.inl => exact iff_of_true rfl (le_refl _)
  case inr.inr.inr.inr =>
    change ((compare e e').then (compare m m')).isLE = true ↔ _
    rw [Ordering.isLE_then_iff_or, Int.compare_eq_lt, Int.compare_eq_eq, Nat.isLE_compare]
    dsimp only [rank]
    simp [Prod.Lex.toLex_le_toLex]
  all_goals
    dsimp only [rank, UnpackedFloat.le, UnpackedFloat.compare]
    simp [Prod.Lex.toLex_le_toLex]

theorem le_of_lt (h : x < y) : x ≤ y := by
  rw [lt_iff, UnpackedFloat.lt, beq_iff_eq] at h
  rw [le_iff, UnpackedFloat.le, h]
  rfl

/-- What is not negative is a number. -/
theorem le_refl_of_nonneg (hx : 0.0 ≤ x) : x ≤ x :=
  (le_iff_rank hx hx).2 (le_refl _)

theorem nonneg_of_le (hx : 0.0 ≤ x) (h : x ≤ y) : 0.0 ≤ y := by
  rw [le_iff, unpack_zero] at hx ⊢
  rw [le_iff] at h
  generalize y.toModel.unpack = v at h ⊢
  rcases zero_le hx with ⟨s, hu⟩ | hu | ⟨m, e, hm, hu⟩ <;> rw [hu] at h <;> cases v with
  | notANumber => cases h
  | zero s' => rfl
  | infinity s' => cases s' <;> first | rfl | cases h
  | finite s' m' e' hm' => cases s' <;> first | rfl | cases h

theorem le_trans_of_nonneg (hx : 0.0 ≤ x) (h : x ≤ y) (h' : y ≤ z) : x ≤ z := by
  have hy := nonneg_of_le hx h
  have hz := nonneg_of_le hy h'
  rw [le_iff_rank hx hy] at h
  rw [le_iff_rank hy hz] at h'
  exact (le_iff_rank hx hz).2 (le_trans h h')

/-! ## The unit interval -/

/-- A double from zero to one. -/
structure InUnit (x : Float) : Prop where
  nonneg : 0.0 ≤ x
  le_one : x ≤ 1.0

theorem inUnit_zero : InUnit 0.0 :=
  ⟨by decide +kernel, by decide +kernel⟩

/-- A double from zero to one is a zero, or a positive number with mantissa and exponent. -/
theorem InUnit.unpack (h : InUnit x) : (∃ s, x.toModel.unpack = .zero s) ∨
    ∃ m e hm, x.toModel.unpack = .finite .positive m e hm := by
  have hzero := h.nonneg
  have hone := h.le_one
  rw [le_iff] at hzero hone
  rw [unpack_zero] at hzero
  have hfinite : (1.0 : Float).toModel.unpack.isFinite = true := by decide +kernel
  rcases zero_le hzero with hx | hx | hx
  · exact .inl hx
  · rw [hx] at hone
    generalize (1.0 : Float).toModel.unpack = u at hone hfinite
    cases u with
    | infinity s => cases hfinite
    | _ => cases hone
  · exact .inr hx

theorem InUnit.isFinite (h : InUnit x) : x.isFinite = true := by
  change x.toModel.unpack.isFinite = true
  rcases h.unpack with ⟨s, hx⟩ | ⟨m, e, hm, hx⟩ <;> rw [hx] <;> rfl

/-! ## Scores in a row -/

/-- The order of doubles that are not negative : a zero stands below all other ones, and of two
others first the exponents count, then the mantissas. -/
def Below : UnpackedFloat → UnpackedFloat → Prop
  | .zero _, .finite _ _ _ _ => True
  | .finite _ m e _, .finite _ m' e' _ => e < e' ∨ e = e' ∧ m < m'
  | _, _ => False

theorem lt_iff_below (hx : InUnit x) (hy : InUnit y) :
    x < y ↔ Below x.toModel.unpack y.toModel.unpack := by
  rw [lt_iff]
  rcases hx.unpack with ⟨s, hx⟩ | ⟨m, e, hm, hx⟩ <;>
    rcases hy.unpack with ⟨s', hy⟩ | ⟨m', e', hm', hy⟩ <;> rw [hx, hy]
  · exact ⟨Bool.noConfusion, False.elim⟩
  · exact ⟨fun _ => trivial, fun _ => rfl⟩
  · exact ⟨Bool.noConfusion, False.elim⟩
  · change (some ((compare e e').then (compare m m')) == some Ordering.lt) = true ↔
      (e < e' ∨ e = e' ∧ m < m')
    rw [beq_iff_eq, Option.some_inj, Ordering.then_eq_lt, Int.compare_eq_lt, Int.compare_eq_eq,
      Nat.compare_eq_lt]

theorem le_iff_not_below (hx : InUnit x) (hy : InUnit y) :
    x ≤ y ↔ ¬ Below y.toModel.unpack x.toModel.unpack := by
  rw [le_iff]
  rcases hx.unpack with ⟨s, hx⟩ | ⟨m, e, hm, hx⟩ <;>
    rcases hy.unpack with ⟨s', hy⟩ | ⟨m', e', hm', hy⟩ <;> rw [hx, hy]
  · exact ⟨fun _ => id, fun _ => rfl⟩
  · exact ⟨fun _ => id, fun _ => rfl⟩
  · exact ⟨Bool.noConfusion, fun h => (h trivial).elim⟩
  · change ((compare e e').then (compare m m')).isLE = true ↔ ¬ (e' < e ∨ e' = e ∧ m' < m)
    rw [Ordering.isLE_then_iff_or, Int.compare_eq_lt, Int.compare_eq_eq, Nat.isLE_compare]
    omega

theorem Below.asymm {u v : UnpackedFloat} (h : Below u v) : ¬ Below v u := by
  intro h'
  cases u <;> cases v <;> first | exact h | exact h' | (unfold Below at h h'; omega)

/-- What is not above a double that stands below a third one, stands below that one too. -/
theorem Below.of_not_below (hx : InUnit x) (hy : InUnit y) {v : UnpackedFloat}
    (h : ¬ Below y.toModel.unpack x.toModel.unpack) (h' : Below y.toModel.unpack v) :
    Below x.toModel.unpack v := by
  cases v with
  | finite s'' m'' e'' hm'' =>
    rcases hx.unpack with ⟨s, hx⟩ | ⟨m, e, hm, hx⟩
    · rw [hx]
      trivial
    · rcases hy.unpack with ⟨s', hy⟩ | ⟨m', e', hm', hy⟩
      · rw [hx, hy] at h
        exact (h trivial).elim
      · rw [hx, hy] at h
        rw [hy] at h'
        rw [hx]
        unfold Below at h h' ⊢
        omega
  | _ =>
    generalize y.toModel.unpack = u at h'
    cases u <;> exact h'.elim

namespace InUnit

theorem not_lt_iff (hx : InUnit x) (hy : InUnit y) : ¬ x < y ↔ y ≤ x := by
  rw [lt_iff_below hx hy, le_iff_not_below hy hx]

theorem le_of_lt (hx : InUnit x) (hy : InUnit y) (h : x < y) : x ≤ y :=
  (le_iff_not_below hx hy).2 ((lt_iff_below hx hy).1 h).asymm

theorem refl (hx : InUnit x) : x ≤ x :=
  le_refl_of_nonneg hx.nonneg

theorem lt_of_le_of_lt (hx : InUnit x) (hy : InUnit y) (hz : InUnit z) (h : x ≤ y)
    (h' : y < z) : x < z := by
  rw [le_iff_not_below hx hy] at h
  rw [lt_iff_below hy hz] at h'
  rw [lt_iff_below hx hz]
  exact Below.of_not_below hx hy h h'

end InUnit

end PlanReview.Decimal
