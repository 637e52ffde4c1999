import PlanReview.Decimal.Shortest
import PlanReview.Proofs.Decimal.Double

/-!
# The shortest decimal is covered

`shortest` gives a decimal that the double covers (`shortest_covers`). A hit on a grid is one
(`Grid.covers_of_hits`), and the grid of seventeen digits always has a hit, because its step is
shorter than the interval (`exists_hit`). The number of digits is counted from the decimal exponent,
which may be too small by one but never too large (`pow_magnitude_le`).
-/

namespace PlanReview.Decimal

variable {x : Binary}

/-- The rational that a decimal is. -/
def Scaled.value (d : Scaled) : ℚ := d.digits * 10 ^ d.exponent

namespace Binary

/-! ## Integers in place of rationals -/

theorem two_zpow_mul (e : ℤ) : (2 : ℚ) ^ e * 2 ^ (-e).toNat = 2 ^ e.toNat := by
  rw [← zpow_natCast, ← zpow_natCast, ← zpow_add₀ (by norm_num)]
  congr 1
  omega

theorem ten_zpow_mul (p : ℤ) : (10 : ℚ) ^ p * 10 ^ (-p).toNat = 10 ^ p.toNat := by
  rw [← zpow_natCast, ← zpow_natCast, ← zpow_add₀ (by norm_num)]
  congr 1
  omega

theorem scale_two (a : ℚ) (e p : ℤ) :
    a * 2 ^ e * (2 ^ (-e).toNat * 10 ^ (-p).toNat) = a * (2 ^ e.toNat * 10 ^ (-p).toNat) := by
  rw [← two_zpow_mul e]
  ring

theorem scale_ten (a : ℚ) (e p : ℤ) :
    a * 10 ^ p * (2 ^ (-e).toNat * 10 ^ (-p).toNat) = a * (10 ^ p.toNat * 2 ^ (-e).toNat) := by
  rw [← ten_zpow_mul p]
  ring

theorem le_iff_scaled (a b : ℕ) (e p : ℤ) :
    (a : ℚ) * 2 ^ e ≤ b * 10 ^ p ↔
      a * (2 ^ e.toNat * 10 ^ (-p).toNat) ≤ b * (10 ^ p.toNat * 2 ^ (-e).toNat) := by
  have hscale : (0 : ℚ) < 2 ^ (-e).toNat * 10 ^ (-p).toNat := by positivity
  rw [← mul_le_mul_iff_left₀ hscale, scale_two, scale_ten]
  exact_mod_cast Iff.rfl

theorem ge_iff_scaled (a b : ℕ) (e p : ℤ) :
    (b : ℚ) * 10 ^ p ≤ a * 2 ^ e ↔
      b * (10 ^ p.toNat * 2 ^ (-e).toNat) ≤ a * (2 ^ e.toNat * 10 ^ (-p).toNat) := by
  have hscale : (0 : ℚ) < 2 ^ (-e).toNat * 10 ^ (-p).toNat := by positivity
  rw [← mul_le_mul_iff_left₀ hscale, scale_two, scale_ten]
  exact_mod_cast Iff.rfl

theorem cast_high : ((4 * x.mantissa + 2 : ℕ) : ℚ) = 4 * x.mantissa + 2 := by
  push_cast
  ring

theorem cast_low (hpos : 0 < x.mantissa) :
    (4 * x.mantissa - x.below : ℚ) = (4 * x.mantissa - x.below : ℕ) := by
  have : x.below ≤ 4 * x.mantissa := by
    unfold below
    split <;> omega
  push_cast [this]
  ring

end Binary

/-! ## Hits -/

open Binary

theorem Grid.mul_step (x : Binary) (p : Int) (k : Nat) :
    k * (Grid.of x p).step = 4 * k * (10 ^ p.toNat * 2 ^ (-x.exponent).toNat) := by
  simp only [Grid.of, pow2_eq, pow10_eq]
  ring

theorem four_mul_decimal (k : Nat) (p : Int) :
    (4 : ℚ) * (k * 10 ^ p) = (4 * k : ℕ) * 10 ^ p := by
  push_cast
  ring

section Grid

variable (hpos : 0 < x.mantissa) (p : Int) (k : Nat)

include hpos in
theorem Grid.low_le_iff : (Grid.of x p).low ≤ k * (Grid.of x p).step ↔
    (4 * x.mantissa - x.below) * 2 ^ x.exponent ≤ (4 : ℚ) * (k * 10 ^ p) := by
  rw [four_mul_decimal, cast_low hpos, le_iff_scaled, Grid.mul_step]
  rfl

include hpos in
theorem Grid.low_lt_iff : (Grid.of x p).low < k * (Grid.of x p).step ↔
    (4 * x.mantissa - x.below) * 2 ^ x.exponent < (4 : ℚ) * (k * 10 ^ p) := by
  rw [four_mul_decimal, cast_low hpos, lt_iff_not_ge, lt_iff_not_ge, ge_iff_scaled, Grid.mul_step]
  rfl

theorem Grid.le_high_iff : k * (Grid.of x p).step ≤ (Grid.of x p).high ↔
    (4 : ℚ) * (k * 10 ^ p) ≤ (4 * x.mantissa + 2) * 2 ^ x.exponent := by
  rw [four_mul_decimal, ← cast_high, ge_iff_scaled, Grid.mul_step]
  rfl

theorem Grid.lt_high_iff : k * (Grid.of x p).step < (Grid.of x p).high ↔
    (4 : ℚ) * (k * 10 ^ p) < (4 * x.mantissa + 2) * 2 ^ x.exponent := by
  rw [four_mul_decimal, ← cast_high, lt_iff_not_ge, lt_iff_not_ge, le_iff_scaled, Grid.mul_step]
  rfl

include hpos in
/-- A point of a grid that is a hit is covered by the double. -/
theorem Grid.covers_of_hits (h : (Grid.of x p).hits k = true) : x.Covers (k * 10 ^ p) := by
  have hclosed : (Grid.of x p).closed = (x.mantissa % 2 == 0) := rfl
  unfold Grid.hits at h
  rw [hclosed] at h
  by_cases heven : x.mantissa % 2 = 0
  · simp only [heven, beq_self_eq_true, if_true, Bool.and_eq_true, decide_eq_true_eq] at h
    exact ⟨(Grid.low_le_iff hpos p k).1 h.1, (Grid.le_high_iff p k).1 h.2, fun hodd => by omega⟩
  · simp only [beq_iff_eq, heven, if_false, Bool.and_eq_true, decide_eq_true_eq] at h
    exact ⟨(Grid.low_le_iff hpos p k).1 h.1.le, (Grid.le_high_iff p k).1 h.2.le,
      fun _ => ⟨(Grid.low_lt_iff hpos p k).1 h.1, (Grid.lt_high_iff p k).1 h.2⟩⟩

end Grid

theorem Grid.hits_of_lt {g : Grid} {k : Nat} (low : g.low < k * g.step)
    (high : k * g.step < g.high) : g.hits k = true := by
  unfold Grid.hits
  split <;> simp only [Bool.and_eq_true, decide_eq_true_eq] <;> omega

theorem Grid.hits_of_hit? {g : Grid} {k : Nat} (h : g.hit? = some k) : g.hits k = true := by
  unfold Grid.hit? at h
  dsimp only at h
  split at h
  · rename_i h1 h2
    split at h
    · cases h
      exact h1
    · split at h
      · cases h
        exact h2
      · split at h <;> cases h <;> assumption
  · cases h
    assumption
  · cases h
    assumption
  · cases h

theorem Grid.exists_hit? {g : Grid} (h : g.hits (g.value / g.step) = true ∨
    g.hits (g.value / g.step + 1) = true) : ∃ k, g.hit? = some k := by
  unfold Grid.hit?
  dsimp only
  split
  · split
    · exact ⟨_, rfl⟩
    · split
      · exact ⟨_, rfl⟩
      · split <;> exact ⟨_, rfl⟩
  · exact ⟨_, rfl⟩
  · exact ⟨_, rfl⟩
  · simp_all

/-- A grid whose step is shorter than the interval has a hit. -/
theorem Grid.exists_hit?_of_step_lt (hpos : 0 < x.mantissa) (p : Int)
    (h : 4 * (10 : ℚ) ^ p < (x.below + 2) * 2 ^ x.exponent) :
    ∃ k, (Grid.of x p).hit? = some k := by
  have hcast : (4 : ℚ) = ((4 : ℕ) : ℚ) ∧ (x.below + 2 : ℚ) = ((x.below + 2 : ℕ) : ℚ) := by
    push_cast
    exact ⟨rfl, rfl⟩
  rw [hcast.1, hcast.2, lt_iff_not_ge, le_iff_scaled, not_le] at h
  have hunit : 0 < 2 ^ x.exponent.toNat * 10 ^ (-p).toNat := by positivity
  have hstep : (Grid.of x p).step = 4 * (10 ^ p.toNat * 2 ^ (-x.exponent).toNat) := by
    simp only [Grid.of, pow2_eq, pow10_eq]
    ring
  have hvalue : (Grid.of x p).value = 4 * x.mantissa * (2 ^ x.exponent.toNat * 10 ^ (-p).toNat) :=
    rfl
  have hlow : (Grid.of x p).low + x.below * (2 ^ x.exponent.toNat * 10 ^ (-p).toNat) =
      (Grid.of x p).value := by
    have : x.below ≤ 4 * x.mantissa := by
      unfold below
      split <;> omega
    have hsum := Nat.add_mul (4 * x.mantissa - x.below) x.below
      (2 ^ x.exponent.toNat * 10 ^ (-p).toNat)
    rw [Nat.sub_add_cancel this] at hsum
    exact hsum.symm
  have hhigh : (Grid.of x p).high =
      (Grid.of x p).value + 2 * (2 ^ x.exponent.toNat * 10 ^ (-p).toNat) := by
    rw [hvalue, ← Nat.add_mul]
    rfl
  rw [← hstep] at h
  rw [Nat.add_mul] at h
  generalize 2 ^ x.exponent.toNat * 10 ^ (-p).toNat = unit at *
  generalize Grid.of x p = g at *
  have hbelow : 0 < x.below * unit := by
    unfold below
    split <;> omega
  have hsplit := Nat.div_add_mod g.value g.step
  have hmod : g.value % g.step < g.step := Nat.mod_lt _ (by rw [hstep]; positivity)
  have hmul := Nat.mul_comm g.step (g.value / g.step)
  have hnext := Nat.add_mul (g.value / g.step) 1 g.step
  refine Grid.exists_hit? ?_
  by_cases hr : g.value % g.step < x.below * unit
  · exact .inl (Grid.hits_of_lt (by omega) (by omega))
  · exact .inr (Grid.hits_of_lt (by omega) (by omega))

/-! ## The decimal exponent -/

theorem atLeastPower_iff (x : Binary) (e : Int) :
    x.atLeastPower e = true ↔ (10 : ℚ) ^ e ≤ x.value := by
  have h := ge_iff_scaled x.mantissa 1 x.exponent e
  rw [Nat.cast_one, one_mul, one_mul] at h
  unfold Binary.atLeastPower Binary.value
  rw [h, decide_eq_true_eq]
  simp only [pow2_eq, pow10_eq, Nat.mul_assoc]

theorem ten_pow_le (n : Nat) (h : n < 1100) : 10 ^ (n * 30103 / 100000) ≤ 10 * 2 ^ n := by
  revert n
  decide +kernel

theorem two_pow_le (n : Nat) (h : n < 1100) : 2 ^ n ≤ 10 ^ (n * 30103 / 100000 + 1) := by
  revert n
  decide +kernel

/-- The decimal exponent worked out from the binary one is too large by at most one. -/
theorem pow_guess_le {l : ℤ} (hlow : -1100 < l) (hhigh : l < 1100) :
    (10 : ℚ) ^ (l * 30103 / 100000 - 1) ≤ 2 ^ l := by
  rcases Int.eq_nat_or_neg l with ⟨n, rfl | rfl⟩
  · have h : (10 : ℚ) ^ (n * 30103 / 100000) ≤ 10 * 2 ^ n := by
      exact_mod_cast ten_pow_le n (by omega)
    rw [show (n : ℤ) * 30103 / 100000 = ((n * 30103 / 100000 : ℕ) : ℤ) by omega,
      zpow_sub₀ (by norm_num), zpow_natCast, zpow_natCast, zpow_one, div_le_iff₀ (by norm_num)]
    linarith
  · have h : (2 : ℚ) ^ n ≤ 10 ^ (n * 30103 / 100000 + 1) := by
      exact_mod_cast two_pow_le n (by omega)
    rw [zpow_neg, zpow_natCast]
    refine le_trans (zpow_le_zpow_right₀ (n := -((n * 30103 / 100000 + 1 : ℕ) : ℤ))
      (by norm_num) (by omega)) ?_
    rw [zpow_neg, zpow_natCast]
    exact inv_anti₀ (by positivity) h

theorem pow_log2_le (hpos : 0 < x.mantissa) :
    (2 : ℚ) ^ ((x.mantissa.log2 : ℤ) + x.exponent) ≤ x.value := by
  have h : ((2 ^ x.mantissa.log2 : ℕ) : ℚ) ≤ x.mantissa := by
    exact_mod_cast Nat.log2_self_le hpos.ne'
  rw [zpow_add₀ (by norm_num), zpow_natCast]
  unfold Binary.value
  push_cast at h
  gcongr

/-- The decimal exponent of a double is never too large. -/
theorem pow_magnitude_le (hx : x.Canonical) (hpos : 0 < x.mantissa) :
    (10 : ℚ) ^ x.magnitude ≤ x.value := by
  unfold Binary.magnitude
  dsimp only
  split
  · exact (atLeastPower_iff x _).1 ‹_›
  · split
    · exact (atLeastPower_iff x _).1 ‹_›
    · have hlow := hx.low
      have hhigh := hx.high
      have hlog : x.mantissa.log2 < 53 := (Nat.log2_lt hpos.ne').2 hx.small
      exact (pow_guess_le (by omega) (by omega)).trans (pow_log2_le hpos)

/-! ## The search -/

/-- Seventeen digits are enough. -/
theorem exists_hit (hx : x.Canonical) (hpos : 0 < x.mantissa) :
    ∃ k, (Grid.of x (x.magnitude - 16)).hit? = some k := by
  refine Grid.exists_hit?_of_step_lt hpos _ ?_
  have hle := pow_magnitude_le hx hpos
  have hulp : (0 : ℚ) < 2 ^ x.exponent := by positivity
  have hwide : (4 * x.mantissa : ℚ) < (x.below + 2) * 10 ^ 16 := by
    have hsmall := hx.small
    have hnarrow := hx.narrow_iff
    have : 4 * x.mantissa < (x.below + 2) * 10 ^ 16 := by
      by_cases hn : x.narrow = true
      · have := (hnarrow.1 hn).1
        rw [below, if_pos hn]
        omega
      · rw [below, if_neg hn]
        omega
    exact_mod_cast this
  rw [zpow_sub₀ (by norm_num), ← mul_div_assoc, div_lt_iff₀ (by norm_num)]
  calc 4 * (10 : ℚ) ^ x.magnitude ≤ 4 * x.value := by gcongr
    _ = 4 * x.mantissa * 2 ^ x.exponent := by rw [Binary.value]; ring
    _ < (x.below + 2) * 10 ^ 16 * 2 ^ x.exponent := by gcongr
    _ = (x.below + 2) * 2 ^ x.exponent * 10 ^ (16 : ℤ) := by norm_num; ring

/-- The search ends with a hit if one of the grids it tries has one. -/
theorem searchGrids_eq (x : Binary) (m : Int) : ∀ tries count : Nat,
    (∃ i < tries, ∃ k, (Grid.of x (m - (count + i : ℕ) + 1)).hit? = some k) →
      ∃ k p, searchGrids x m tries count = ⟨k, p⟩ ∧ (Grid.of x p).hit? = some k
  | 0, count, ⟨i, hi, _⟩ => absurd hi (Nat.not_lt_zero i)
  | tries + 1, count, ⟨i, hi, k, hk⟩ => by
    unfold searchGrids
    dsimp only
    split
    · exact ⟨_, _, rfl, ‹_›⟩
    · rename_i hnone
      cases i with
      | zero => simp_all
      | succ i =>
        refine searchGrids_eq x m tries (count + 1) ⟨i, by omega, k, ?_⟩
        rwa [Nat.add_right_comm, Nat.add_assoc]

theorem value_trimZeros : ∀ (fuel : Nat) (d : Scaled), (trimZeros fuel d).value = d.value
  | 0, d => rfl
  | fuel + 1, d => by
    unfold trimZeros
    split
    · rename_i h
      simp only [Bool.and_eq_true, decide_eq_true_eq] at h
      rw [value_trimZeros fuel]
      have hten : (d.digits : ℚ) = (d.digits / 10 : ℕ) * 10 := by
        exact_mod_cast (Nat.div_mul_cancel (Nat.dvd_of_mod_eq_zero h.1)).symm
      unfold Scaled.value
      rw [hten, zpow_add₀ (by norm_num)]
      ring
    · rfl

/-- The shortest decimal of a positive double is one that the double covers. -/
theorem shortest_covers (hx : x.Canonical) (hpos : 0 < x.mantissa) :
    x.Covers (shortest x).value := by
  obtain ⟨j, hj⟩ := exists_hit hx hpos
  obtain ⟨k, p, hsearch, hk⟩ := searchGrids_eq x x.magnitude 18 1
    ⟨16, by norm_num, j, by rw [← hj]; congr 2; omega⟩
  rw [shortest, if_neg hpos.ne', value_trimZeros, hsearch]
  exact Grid.covers_of_hits hpos p k (Grid.hits_of_hit? hk)

end PlanReview.Decimal
