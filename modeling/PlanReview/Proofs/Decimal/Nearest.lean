import Mathlib.Algebra.Order.Field.Power
import Mathlib.Data.Rat.Cast.Order
import Mathlib.Tactic.FieldSimp
import Mathlib.Tactic.Linarith
import Mathlib.Tactic.Positivity
import Mathlib.Tactic.Ring
import PlanReview.Decimal.Numeral

/-!
# Rounding to the nearest double

Every finite double covers an interval of rationals (`Binary.Covers`) : those that are nearest to
it, and the two middles if its bits are even. `nearestBits` gives a fraction the bits of the double
that covers it (`nearestBits_of_covers`), so `ofDecimal` gives back a double from any decimal that
the double covers (`decimalBits_of_covers`).

The interval below a power of two is only half as wide, because the doubles there are closer. A
fraction in it is counted in the smaller units, and the count overflows into the right bits.
-/

namespace PlanReview.Decimal

@[simp] theorem pow2_eq (n : Nat) : pow2 n = 2 ^ n := rfl

@[simp] theorem pow10_eq (n : Nat) : pow10 n = 10 ^ n := rfl

/-! ## Rounding a quotient -/

/-- A quotient is rounded to `m` if it is at most a half away, and less than that for an odd
`m`. -/
theorem roundDiv_eq {a b m : Nat} (hb : 0 < b) (low : 2 * (m * b) ≤ 2 * a + b)
    (high : 2 * a ≤ 2 * (m * b) + b)
    (odd : m % 2 = 1 → 2 * (m * b) < 2 * a + b ∧ 2 * a < 2 * (m * b) + b) :
    roundDiv a b = m := by
  have hsplit := Nat.div_add_mod a b
  have hr := Nat.mod_lt a hb
  unfold roundDiv
  dsimp only
  generalize a / b = q at *
  generalize a % b = r at *
  subst hsplit
  have hq : q ≤ m := by
    by_contra hlt
    have := Nat.mul_le_mul_left b (Nat.succ_le_of_lt (Nat.lt_of_not_le hlt))
    rw [Nat.mul_succ, Nat.mul_comm b m] at this
    omega
  have hm : m ≤ q + 1 := by
    by_contra hlt
    have := Nat.mul_le_mul_left b (Nat.succ_le_of_lt (Nat.lt_of_not_le hlt))
    rw [Nat.mul_succ, Nat.mul_succ, Nat.mul_comm b m] at this
    omega
  rcases Nat.eq_or_lt_of_le hq with rfl | hlt
  · rw [Nat.mul_comm b q] at *
    split
    · rfl
    · split
      · omega
      · split <;> omega
  · obtain rfl : m = q + 1 := by omega
    rw [Nat.add_mul, Nat.one_mul, Nat.mul_comm q b] at *
    split
    · omega
    · split
      · rfl
      · split <;> omega

/-! ## The doubles as counts of units -/

/-- The number of binary digits before the last place of a fraction with a given number of whole
units. -/
theorem shift_eq {units d e : Nat} (hd : 0 < d) (low : 0 < e → 2 ^ 52 * (d * 2 ^ e) ≤ units)
    (high : units < 2 ^ 53 * (d * 2 ^ e)) : (units / d).log2 - 52 = e := by
  have hlt : units / d < 2 ^ (53 + e) := by
    rw [Nat.div_lt_iff_lt_mul hd, pow_add, mul_assoc, mul_comm (2 ^ e)]
    exact high
  rcases Nat.eq_zero_or_pos e with rfl | he
  · by_cases h0 : units / d = 0
    · simp [h0]
    · have := (Nat.log2_lt h0).2 hlt
      omega
  · have hle : 2 ^ (52 + e) ≤ units / d := by
      rw [Nat.le_div_iff_mul_le hd, pow_add, mul_assoc, mul_comm (2 ^ e)]
      exact low he
    have hpos : units / d ≠ 0 := by
      have := Nat.two_pow_pos (52 + e)
      omega
    have h1 := (Nat.le_log2 hpos).2 hle
    have h2 := (Nat.log2_lt hpos).2 hlt
    omega

/-- The bits of the nearest double, counted in units of its own last place. -/
theorem nearestBits_of_shift {n d m e : Nat} (hd : 0 < d) (he : e ≤ 2045) (hm : m ≤ 2 ^ 53)
    (first : 0 < e → 2 ^ 52 * (d * 2 ^ e) ≤ n * 2 ^ 1074)
    (last : n * 2 ^ 1074 < 2 ^ 53 * (d * 2 ^ e))
    (low : 2 * (m * (d * 2 ^ e)) ≤ 2 * (n * 2 ^ 1074) + d * 2 ^ e)
    (high : 2 * (n * 2 ^ 1074) ≤ 2 * (m * (d * 2 ^ e)) + d * 2 ^ e)
    (odd : m % 2 = 1 → 2 * (m * (d * 2 ^ e)) < 2 * (n * 2 ^ 1074) + d * 2 ^ e ∧
      2 * (n * 2 ^ 1074) < 2 * (m * (d * 2 ^ e)) + d * 2 ^ e) :
    nearestBits n d = e * 2 ^ 52 + m := by
  have hpos : 0 < d * 2 ^ e := Nat.mul_pos hd (Nat.two_pow_pos e)
  unfold nearestBits infinityBits
  simp only [pow2_eq]
  rw [shift_eq hd first last, roundDiv_eq hpos low high odd, Nat.min_eq_right]
  calc e * 2 ^ 52 + m ≤ 2045 * 2 ^ 52 + 2 ^ 53 := by gcongr
    _ = 2047 * 2 ^ 52 := by norm_num

/-! ## The interval of a double -/

namespace Binary

/-- The magnitude as a rational. -/
def value (x : Binary) : ℚ := x.mantissa * 2 ^ x.exponent

/-- The bits of the magnitude. -/
def bits (x : Binary) : Nat :=
  (x.exponent + 1074).toNat * 2 ^ 52 + x.mantissa

/-- The quarters of the last place that belong to a double below its value. -/
def below (x : Binary) : Nat :=
  if x.narrow then 1 else 2

/-- The form in which doubles are read. -/
structure Canonical (x : Binary) : Prop where
  low : -1074 ≤ x.exponent
  high : x.exponent ≤ 971
  small : x.mantissa < 2 ^ 53
  normal : -1074 < x.exponent → 2 ^ 52 ≤ x.mantissa
  narrow_iff : x.narrow = true ↔ x.mantissa = 2 ^ 52 ∧ -1074 < x.exponent

/-- A rational that is nearest to a double. -/
structure Covers (x : Binary) (v : ℚ) : Prop where
  low : (4 * x.mantissa - x.below) * 2 ^ x.exponent ≤ 4 * v
  high : 4 * v ≤ (4 * x.mantissa + 2) * 2 ^ x.exponent
  odd : x.mantissa % 2 = 1 →
    (4 * x.mantissa - x.below) * 2 ^ x.exponent < 4 * v ∧
      4 * v < (4 * x.mantissa + 2) * 2 ^ x.exponent

variable {x : Binary} {n k d e : Nat} {v : ℚ}

/-- A fraction in units of a last place. -/
theorem div_eq_units (n k : Nat) {d e : Nat} (hd : 0 < d) :
    (n : ℚ) / d = (n * 2 ^ k : ℕ) / (d * 2 ^ e : ℕ) * 2 ^ ((e : ℤ) - k) := by
  have hd' : (d : ℚ) ≠ 0 := by exact_mod_cast hd.ne'
  rw [zpow_sub₀ (by norm_num), zpow_natCast, zpow_natCast]
  push_cast
  field_simp

theorem le_div_iff_units {c : ℚ} {n k d e : Nat} (hd : 0 < d) :
    c * 2 ^ ((e : ℤ) - k) ≤ 4 * ((n : ℚ) / d) ↔ c * (d * 2 ^ e : ℕ) ≤ 4 * (n * 2 ^ k : ℕ) := by
  have hpos : (0 : ℚ) < (d * 2 ^ e : ℕ) := by positivity
  have hunit : (0 : ℚ) < 2 ^ ((e : ℤ) - k) := by positivity
  rw [div_eq_units n k hd, ← mul_assoc, mul_le_mul_iff_left₀ hunit, ← mul_div_assoc,
    le_div_iff₀ hpos]

theorem div_le_iff_units {c : ℚ} {n k d e : Nat} (hd : 0 < d) :
    4 * ((n : ℚ) / d) ≤ c * 2 ^ ((e : ℤ) - k) ↔ 4 * (n * 2 ^ k : ℕ) ≤ c * (d * 2 ^ e : ℕ) := by
  have hpos : (0 : ℚ) < (d * 2 ^ e : ℕ) := by positivity
  have hunit : (0 : ℚ) < 2 ^ ((e : ℤ) - k) := by positivity
  rw [div_eq_units n k hd, ← mul_assoc, mul_le_mul_iff_left₀ hunit, ← mul_div_assoc,
    div_le_iff₀ hpos]

/-- The interval of a double, counted in units of its last place. -/
theorem Covers.units (h : x.Covers ((n : ℚ) / d)) (hd : 0 < d) (he : x.exponent = (e : ℤ) - k) :
    4 * (x.mantissa * (d * 2 ^ e)) ≤ 4 * (n * 2 ^ k) + x.below * (d * 2 ^ e) ∧
      4 * (n * 2 ^ k) ≤ 4 * (x.mantissa * (d * 2 ^ e)) + 2 * (d * 2 ^ e) ∧
      (x.mantissa % 2 = 1 →
        4 * (x.mantissa * (d * 2 ^ e)) < 4 * (n * 2 ^ k) + x.below * (d * 2 ^ e) ∧
          4 * (n * 2 ^ k) < 4 * (x.mantissa * (d * 2 ^ e)) + 2 * (d * 2 ^ e)) := by
  obtain ⟨hlow, hhigh, hodd⟩ := h
  rw [he, le_div_iff_units hd] at hlow
  rw [he, div_le_iff_units hd] at hhigh
  rw [he, lt_iff_not_ge, lt_iff_not_ge, le_div_iff_units hd, div_le_iff_units hd, not_le,
    not_le] at hodd
  generalize d * 2 ^ e = unit at *
  generalize n * 2 ^ k = count at *
  refine ⟨?_, ?_, fun hm => ⟨?_, ?_⟩⟩
  · have : (4 * (x.mantissa * unit) : ℚ) ≤ 4 * count + x.below * unit := by linarith
    exact_mod_cast this
  · have : (4 * count : ℚ) ≤ 4 * (x.mantissa * unit) + 2 * unit := by linarith
    exact_mod_cast this
  · have : (4 * (x.mantissa * unit) : ℚ) < 4 * count + x.below * unit := by
      linarith [(hodd hm).1]
    exact_mod_cast this
  · have : (4 * count : ℚ) < 4 * (x.mantissa * unit) + 2 * unit := by linarith [(hodd hm).2]
    exact_mod_cast this

/-- The bits of a fraction are those of the double that covers it. -/
theorem nearestBits_of_covers (hx : x.Canonical) (hd : 0 < d) (h : x.Covers ((n : ℚ) / d)) :
    nearestBits n d = x.bits := by
  obtain ⟨e, he⟩ : ∃ e : ℕ, x.exponent = (e : ℤ) - (1074 : ℕ) :=
    ⟨(x.exponent + 1074).toNat, by have := hx.low; omega⟩
  have hbits : x.bits = e * 2 ^ 52 + x.mantissa := by
    unfold bits
    congr 2
    omega
  have hsmall := hx.small
  have hhigh := hx.high
  have hnormal := hx.normal
  have hbelow : x.below = 1 ∧ x.mantissa = 2 ^ 52 ∧ 0 < e ∨
      x.below = 2 ∧ ¬ (x.mantissa = 2 ^ 52 ∧ 0 < e) := by
    by_cases hn : x.narrow = true
    · obtain ⟨hm, he'⟩ := hx.narrow_iff.1 hn
      exact .inl ⟨if_pos hn, hm, by omega⟩
    · exact .inr ⟨if_neg hn, fun h => hn (hx.narrow_iff.2 ⟨h.1, by omega⟩)⟩
  obtain ⟨h1, h2, h3⟩ := h.units hd he
  have hunit : 0 < d * 2 ^ e := Nat.mul_pos hd (Nat.two_pow_pos e)
  rw [hbits]
  by_cases hpart : 0 < e → 2 ^ 52 * (d * 2 ^ e) ≤ n * 2 ^ 1074
  · have hlast : x.mantissa * (d * 2 ^ e) ≤ (2 ^ 53 - 1) * (d * 2 ^ e) := by
      gcongr
      omega
    refine nearestBits_of_shift hd (by omega) (by omega) hpart ?_ ?_ ?_ ?_ <;>
      rcases hbelow with ⟨hb, -⟩ | ⟨hb, -⟩ <;> rw [hb] at h1 h3 <;> omega
  · -- the fraction lies below a power of two, where the next smaller unit counts
    obtain ⟨hpos, hlt⟩ := Classical.not_imp.1 hpart
    have hm : x.mantissa = 2 ^ 52 := by
      by_contra hne
      have hle : (2 ^ 52 + 1) * (d * 2 ^ e) ≤ x.mantissa * (d * 2 ^ e) := by
        have := hnormal (by omega)
        gcongr
        omega
      rcases hbelow with ⟨-, hm, -⟩ | ⟨hb, -⟩
      · exact hne hm
      · rw [hb] at h1
        omega
    have hb : x.below = 1 := by
      rcases hbelow with ⟨hb, -⟩ | ⟨-, hne⟩
      · exact hb
      · exact (hne ⟨hm, hpos⟩).elim
    obtain ⟨e, rfl⟩ : ∃ e', e = e' + 1 := ⟨e - 1, by omega⟩
    have hdouble : d * 2 ^ (e + 1) = 2 * (d * 2 ^ e) := by ring
    rw [hdouble] at hlt h1 h2 hunit
    rw [hm, hb] at h1
    rw [hm] at h2 ⊢
    have hshift : nearestBits n d = e * 2 ^ 52 + 2 ^ 53 := by
      refine nearestBits_of_shift hd (by omega) le_rfl ?_ ?_ ?_ ?_ ?_ <;> omega
    rw [hshift]
    ring

/-! ## Decimals -/

theorem Covers.value_gt (h : x.Covers v) (hx : x.Canonical) (hpos : 0 < x.mantissa) :
    (2 : ℚ) ^ (-1076 : ℤ) < v := by
  have hbelow : (x.below : ℚ) ≤ 2 := by
    unfold below
    split <;> norm_num
  have hm : (1 : ℚ) ≤ x.mantissa := by exact_mod_cast hpos
  have hunit : (2 : ℚ) ^ (-1074 : ℤ) ≤ 2 ^ x.exponent := zpow_le_zpow_right₀ (by norm_num) hx.low
  have hlast : (2 : ℚ) ^ (-1074 : ℤ) = 4 * 2 ^ (-1076 : ℤ) := by
    rw [show (-1074 : ℤ) = 2 + -1076 by norm_num, zpow_add₀ (by norm_num)]
    norm_num
  have htwo : (2 : ℚ) * 2 ^ x.exponent ≤ 4 * v := by
    refine le_trans ?_ h.low
    gcongr
    linarith
  have : (0 : ℚ) < 2 ^ (-1076 : ℤ) := by positivity
  linarith

theorem Covers.value_lt (h : x.Covers v) (hx : x.Canonical) : v < (2 : ℚ) ^ (1024 : ℤ) := by
  have hm : (x.mantissa : ℚ) + 1 ≤ 2 ^ (53 : ℕ) := by exact_mod_cast hx.small
  have hunit : (2 : ℚ) ^ x.exponent ≤ 2 ^ (971 : ℤ) := zpow_le_zpow_right₀ (by norm_num) hx.high
  have hpos : (0 : ℚ) < 2 ^ x.exponent := by positivity
  have hlast : (2 : ℚ) ^ (1024 : ℤ) = 2 ^ (53 : ℕ) * 2 ^ (971 : ℤ) := by
    rw [show (1024 : ℤ) = (53 : ℕ) + 971 by norm_num, zpow_add₀ (by norm_num), zpow_natCast]
  rw [hlast]
  calc v ≤ (x.mantissa + 1 / 2) * 2 ^ x.exponent := by linarith [h.high]
    _ < (x.mantissa + 1) * 2 ^ x.exponent := by gcongr; norm_num
    _ ≤ 2 ^ (53 : ℕ) * 2 ^ (971 : ℤ) := by gcongr

/-- The number of digits of a positive number brackets it. -/
theorem pow_length_bracket {n : Nat} (h : 0 < n) :
    10 ^ ((toString n).length - 1) ≤ n ∧ n < 10 ^ (toString n).length := by
  have hpos : 0 < (toString n).length := Nat.length_repr_pos
  refine ⟨?_, (Nat.length_repr_le_iff hpos).1 le_rfl⟩
  by_contra hlt
  rcases Nat.eq_zero_or_pos ((toString n).length - 1) with h0 | h0
  · rw [h0] at hlt
    omega
  · have := (Nat.length_repr_le_iff h0).2 (Nat.lt_of_not_le hlt)
    simp only [Nat.toString_eq_repr] at *
    omega

theorem le_ten_zpow (n : ℕ) {k : ℤ} (hk : k ≤ 3 * n) : (2 : ℚ) ^ k ≤ 10 ^ (n : ℤ) := by
  calc (2 : ℚ) ^ k ≤ 2 ^ (3 * n : ℤ) := zpow_le_zpow_right₀ (by norm_num) hk
    _ = ((2 : ℚ) ^ (3 : ℤ)) ^ (n : ℤ) := zpow_mul _ _ _
    _ ≤ 10 ^ (n : ℤ) := by
      rw [zpow_natCast, zpow_natCast]
      exact pow_le_pow_left₀ (by norm_num) (by norm_num) n

theorem ten_zpow_neg_le (n : ℕ) {k : ℤ} (hk : -(3 * n : ℤ) ≤ k) :
    (10 : ℚ) ^ (-(n : ℤ)) ≤ 2 ^ k := by
  rw [← neg_neg k, zpow_neg, zpow_neg]
  exact inv_anti₀ (by positivity) (le_ten_zpow n (by omega))

/-- A decimal as a fraction of powers of ten. -/
theorem decimal_eq_div (digits : Nat) (exponent : Int) :
    ((digits * 10 ^ exponent.toNat : ℕ) : ℚ) / (10 ^ (-exponent).toNat : ℕ) =
      digits * 10 ^ exponent := by
  push_cast
  rw [mul_div_assoc, ← zpow_natCast, ← zpow_natCast, ← zpow_sub₀ (by norm_num)]
  congr 2
  omega

/-- The bits of a decimal are those of the positive double that covers it. -/
theorem decimalBits_of_covers (hx : x.Canonical) (hpos : 0 < x.mantissa) {digits : Nat}
    {exponent : Int} (h : x.Covers (digits * 10 ^ exponent)) :
    decimalBits digits exponent = x.bits := by
  have hlow := h.value_gt hx hpos
  have hhigh := h.value_lt hx
  have hdigits : 0 < digits := by
    by_contra h0
    obtain rfl : digits = 0 := by omega
    have : (0 : ℚ) < 2 ^ (-1076 : ℤ) := by positivity
    simp only [Nat.cast_zero, zero_mul] at hlow
    linarith
  obtain ⟨hfirst, hlast⟩ := pow_length_bracket hdigits
  have hlen : 0 < (toString digits).length := Nat.length_repr_pos
  unfold decimalBits
  generalize (toString digits).length = len at *
  have hten : (0 : ℚ) < 10 ^ exponent := by positivity
  have hup : (digits : ℚ) * 10 ^ exponent < 10 ^ (len + exponent : ℤ) := by
    rw [zpow_add₀ (by norm_num), zpow_natCast]
    gcongr
    exact_mod_cast hlast
  have hdown : (10 : ℚ) ^ (len + exponent - 1 : ℤ) ≤ digits * 10 ^ exponent := by
    rw [show (len + exponent - 1 : ℤ) = ((len - 1 : ℕ) : ℤ) + exponent by omega,
      zpow_add₀ (by norm_num), zpow_natCast]
    gcongr
    exact_mod_cast hfirst
  have hsmall : ¬ (len + exponent < -400) := by
    intro hsize
    have hle : (10 : ℚ) ^ (len + exponent : ℤ) ≤ 10 ^ (-(400 : ℕ) : ℤ) :=
      zpow_le_zpow_right₀ (by norm_num) (by omega)
    exact absurd (hlow.trans hup) (not_lt.2 (hle.trans (ten_zpow_neg_le 400 (by norm_num))))
  have hlarge : ¬ (400 < len + exponent) := by
    intro hsize
    have hle : (10 : ℚ) ^ ((400 : ℕ) : ℤ) ≤ 10 ^ (len + exponent - 1 : ℤ) :=
      zpow_le_zpow_right₀ (by norm_num) (by omega)
    exact absurd (hdown.trans_lt hhigh) (not_lt.2 ((le_ten_zpow 400 (by norm_num)).trans hle))
  have hguard : ¬ ((decide (digits = 0) || decide ((len : ℤ) + exponent < -400)) = true) := by
    simp [hdigits.ne', hsmall]
  dsimp only
  rw [if_neg hguard, if_neg hlarge]
  simp only [pow10_eq]
  refine nearestBits_of_covers hx (Nat.pow_pos (by norm_num)) ?_
  rwa [decimal_eq_div]

end Binary

end PlanReview.Decimal
