import PlanReview.Proofs.Decimal.Nearest

/-!
# The bits of a double
-/

namespace PlanReview.Decimal

open Float.Model.UnpackedFloat
open Float.Model (Format)

/-- The three fields of a double, put together again. -/
theorem packComponents_fields (b : BitVec Format.binary64.numBits) :
    packComponents .binary64 (Sign.ofBitVec (unpackSign b)) (unpackExponent b)
      (unpackMantissa b) = b := by
  have hsign : ∀ s : BitVec 1, (Sign.ofBitVec s).toBitVec = s := by decide
  rw [packComponents, hsign]
  unfold unpackSign unpackExponent unpackMantissa BitVec.extractLsb
  ext i hi
  grind

theorem pack_unpack {b : BitVec Format.binary64.numBits} (h : Format.binary64.Valid b) :
    pack Format.binary64 (unpack Format.binary64 b) = b := by
  have hfields := packComponents_fields b
  have hexp : (unpackExponent b).toNat < 2 ^ 11 := (unpackExponent b).isLt
  have hman : (unpackMantissa b).toNat < 2 ^ 52 := (unpackMantissa b).isLt
  unfold unpack
  dsimp only
  by_cases he : unpackExponent b = -1#11
  · rw [if_pos he]
    by_cases hm : unpackMantissa b = 0#52
    · rw [if_pos hm]
      rw [he, hm] at hfields
      exact hfields
    · rw [if_neg hm]
      exact (h.eq_packedNaN he hm).symm
  · rw [if_neg he]
    by_cases he' : unpackExponent b = 0#11
    · rw [if_pos he']
      by_cases hm : unpackMantissa b = 0#52
      · rw [dif_pos hm]
        rw [he', hm] at hfields
        exact hfields
      · rw [dif_neg hm]
        -- below the normal doubles the leading digit is missing
        rw [he'] at hfields
        unfold pack
        dsimp only
        rw [if_neg, if_neg]
        · simpa using hfields
        · have hlog : (unpackMantissa b).toNat.log2 < 52 :=
            (Nat.log2_lt fun h0 => hm (BitVec.eq_of_toNat_eq h0)).2 hman
          rw [show Format.binary64.mantissaBits = 53 from rfl]
          omega
        · rw [he']
          decide
    · rw [if_neg he']
      have hpos : (unpackExponent b).toNat ≠ 2047 := fun h0 => he (BitVec.eq_of_toNat_eq h0)
      have hone : (1#1 ++ unpackMantissa b).toNat = 2 ^ 52 + (unpackMantissa b).toNat := by
        rw [BitVec.toNat_append, ← Nat.shiftLeft_add_eq_or_of_lt hman]
        rfl
      have hlog : (2 ^ 52 + (unpackMantissa b).toNat).log2 = 52 := by
        rw [Nat.log2_eq_iff (by omega)]
        exact ⟨by omega, by omega⟩
      have hbiased : ((unpackExponent b).toNat -
          ((Format.binary64.exponentBias : ℤ) + (52 : ℕ)) + Format.binary64.exponentBias +
          (52 : ℕ)).toNat = (unpackExponent b).toNat := by
        omega
      unfold pack
      dsimp only
      simp only [hone, hlog, hbiased]
      rw [if_neg, if_pos (by decide), BitVec.ofNat_toNat, BitVec.ofNat_add, BitVec.ofNat_toNat]
      · simpa using hfields
      · omega

theorem ofBits_toBits (x : Float) : Float.ofBits x.toBits = x := by
  obtain ⟨⟨bits, valid⟩⟩ := x
  unfold Float.ofBits Float.toBits Float.Model.ofBits Float.Model.pack
  dsimp only
  congr 2
  rw [pack_unpack valid]

/-! ## Reading a double -/

theorem toNat_unpackExponent (b : BitVec Format.binary64.numBits) :
    (unpackExponent b).toNat = b.toNat / 2 ^ 52 % 2 ^ 11 := by
  unfold unpackExponent
  rw [BitVec.toNat_cast, BitVec.extractLsb_toNat, Nat.shiftRight_eq_div_pow]
  rfl

variable {x : Float} {b : Binary}

/-- What is read of a finite double. -/
theorem ofFloat_eq_finite_iff : Reading.ofFloat x = .finite b ↔
    x.toBits.toNat / 2 ^ 52 % 2 ^ 11 ≠ 2047 ∧
      b.negative = (x.toBits.toNat / 2 ^ 63 == 1) ∧
      (x.toBits.toNat / 2 ^ 52 % 2 ^ 11 = 0 ∧ b.mantissa = x.toBits.toNat % 2 ^ 52 ∧
          b.exponent = -1074 ∧ b.narrow = false ∨
        x.toBits.toNat / 2 ^ 52 % 2 ^ 11 ≠ 0 ∧ b.mantissa = x.toBits.toNat % 2 ^ 52 + 2 ^ 52 ∧
          b.exponent = (x.toBits.toNat / 2 ^ 52 % 2 ^ 11 : ℕ) - 1075 ∧
          b.narrow = (x.toBits.toNat % 2 ^ 52 == 0 &&
            decide (1 < x.toBits.toNat / 2 ^ 52 % 2 ^ 11))) := by
  unfold Reading.ofFloat
  dsimp only
  rw [pow2_eq, pow2_eq, pow2_eq]
  generalize x.toBits.toNat % 2 ^ 52 = fraction
  generalize x.toBits.toNat / 2 ^ 52 % 2 ^ 11 = biased
  obtain ⟨negative, mantissa, exponent, narrow⟩ := b
  by_cases h1 : biased = 2047
  · rw [if_pos h1]
    split <;> simp [h1]
  · by_cases h2 : biased = 0
    · rw [if_neg h1, if_pos h2]
      simp [h2, eq_comm]
    · rw [if_neg h1, if_neg h2]
      simp [h1, h2, eq_comm]

/-- A double is finite exactly if it is read as a number. -/
theorem isFinite_iff : x.isFinite = true ↔ ∃ b, Reading.ofFloat x = .finite b := by
  have hexp : (@unpackExponent .binary64 x.toBits.toBitVec).toNat =
      x.toBits.toNat / 2 ^ 52 % 2 ^ 11 := toNat_unpackExponent _
  have hinf : @unpackExponent .binary64 x.toBits.toBitVec = -1#11 ↔
      x.toBits.toNat / 2 ^ 52 % 2 ^ 11 = 2047 := by
    rw [← hexp]
    exact ⟨fun h => by rw [h]; rfl, fun h => BitVec.eq_of_toNat_eq h⟩
  have hfin : x.isFinite = true ↔
      ¬ @unpackExponent .binary64 x.toBits.toBitVec = -1#11 := by
    change (unpack Format.binary64 x.toBits.toBitVec).isFinite = true ↔ _
    unfold unpack
    dsimp only
    by_cases hones : @unpackExponent .binary64 x.toBits.toBitVec = -1#11
    · rw [if_pos hones]
      by_cases hm : @unpackMantissa .binary64 x.toBits.toBitVec = 0#52
      · rw [if_pos hm]
        exact iff_of_false Bool.false_ne_true (not_not_intro hones)
      · rw [if_neg hm]
        exact iff_of_false Bool.false_ne_true (not_not_intro hones)
    · rw [if_neg hones]
      refine iff_of_true ?_ hones
      by_cases hz : @unpackExponent .binary64 x.toBits.toBitVec = 0#11
      · rw [if_pos hz]
        by_cases hm : @unpackMantissa .binary64 x.toBits.toBitVec = 0#52
        · rw [dif_pos hm]
          rfl
        · rw [dif_neg hm]
          rfl
      · rw [if_neg hz]
        rfl
  rw [hfin, hinf]
  simp only [ofFloat_eq_finite_iff]
  constructor
  · intro h
    by_cases h0 : x.toBits.toNat / 2 ^ 52 % 2 ^ 11 = 0
    · exact ⟨⟨_, _, _, _⟩, h, rfl, .inl ⟨h0, rfl, rfl, rfl⟩⟩
    · exact ⟨⟨_, _, _, _⟩, h, rfl, .inr ⟨h0, rfl, rfl, rfl⟩⟩
  · rintro ⟨b, h, -⟩
    exact h

/-- What is read is in the form that the intervals are about. -/
theorem canonical_of_ofFloat (h : Reading.ofFloat x = .finite b) : b.Canonical := by
  obtain ⟨hmax, -, ⟨-, hm, he, hn⟩ | ⟨hmin, hm, he, hn⟩⟩ := ofFloat_eq_finite_iff.1 h
  · refine ⟨by omega, by omega, by omega, by omega, ?_⟩
    simp [hn, he]
  · refine ⟨by omega, by omega, by omega, by omega, ?_⟩
    rw [hn, Bool.and_eq_true, beq_iff_eq, decide_eq_true_eq]
    omega

/-- A double is put together again from what is read. -/
theorem signed_of_ofFloat (h : Reading.ofFloat x = .finite b) : signed b.negative b.bits = x := by
  have hlt : x.toBits.toNat < 2 ^ 64 := x.toBits.toNat_lt
  have hbits : (if b.negative then b.bits + 2 ^ 63 else b.bits) = x.toBits.toNat := by
    unfold Binary.bits
    obtain ⟨hmax, hs, ⟨hmin, hm, he, hn⟩ | ⟨hmin, hm, he, hn⟩⟩ := ofFloat_eq_finite_iff.1 h <;>
      rw [hs, hm, he] <;> split <;> simp only [beq_iff_eq] at * <;> omega
  unfold signed
  rw [pow2_eq, hbits, UInt64.ofNat_toNat, ofBits_toBits]

end PlanReview.Decimal
