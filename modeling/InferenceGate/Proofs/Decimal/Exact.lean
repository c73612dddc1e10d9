import InferenceGate.Json.Value
import Mathlib.Algebra.Order.Floor.Semifield
import Mathlib.Data.Rat.Floor

/-!
# What a number is exactly

A binary64 number is a rational, and so is each number of a document. Cutting the fraction off and clamping what is left into the unsigned
words is taking the floor of that rational among the naturals, where all below zero is zero, up to the greatest word
(`clampU64_truncate`).
-/

namespace InferenceGate

namespace Binary64

/-- The rational that a magnitude is: its mantissa times its power of two. -/
def magnitude (x : Binary64) : ℚ := (x.mantissa * twoTo x.exponent.toNat : ℕ) / (twoTo (-x.exponent).toNat : ℕ)

/-- The rational that a number is. -/
def exact (x : Binary64) : ℚ := if x.negative then -x.magnitude else x.magnitude

theorem magnitude_nonneg (x : Binary64) : 0 ≤ x.magnitude := div_nonneg (Nat.cast_nonneg _) (Nat.cast_nonneg _)

/-- The whole part of a magnitude is its floor. -/
theorem floor_magnitude (x : Binary64) : ⌊x.magnitude⌋₊ = x.wholeMagnitude := Nat.floor_div_eq_div _ _

/-- A number that is not below zero is cut to its floor. -/
theorem truncate_of_nonneg {x : Binary64} (h : 0 ≤ x.exact) : x.truncate = ⌊x.exact⌋₊ := by
  unfold truncate exact at *
  cases hsign : x.negative with
  | true =>
    rw [hsign, if_pos rfl, neg_nonneg] at h
    rw [if_pos rfl, if_pos rfl, ← floor_magnitude, le_antisymm h x.magnitude_nonneg]
    simp
  | false => rw [if_neg Bool.false_ne_true, if_neg Bool.false_ne_true, floor_magnitude]

/-- A number below zero is cut to the opposite of the floor of its opposite. -/
theorem truncate_of_neg {x : Binary64} (h : x.exact < 0) : x.truncate = -⌊-x.exact⌋₊ := by
  unfold truncate exact at *
  cases hsign : x.negative with
  | true => rw [if_pos rfl, if_pos rfl, neg_neg, floor_magnitude]
  | false =>
    rw [hsign, if_neg Bool.false_ne_true] at h
    exact absurd x.magnitude_nonneg (not_le.2 h)

/-- A number without its fraction, clamped, is the floor of what it is exactly. -/
theorem clampU64_truncate (x : Binary64) : clampU64 x.truncate = min ⌊x.exact⌋₊ maxU64 := by
  unfold clampU64 truncate exact
  cases x.negative with
  | true =>
    have hnonpos : -x.magnitude ≤ 0 := neg_nonpos.2 x.magnitude_nonneg
    simp only [if_true]
    rw [Nat.floor_of_nonpos hnonpos, Int.toNat_of_nonpos (by omega)]
  | false =>
    simp only [Bool.false_eq_true, if_false]
    rw [floor_magnitude, Int.toNat_natCast]

/-- A magnitude is a natural number when it has no fraction and that number for its whole part. -/
theorem magnitude_eq_natCast {x : Binary64} {k : ℕ} : x.magnitude = k ↔ x.isWhole = true ∧ x.wholeMagnitude = k := by
  unfold magnitude isWhole wholeMagnitude
  generalize x.mantissa * twoTo x.exponent.toNat = num
  have hden : 0 < twoTo (-x.exponent).toNat := Nat.two_pow_pos _
  generalize twoTo (-x.exponent).toNat = den at hden
  have hden' : (den : ℚ) ≠ 0 := Nat.cast_ne_zero.2 (by omega)
  rw [div_eq_iff hden', ← Nat.cast_mul, Nat.cast_inj, beq_iff_eq]
  constructor
  · rintro rfl
    exact ⟨Nat.mul_mod_left k den, Nat.mul_div_left k hden⟩
  · rintro ⟨hmod, rfl⟩
    rw [Nat.div_mul_cancel (Nat.dvd_of_mod_eq_zero hmod)]

/-- A magnitude is a whole number when nothing stands behind its point. -/
theorem magnitude_eq_intCast {x : Binary64} {n : ℤ} : x.magnitude = n ↔ x.isWhole = true ∧ (x.wholeMagnitude : ℤ) = n := by
  constructor
  · intro h
    have hn : 0 ≤ n := by
      have hnonneg := x.magnitude_nonneg
      rw [h] at hnonneg
      exact_mod_cast hnonneg
    obtain ⟨k, rfl⟩ := Int.eq_ofNat_of_zero_le hn
    obtain ⟨hwhole, hk⟩ := magnitude_eq_natCast.1 ((h : x.magnitude = ((k : ℤ) : ℚ)).trans (Int.cast_natCast k))
    exact ⟨hwhole, congrArg Nat.cast hk⟩
  · rintro ⟨hwhole, rfl⟩
    rw [Int.cast_natCast]
    exact magnitude_eq_natCast.2 ⟨hwhole, rfl⟩

/-- A number is an integer exactly when it has no fraction, and then that integer is what is left without it. -/
theorem exact_eq_intCast {x : Binary64} {n : ℤ} : x.exact = n ↔ x.isWhole = true ∧ x.truncate = n := by
  unfold exact truncate
  cases x.negative with
  | true =>
    simp only [if_true]
    rw [neg_eq_iff_eq_neg, ← Int.cast_neg, magnitude_eq_intCast, neg_eq_iff_eq_neg]
  | false =>
    simp only [Bool.false_eq_true, if_false]
    exact magnitude_eq_intCast

end Binary64

namespace Json.Number

/-- The rational that a number is. -/
def exact : Number → ℚ
  | .integer n => n
  | .real x => x.exact

/-- An integer in the range of the signed words is read as it is. -/
theorem i64?_integer (k : ℤ) : (Number.integer k).i64? = if minI64 ≤ k ∧ k ≤ maxI64 then some k else none := by
  simp [i64?, inI64]

end Json.Number

end InferenceGate
