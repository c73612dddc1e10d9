import InferenceGate.Decimal.Binary64

/-!
# Whole numbers rounded

A whole number of more than 53 bits is rounded to a multiple of a power of two, its unit, which leaves 53 bits (`ofRatio_whole`). So a
rounded number is whole, and no rounding goes below the power of two that the number begins with.
-/

namespace InferenceGate.Binary64

variable {negative : Bool} {n num den d : Nat} {x : Binary64}

/-! ## Powers of two -/

theorem twoTo_add (a b : Nat) : twoTo (a + b) = twoTo a * twoTo b := Nat.pow_add 2 a b

theorem twoTo_pos (k : Nat) : 0 < twoTo k := Nat.two_pow_pos k

theorem twoTo_le_twoTo {a b : Nat} (h : a ≤ b) : twoTo a ≤ twoTo b := Nat.pow_le_pow_right Nat.two_pos h

theorem ne_zero_of_twoTo_le {k : Nat} (h : twoTo k ≤ n) : n ≠ 0 := by
  have hpos := twoTo_pos k
  omega

/-- A number is at least the power of two that it begins with. -/
theorem twoTo_log2_le (h : n ≠ 0) : twoTo (Nat.log2 n) ≤ n := Nat.log2_self_le h

theorem le_log2 {k : Nat} (h : n ≠ 0) : k ≤ Nat.log2 n ↔ twoTo k ≤ n := Nat.le_log2 h

/-! ## Rounding -/

/-- A rounded quotient is not below the quotient. -/
theorem div_le_divToEven (n d : Nat) : n / d ≤ divToEven n d := by
  unfold divToEven
  dsimp only
  split
  · exact Nat.le_refl _
  · split <;> omega

/-- What a quotient other than zero is rounded to: a mantissa in the unit of the quotient, or half of it in the next unit where it has
one bit too many; none when the unit is too great. -/
theorem ofRatio_of_ne_zero (h : num ≠ 0) (den : Nat) :
    ∃ m e, ((m ≠ twoTo 53 ∧ m = divToEven (inUnits num den (unitOf num den)).1 (inUnits num den (unitOf num den)).2 ∧
          e = unitOf num den) ∨
        (twoTo 53 = divToEven (inUnits num den (unitOf num den)).1 (inUnits num den (unitOf num den)).2 ∧ m = twoTo 52 ∧
          e = unitOf num den + 1)) ∧
      ∀ negative, ofRatio negative num den =
        if maxExponent < e then none else if m = 0 then some (zero negative) else some ⟨negative, m, e⟩ := by
  have hnum : (num == 0) = false := beq_false_of_ne h
  unfold ofRatio
  simp only [hnum, Bool.false_eq_true, if_false]
  by_cases hcarry : divToEven (inUnits num den (unitOf num den)).1 (inUnits num den (unitOf num den)).2 = twoTo 53
  · refine ⟨_, _, .inr ⟨hcarry.symm, rfl, rfl⟩, ?_⟩
    simp [hcarry]
  · refine ⟨_, _, .inl ⟨hcarry, rfl, rfl⟩, ?_⟩
    simp [hcarry]

/-- What a quotient is rounded to has the sign asked for. -/
theorem negative_ofRatio (h : ofRatio negative num den = some x) : x.negative = negative := by
  by_cases hzero : num = 0
  · subst hzero
    obtain rfl := Option.some.inj h
    rfl
  · obtain ⟨m, e, -, heq⟩ := ofRatio_of_ne_zero hzero den
    rw [heq] at h
    split at h
    · nomatch h
    · split at h <;> obtain rfl := Option.some.inj h <;> rfl

/-- The power of two of the unit that a whole number of more than 53 bits is rounded to. -/
theorem unitOf_whole (h : twoTo 53 ≤ n) : unitOf n 1 = (Nat.log2 n : Int) - 52 := by
  have hn := ne_zero_of_twoTo_le h
  have hlog : 53 ≤ Nat.log2 n := (le_log2 hn).2 h
  have hone : Nat.log2 1 = 0 := rfl
  have hneg : (-((Nat.log2 n : Int) - (0 : Nat) - 53)).toNat = 0 := by omega
  have hpos : ((Nat.log2 n : Int) - (0 : Nat) - 53).toNat = Nat.log2 n - 53 := by omega
  have hbits : twoTo 53 ≤ n * twoTo 0 / (1 * twoTo (Nat.log2 n - 53)) := by
    rw [Nat.one_mul, Nat.le_div_iff_mul_le (twoTo_pos _), ← twoTo_add, show 53 + (Nat.log2 n - 53) = Nat.log2 n by omega]
    exact Nat.le_trans (twoTo_log2_le hn) (Nat.le_mul_of_pos_right n (twoTo_pos 0))
  unfold unitOf inUnits
  dsimp only
  rw [hone, hneg, hpos, if_pos hbits]
  unfold minExponent
  omega

/-- Rounding to a multiple of the unit does not go below the power of two that a number begins with. -/
theorem twoTo_log2_le_rounded (h : twoTo 53 ≤ n) :
    twoTo (Nat.log2 n) ≤ divToEven n (twoTo (Nat.log2 n - 52)) * twoTo (Nat.log2 n - 52) := by
  have hn := ne_zero_of_twoTo_le h
  have hlog : 53 ≤ Nat.log2 n := (le_log2 hn).2 h
  have hsplit : twoTo (Nat.log2 n) = twoTo 52 * twoTo (Nat.log2 n - 52) := by
    rw [← twoTo_add, show 52 + (Nat.log2 n - 52) = Nat.log2 n by omega]
  have hdiv : twoTo 52 ≤ n / twoTo (Nat.log2 n - 52) := by
    rw [Nat.le_div_iff_mul_le (twoTo_pos _), ← hsplit]
    exact twoTo_log2_le hn
  rw [hsplit]
  exact Nat.mul_le_mul_right _ (Nat.le_trans hdiv (div_le_divToEven _ _))

/-- A whole number of more than 53 bits is rounded to a multiple of its unit, unless it has so many bits that it overflows. -/
theorem ofRatio_whole (negative : Bool) (h : twoTo 53 ≤ n) :
    (ofRatio negative n 1 = none ∧ 1023 ≤ Nat.log2 n) ∨ ∃ x, ofRatio negative n 1 = some x ∧ 0 ≤ x.exponent ∧
      x.mantissa * twoTo x.exponent.toNat = divToEven n (twoTo (Nat.log2 n - 52)) * twoTo (Nat.log2 n - 52) := by
  have hn := ne_zero_of_twoTo_le h
  have hlog : 53 ≤ Nat.log2 n := (le_log2 hn).2 h
  have hexp : ((Nat.log2 n : Int) - 52).toNat = Nat.log2 n - 52 := by omega
  have hunits : inUnits n 1 (unitOf n 1) = (n, twoTo (Nat.log2 n - 52)) := by
    rw [unitOf_whole h]
    unfold inUnits
    rw [hexp, show (-((Nat.log2 n : Int) - 52)).toNat = 0 by omega, Nat.one_mul]
    exact congrArg (·, twoTo (Nat.log2 n - 52)) (Nat.mul_one n)
  obtain ⟨m, e, hme, heq⟩ := ofRatio_of_ne_zero hn 1
  rw [hunits, unitOf_whole h] at hme
  have hgreat : e ≤ (Nat.log2 n : Int) - 51 := by
    rcases hme with ⟨-, -, rfl⟩ | ⟨-, -, rfl⟩ <;> omega
  have hvalue : 0 ≤ e ∧ m * twoTo e.toNat = divToEven n (twoTo (Nat.log2 n - 52)) * twoTo (Nat.log2 n - 52) := by
    rcases hme with ⟨-, rfl, rfl⟩ | ⟨hcarry, rfl, rfl⟩
    · rw [hexp]
      exact ⟨by omega, rfl⟩
    · rw [← hcarry, show ((Nat.log2 n : Int) - 52 + 1).toNat = (Nat.log2 n - 52) + 1 by omega, ← twoTo_add, ← twoTo_add]
      exact ⟨by omega, congrArg twoTo (by omega)⟩
  have hm : m ≠ 0 := by
    rintro rfl
    have hlow := twoTo_log2_le_rounded h
    rw [← hvalue.2, Nat.zero_mul] at hlow
    exact absurd (twoTo_pos (Nat.log2 n)) (by omega)
  rw [heq, if_neg hm]
  split
  · rename_i hover
    unfold maxExponent at hover
    exact .inl ⟨rfl, by omega⟩
  · exact .inr ⟨_, rfl, hvalue⟩

/-! ## Rounded integers -/

/-- A number in a unit that is no fraction is whole. -/
theorem isWhole_of_exponent (h : 0 ≤ x.exponent) :
    x.isWhole = true ∧ x.wholeMagnitude = x.mantissa * twoTo x.exponent.toNat := by
  have hone : twoTo (-x.exponent).toNat = 1 := by
    rw [show (-x.exponent).toNat = 0 by omega]
    rfl
  unfold isWhole wholeMagnitude
  rw [hone, Nat.mod_one, Nat.div_one]
  exact ⟨rfl, rfl⟩

theorem truncate_zero (negative : Bool) : (zero negative).truncate = 0 := by
  have hwhole : (zero negative).wholeMagnitude = 0 := by simp [wholeMagnitude, zero]
  unfold truncate
  rw [hwhole]
  cases (zero negative).negative <;> rfl

/-- The number nearest to an integer below zero is not above it. -/
theorem truncate_ofInt_nonpos {k : Int} (h : k < 0) : (ofInt k).truncate ≤ 0 := by
  unfold ofInt
  cases hx : ofRatio (decide (k < 0)) k.natAbs 1 with
  | none => exact Int.le_of_eq (truncate_zero false)
  | some x =>
    have hneg : x.negative = true := by rw [negative_ofRatio hx, decide_eq_true h]
    rw [Option.getD_some, truncate, hneg, if_pos rfl]
    omega

/-- An integer of more than 53 bits and above zero is rounded to a multiple of its unit, unless it overflows. -/
theorem truncate_ofInt_whole (h : twoTo 53 ≤ n) : ((ofInt n).truncate = 0 ∧ 1023 ≤ Nat.log2 n) ∨
    (ofInt n).isWhole = true ∧
      (ofInt n).truncate = (divToEven n (twoTo (Nat.log2 n - 52)) * twoTo (Nat.log2 n - 52) : Nat) := by
  have hsign : decide ((n : Int) < 0) = false := by simp
  unfold ofInt
  rw [hsign, Int.natAbs_natCast]
  rcases ofRatio_whole false h with ⟨hnone, hlog⟩ | ⟨x, hx, hexp, hvalue⟩
  · rw [hnone]
    exact .inl ⟨truncate_zero false, hlog⟩
  · obtain ⟨hwhole, hmagnitude⟩ := isWhole_of_exponent hexp
    rw [hx, Option.getD_some, truncate, negative_ofRatio hx, hmagnitude, hvalue]
    exact .inr ⟨hwhole, rfl⟩

/-- Of the numbers from `2 ^ 63` on those up to half a unit above it are rounded to it, and all others to more. -/
theorem rounded_le_iff (h : 9223372036854775808 ≤ n) :
    divToEven n (twoTo (Nat.log2 n - 52)) * twoTo (Nat.log2 n - 52) ≤ 9223372036854775808 ↔ n ≤ 9223372036854776832 := by
  have hn : n ≠ 0 := by omega
  by_cases hword : n < 18446744073709551616
  · have hlog : Nat.log2 n = 63 := (Nat.log2_eq_iff hn).2 ⟨h, hword⟩
    have hunit : twoTo (Nat.log2 n - 52) = 2048 := by
      rw [hlog]
      rfl
    rw [hunit]
    unfold divToEven
    dsimp only
    split
    · omega
    · split <;> omega
  · have hlow : twoTo 64 ≤ twoTo (Nat.log2 n) := twoTo_le_twoTo ((le_log2 hn).2 (Nat.le_of_not_lt hword))
    have hrounded := twoTo_log2_le_rounded (n := n) (Nat.le_trans (by decide) h)
    have htwo : twoTo 64 = 18446744073709551616 := rfl
    omega

end InferenceGate.Binary64
