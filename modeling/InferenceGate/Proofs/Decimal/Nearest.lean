import InferenceGate.Proofs.Decimal.Exact
import InferenceGate.Proofs.Decimal.Rounding
import Mathlib.Algebra.Order.Field.Power
import Mathlib.Tactic.FieldSimp
import Mathlib.Tactic.Linarith
import Mathlib.Tactic.NormNum
import Mathlib.Tactic.Ring

/-!
# The nearest number

A quotient is rounded to the number of the format that is nearest to it, of two that are equally near to the one with the even mantissa
(`IsNearest`), unless it is so great that it overflows (`rounds_ofRatio`).

The unit of a quotient is a power of two that gives it 52 bits and a fraction, or the least power there is. Numbers with this unit or a
greater one are its multiples, and of these the rounded mantissa is the nearest; numbers with a smaller unit lie below the quotient and
further away than `2 ^ 52` units, which is a multiple (`rounded_or_further`).
-/

namespace InferenceGate.Binary64

/-- A number of the format: a mantissa of 53 bits, all of them in use above the least exponent, and an exponent within its bounds. -/
structure IsFinite (x : Binary64) : Prop where
  mantissa_lt : x.mantissa < twoTo 53
  normal : twoTo 52 ≤ x.mantissa ∨ x.exponent = minExponent
  minExponent_le : minExponent ≤ x.exponent
  le_maxExponent : x.exponent ≤ maxExponent

/-- The number of the format that is nearest to a rational: none is nearer, and if another is as near, the mantissa is even. -/
structure IsNearest (q : ℚ) (x : Binary64) : Prop where
  finite : x.IsFinite
  nearest : ∀ y : Binary64, y.IsFinite → |x.exact - q| ≤ |y.exact - q|
  even : ∀ y : Binary64, y.IsFinite → |x.exact - q| = |y.exact - q| → y.exact = x.exact ∨ x.mantissa % 2 = 0

/-- The least magnitude that overflows: half a unit above the greatest number. -/
def overflowLimit : ℚ := (2 ^ 54 - 1) * 2 ^ 970

/-- What a rational is rounded to: the number nearest to it, or nothing where it overflows. -/
def Rounds (q : ℚ) : Option Binary64 → Prop
  | some x => |q| < overflowLimit ∧ IsNearest q x ∧ ∀ y, IsNearest q y → y.exact = x.exact
  | none => overflowLimit ≤ |q|

namespace NearestAux

variable {q r : ℚ} {e : ℤ} {m n d num den : ℕ} {x y : Binary64}

/-! ## Units -/

theorem cast_twoTo (k : ℕ) : (twoTo k : ℚ) = 2 ^ k := Nat.cast_pow 2 k

theorem unit_pos (e : ℤ) : (0 : ℚ) < 2 ^ e := zpow_pos two_pos e

/-- A power of two as a fraction of naturals. -/
theorem two_zpow (e : ℤ) : (2 : ℚ) ^ e = twoTo e.toNat / twoTo (-e).toNat := by
  obtain ⟨k, rfl | rfl⟩ := e.eq_nat_or_neg
  · simp [twoTo]
  · simp [twoTo]

/-- A magnitude is a mantissa in the units of its exponent. -/
theorem magnitude_eq (x : Binary64) : x.magnitude = x.mantissa * 2 ^ x.exponent := by
  unfold magnitude
  rw [two_zpow, Nat.cast_mul, mul_div_assoc]

/-- A quotient in units. -/
theorem inUnits_div (num den : ℕ) (e : ℤ) : ((inUnits num den e).1 : ℚ) / (inUnits num den e).2 = num / den / 2 ^ e := by
  unfold inUnits
  rw [two_zpow, Nat.cast_mul, Nat.cast_mul, div_div_div_eq]

/-- A whole number lies between the power of two that it begins with and the next. -/
theorem log2_between (h : n ≠ 0) : (2 : ℚ) ^ (Nat.log2 n : ℤ) ≤ n ∧ (n : ℚ) < 2 ^ ((Nat.log2 n : ℤ) + 1) := by
  constructor
  · rw [zpow_natCast]
    exact_mod_cast Nat.log2_self_le h
  · rw [← Nat.cast_succ, zpow_natCast]
    exact_mod_cast Nat.lt_log2_self

/-- A quotient has as many bits as its parts tell, or one less. -/
theorem log2_bounds (hnum : num ≠ 0) (hden : den ≠ 0) :
    (2 : ℚ) ^ ((Nat.log2 num : ℤ) - Nat.log2 den - 1) ≤ num / den ∧
      (num : ℚ) / den < 2 ^ ((Nat.log2 num : ℤ) - Nat.log2 den + 1) := by
  obtain ⟨hnumLow, hnumHigh⟩ := log2_between hnum
  obtain ⟨hdenLow, hdenHigh⟩ := log2_between hden
  have hdenPos : (0 : ℚ) < den := Nat.cast_pos.2 (Nat.pos_of_ne_zero hden)
  constructor
  · rw [le_div_iff₀ hdenPos]
    calc (2 : ℚ) ^ ((Nat.log2 num : ℤ) - Nat.log2 den - 1) * den
        ≤ 2 ^ ((Nat.log2 num : ℤ) - Nat.log2 den - 1) * 2 ^ ((Nat.log2 den : ℤ) + 1) :=
          mul_le_mul_of_nonneg_left hdenHigh.le (unit_pos _).le
      _ = 2 ^ (Nat.log2 num : ℤ) := by
          rw [← zpow_add₀ two_ne_zero]
          congr 1
          ring
      _ ≤ num := hnumLow
  · rw [div_lt_iff₀ hdenPos]
    calc (num : ℚ) < 2 ^ ((Nat.log2 num : ℤ) + 1) := hnumHigh
      _ = 2 ^ ((Nat.log2 num : ℤ) - Nat.log2 den + 1) * 2 ^ (Nat.log2 den : ℤ) := by
          rw [← zpow_add₀ two_ne_zero]
          congr 1
          ring
      _ ≤ 2 ^ ((Nat.log2 num : ℤ) - Nat.log2 den + 1) * den := mul_le_mul_of_nonneg_left hdenLow (unit_pos _).le

/-- The unit of a quotient leaves it less than 53 bits before the point, and 52 at least unless it is the least unit. -/
theorem unitOf_spec (hnum : num ≠ 0) (hden : den ≠ 0) :
    minExponent ≤ unitOf num den ∧ (num : ℚ) / den < 2 ^ 53 * 2 ^ unitOf num den ∧
      (unitOf num den = minExponent ∨ 2 ^ 52 * 2 ^ unitOf num den ≤ (num : ℚ) / den) := by
  obtain ⟨hlow, hhigh⟩ := log2_bounds hnum hden
  generalize he : (Nat.log2 num : ℤ) - Nat.log2 den - 53 = e
  have hlow' : 2 ^ 52 * 2 ^ e ≤ (num : ℚ) / den := by
    rwa [show (Nat.log2 num : ℤ) - Nat.log2 den - 1 = 52 + e by omega, zpow_add₀ two_ne_zero] at hlow
  have hhigh' : (num : ℚ) / den < 2 ^ 54 * 2 ^ e := by
    rwa [show (Nat.log2 num : ℤ) - Nat.log2 den + 1 = 54 + e by omega, zpow_add₀ two_ne_zero] at hhigh
  have hiff : twoTo 53 ≤ (inUnits num den e).1 / (inUnits num den e).2 ↔ 2 ^ 53 * 2 ^ e ≤ (num : ℚ) / den := by
    have hpos : 0 < (inUnits num den e).2 := Nat.mul_pos (Nat.pos_of_ne_zero hden) (twoTo_pos _)
    rw [Nat.le_div_iff_mul_le hpos, ← le_div_iff₀ (unit_pos e), ← inUnits_div, le_div_iff₀ (Nat.cast_pos.2 hpos)]
    exact_mod_cast Iff.rfl
  have hunit : unitOf num den = max minExponent (if 2 ^ 53 * 2 ^ e ≤ (num : ℚ) / den then e + 1 else e) := by
    unfold unitOf
    dsimp only
    rw [he]
    simp only [hiff]
  obtain ⟨u, hu, hbelow, habove⟩ : ∃ u, unitOf num den = max minExponent u ∧ 2 ^ 52 * 2 ^ u ≤ (num : ℚ) / den ∧
      (num : ℚ) / den < 2 ^ 53 * 2 ^ u := by
    refine ⟨_, hunit, ?_⟩
    split
    · rename_i hgreat
      rw [zpow_add_one₀ two_ne_zero]
      constructor <;> linarith
    · rename_i hsmall
      exact ⟨hlow', lt_of_not_ge hsmall⟩
  rw [hu]
  refine ⟨le_max_left _ _, ?_, ?_⟩
  · have hmono : (2 : ℚ) ^ u ≤ 2 ^ max minExponent u := zpow_le_zpow_right₀ one_le_two (le_max_right _ _)
    linarith
  · rcases le_total u minExponent with h | h
    · exact .inl (max_eq_left h)
    · rw [max_eq_right h]
      exact .inr hbelow

/-! ## Whole numbers -/

/-- A quotient is rounded to a whole number at most half away, and to an even one where it is half away. -/
theorem divToEven_spec (n : ℕ) (hd : 0 < d) :
    |(divToEven n d : ℚ) - n / d| ≤ 1 / 2 ∧ (|(divToEven n d : ℚ) - n / d| = 1 / 2 → divToEven n d % 2 = 0) := by
  have hd' : (0 : ℚ) < d := Nat.cast_pos.2 hd
  have hsplit : (n : ℚ) / d = (n / d : ℕ) + ((n % d : ℕ) : ℚ) / d := by
    rw [eq_comm, ← eq_sub_iff_add_eq', div_sub' hd'.ne', div_left_inj' hd'.ne']
    have h := Nat.div_add_mod n d
    rw [eq_sub_iff_add_eq']
    exact_mod_cast h
  have hnonneg : 0 ≤ ((n % d : ℕ) : ℚ) / d := div_nonneg (Nat.cast_nonneg _) hd'.le
  unfold divToEven
  dsimp only
  rw [hsplit]
  split
  · rename_i hbelow
    have hhalf : ((n % d : ℕ) : ℚ) / d < 1 / 2 := by
      rw [div_lt_div_iff₀ hd' two_pos]
      exact_mod_cast (by omega : n % d * 2 < 1 * d)
    rw [sub_add_cancel_left, abs_neg, abs_of_nonneg hnonneg]
    exact ⟨hhalf.le, fun h => absurd h hhalf.ne⟩
  · split
    · rename_i habove
      have hhalf : 1 / 2 < ((n % d : ℕ) : ℚ) / d := by
        rw [div_lt_div_iff₀ two_pos hd']
        exact_mod_cast (by omega : 1 * d < n % d * 2)
      have hone : ((n % d : ℕ) : ℚ) / d < 1 := by
        rw [div_lt_one hd']
        exact_mod_cast Nat.mod_lt n hd
      rw [Nat.cast_succ, add_sub_add_left_eq_sub, abs_of_pos (by linarith)]
      exact ⟨by linarith, fun h => by linarith⟩
    · rename_i hnotBelow hnotAbove
      have hhalf : ((n % d : ℕ) : ℚ) / d = 1 / 2 := by
        rw [div_eq_div_iff hd'.ne' two_ne_zero]
        exact_mod_cast (by omega : n % d * 2 = 1 * d)
      have heven : (n / d + n / d % 2) % 2 = 0 := by omega
      rw [hhalf, Nat.cast_add, add_sub_add_left_eq_sub]
      refine ⟨?_, fun _ => heven⟩
      rcases Nat.mod_two_eq_zero_or_one (n / d) with h | h <;> rw [h] <;> norm_num [abs_le]

/-- A whole number at most half away is the nearest, and another one that is as near is the next. -/
theorem nearest_or_next {k : ℤ} (h : |(m : ℚ) - r| ≤ 1 / 2) :
    |(m : ℚ) - r| < |(k : ℚ) - r| ∨ k = m ∨
      (|(m : ℚ) - r| = 1 / 2 ∧ |(m : ℚ) - r| = |(k : ℚ) - r| ∧ (k = m + 1 ∨ k = m - 1)) := by
  by_cases hk : k = m
  · exact .inr (.inl hk)
  · have hstep : 1 ≤ |(k : ℚ) - m| := by
      have hint : (1 : ℤ) ≤ |k - m| := Int.one_le_abs (by omega)
      exact_mod_cast hint
    have hsum : |(k : ℚ) - m| ≤ |(k : ℚ) - r| + |(m : ℚ) - r| := by
      rw [abs_sub_comm (m : ℚ) r]
      exact abs_sub_le _ _ _
    rcases lt_or_ge |(m : ℚ) - r| |(k : ℚ) - r| with hlt | hge
    · exact .inl hlt
    · have hone : |(k : ℚ) - m| = 1 := by linarith
      have hnext : |k - m| = 1 := by exact_mod_cast hone
      refine .inr (.inr ⟨by linarith, by linarith, ?_⟩)
      rcases abs_cases (k - m) with ⟨habs, -⟩ | ⟨habs, -⟩ <;> omega

/-! ## Numbers in units -/

theorem abs_exact (x : Binary64) : |x.exact| = x.magnitude := by
  unfold exact
  split
  · rw [abs_neg, abs_of_nonneg x.magnitude_nonneg]
  · exact abs_of_nonneg x.magnitude_nonneg

/-- A number whose unit is not below a power of two is a multiple of it, and by an odd number only when its mantissa is odd. -/
theorem exists_units (h : e ≤ x.exponent) : ∃ k : ℤ, x.exact = k * 2 ^ e ∧ (k % 2 = 1 → x.mantissa % 2 = 1) := by
  obtain ⟨j, hj⟩ := Int.le.dest h
  have hunits : x.magnitude = ((x.mantissa * 2 ^ j : ℕ) : ℚ) * 2 ^ e := by
    rw [magnitude_eq, ← hj, zpow_add₀ two_ne_zero, zpow_natCast, Nat.cast_mul, Nat.cast_pow, Nat.cast_ofNat]
    ring
  have hodd : (x.mantissa * 2 ^ j) % 2 = 1 → x.mantissa % 2 = 1 := by
    cases j with
    | zero => simp
    | succ j =>
      rw [pow_succ, ← mul_assoc]
      omega
  unfold exact
  rw [hunits]
  split
  · refine ⟨-((x.mantissa * 2 ^ j : ℕ) : ℤ), ?_, fun hk => hodd (by omega)⟩
    rw [Int.cast_neg, Int.cast_natCast, neg_mul]
  · exact ⟨((x.mantissa * 2 ^ j : ℕ) : ℤ), by rw [Int.cast_natCast], fun hk => hodd (by omega)⟩

/-- A number of the format with a lesser unit lies below `2 ^ 52` units. -/
theorem exact_lt_of_exponent_lt (hy : y.IsFinite) (h : y.exponent < e) : y.exact < 2 ^ 52 * 2 ^ e := by
  have hmantissa : (y.mantissa : ℚ) < 2 ^ 53 := by exact_mod_cast hy.mantissa_lt
  have hunit : (2 : ℚ) ^ y.exponent ≤ 2 ^ (e - 1) := zpow_le_zpow_right₀ one_le_two (by omega)
  calc y.exact ≤ |y.exact| := le_abs_self _
    _ = y.mantissa * 2 ^ y.exponent := by rw [abs_exact, magnitude_eq]
    _ < 2 ^ 53 * 2 ^ y.exponent := mul_lt_mul_of_pos_right hmantissa (unit_pos _)
    _ ≤ 2 ^ 53 * 2 ^ (e - 1) := mul_le_mul_of_nonneg_left hunit (by positivity)
    _ = 2 ^ 52 * 2 ^ e := by
      rw [zpow_sub_one₀ two_ne_zero]
      ring

/-! ## Rounding in a unit -/

/-- A rational rounded to a whole number of units: at most half a unit away, with an even number where it is half a unit away, in a unit
that is the least one or leaves the rational 52 bits. -/
structure InUnit (q : ℚ) (e : ℤ) (m : ℕ) : Prop where
  wide : e = minExponent ∨ 2 ^ 52 * 2 ^ e ≤ q
  half : |(m : ℚ) - q / 2 ^ e| ≤ 1 / 2
  even : |(m : ℚ) - q / 2 ^ e| = 1 / 2 → m % 2 = 0

/-- A distance in units is the distance between the numbers of units. -/
theorem abs_units (k q : ℚ) (e : ℤ) : |k * 2 ^ e - q| = |k - q / 2 ^ e| * 2 ^ e := by
  have hunit := unit_pos e
  rw [← abs_of_pos hunit, ← abs_mul, abs_of_pos hunit, sub_mul, div_mul_cancel₀ _ hunit.ne']

/-- Any number of the format is further away than the rounded one, or equal to it, or as near with an odd mantissa where the rounded one is
an even number of units. -/
theorem rounded_or_further (h : InUnit q e m) (hy : y.IsFinite) :
    |m * 2 ^ e - q| < |y.exact - q| ∨ y.exact = m * 2 ^ e ∨
      (|m * 2 ^ e - q| = |y.exact - q| ∧ m % 2 = 0 ∧ y.mantissa % 2 = 1) := by
  have hunit := unit_pos e
  by_cases hexp : e ≤ y.exponent
  · obtain ⟨k, hk, hodd⟩ := exists_units hexp
    rw [hk, abs_units, abs_units]
    rcases nearest_or_next (k := k) h.half with hlt | heq | ⟨hhalf, hsame, hnext⟩
    · exact .inl (mul_lt_mul_of_pos_right hlt hunit)
    · exact .inr (.inl (by rw [heq, Int.cast_natCast]))
    · have heven := h.even hhalf
      exact .inr (.inr ⟨by rw [hsame], heven, hodd (by omega)⟩)
  · -- `2 ^ 52` units are between the number and the rational, and the rounded one is nearer than they are
    have hexp' : y.exponent < e := by omega
    have hwide : 2 ^ 52 * 2 ^ e ≤ q := h.wide.resolve_left fun hmin => absurd hy.minExponent_le (by omega)
    have hfar := exact_lt_of_exponent_lt hy hexp'
    have hnear : |(m : ℚ) - q / 2 ^ e| ≤ |((2 ^ 52 : ℕ) : ℤ) - q / 2 ^ e| := by
      rcases nearest_or_next (k := ((2 ^ 52 : ℕ) : ℤ)) h.half with hlt | heq | ⟨-, hsame, -⟩
      · exact hlt.le
      · rw [heq, Int.cast_natCast]
      · exact hsame.le
    refine .inl ?_
    have hbetween : |((2 ^ 52 : ℕ) : ℤ) * 2 ^ e - q| < |y.exact - q| := by
      rw [abs_sub_comm, abs_sub_comm y.exact, abs_of_nonneg, abs_of_pos] <;> push_cast <;> linarith
    rw [abs_units] at hbetween ⊢
    exact lt_of_le_of_lt (mul_le_mul_of_nonneg_right hnear hunit.le) hbetween

/-- What a rational is rounded to in a unit is nearest to it, and nothing else is. -/
theorem isNearest_of_inUnit (h : InUnit q e m) (hx : x.IsFinite) (hvalue : x.exact = m * 2 ^ e) (heven : m % 2 = 0 → x.mantissa % 2 = 0) :
    IsNearest q x ∧ ∀ y, IsNearest q y → y.exact = x.exact := by
  have hothers : ∀ y : Binary64, y.IsFinite → |x.exact - q| < |y.exact - q| ∨ y.exact = x.exact ∨
      (|x.exact - q| = |y.exact - q| ∧ m % 2 = 0 ∧ y.mantissa % 2 = 1) := by
    intro y hy
    rw [hvalue]
    exact rounded_or_further h hy
  refine ⟨⟨hx, fun y hy => ?_, fun y hy hsame => ?_⟩, fun y hy => ?_⟩
  · rcases hothers y hy with hlt | heq | ⟨hsame, -⟩
    · exact hlt.le
    · rw [heq]
    · exact hsame.le
  · rcases hothers y hy with hlt | heq | ⟨-, hm, -⟩
    · exact absurd hsame hlt.ne
    · exact .inl heq
    · exact .inr (heven hm)
  · rcases hothers y hy.finite with hlt | heq | ⟨hsame, -, hodd⟩
    · exact absurd (hy.nearest x hx) (not_le.2 hlt)
    · exact heq
    · rcases hy.even x hx hsame.symm with heq | hmantissa
      · exact heq.symm
      · omega

/-! ## Signs -/

theorem exact_neg (x : Binary64) : x.neg.exact = -x.exact := by
  unfold neg exact
  cases x.negative <;> simp [magnitude]

theorem isFinite_neg (h : x.IsFinite) : x.neg.IsFinite := ⟨h.mantissa_lt, h.normal, h.minExponent_le, h.le_maxExponent⟩

theorem neg_neg_self (x : Binary64) : x.neg.neg = x := by simp [neg]

/-- The nearest number to a negated rational is the nearest one negated. -/
theorem isNearest_neg (h : IsNearest q x) : IsNearest (-q) x.neg := by
  have hdist : ∀ y : Binary64, |y.exact - -q| = |y.neg.exact - q| := by
    intro y
    rw [exact_neg, ← abs_neg]
    congr 1
    ring
  refine ⟨isFinite_neg h.finite, fun y hy => ?_, fun y hy hsame => ?_⟩
  · rw [hdist, hdist, neg_neg_self]
    exact h.nearest y.neg (isFinite_neg hy)
  · rw [hdist, hdist, neg_neg_self] at hsame
    rcases h.even y.neg (isFinite_neg hy) hsame with heq | heven
    · rw [exact_neg] at heq
      exact .inl (by rw [exact_neg, ← heq, neg_neg])
    · exact .inr heven

/-- A rational below zero is rounded like its opposite. -/
theorem rounds_neg {o : Option Binary64} (h : Rounds q o) : Rounds (-q) (o.map Binary64.neg) := by
  cases o with
  | none =>
    show overflowLimit ≤ |-q|
    rw [abs_neg]
    exact h
  | some x =>
    obtain ⟨hsmall, hnearest, hunique⟩ := h
    refine ⟨by rwa [abs_neg], isNearest_neg hnearest, fun y hy => ?_⟩
    have hy' : IsNearest q y.neg := by
      have hneg := isNearest_neg hy
      rwa [neg_neg] at hneg
    rw [exact_neg, ← hunique _ hy', exact_neg, neg_neg]

/-- Rounding below zero is rounding above it, negated. -/
theorem ofRatio_true (num den : ℕ) : ofRatio true num den = (ofRatio false num den).map neg := by
  by_cases hnum : num = 0
  · subst hnum
    rfl
  · obtain ⟨m, e, -, heq⟩ := ofRatio_of_ne_zero hnum den
    rw [heq, heq]
    split
    · rfl
    · split <;> rfl

/-! ## Quotients -/

theorem exact_mk (m : ℕ) (e : ℤ) : (Binary64.mk false m e).exact = m * 2 ^ e := magnitude_eq ⟨false, m, e⟩

/-- What a quotient is rounded to in its unit. -/
theorem inUnit_unitOf (hnum : num ≠ 0) (hden : den ≠ 0) : InUnit ((num : ℚ) / den) (unitOf num den)
    (divToEven (inUnits num den (unitOf num den)).1 (inUnits num den (unitOf num den)).2) := by
  have hpos : 0 < (inUnits num den (unitOf num den)).2 := Nat.mul_pos (Nat.pos_of_ne_zero hden) (twoTo_pos _)
  obtain ⟨hhalf, heven⟩ := divToEven_spec (inUnits num den (unitOf num den)).1 hpos
  rw [inUnits_div] at hhalf heven
  exact ⟨(unitOf_spec hnum hden).2.2, hhalf, heven⟩

/-- The limit of the magnitudes that do not overflow, in the greatest unit. -/
theorem overflowLimit_eq : overflowLimit = (2 ^ 53 - 1 / 2) * 2 ^ maxExponent := by
  unfold overflowLimit maxExponent
  rw [show (971 : ℤ) = (970 : ℕ) + 1 from rfl, zpow_add_one₀ two_ne_zero, zpow_natCast]
  generalize (2 : ℚ) ^ 970 = power
  ring

/-- A rational of less than 53 bits before the point is rounded to `2 ^ 53` units at most. -/
theorem le_of_inUnit (h : InUnit q e m) (hbelow : q < 2 ^ 53 * 2 ^ e) : m ≤ twoTo 53 := by
  have hr : q / 2 ^ e < 2 ^ 53 := (div_lt_iff₀ (unit_pos e)).2 hbelow
  obtain ⟨-, hup⟩ := abs_le.1 h.half
  have hlt : (m : ℚ) < ((2 ^ 53 + 1 : ℕ) : ℚ) := by
    push_cast
    linarith
  exact Nat.lt_succ_iff.1 (Nat.cast_lt.1 hlt)

/-- A rational of 52 bits is rounded to no less than `2 ^ 52` units. -/
theorem ge_of_inUnit (h : InUnit q e m) : twoTo 52 ≤ m ∨ e = minExponent := by
  rcases h.wide with hmin | hwide
  · exact .inr hmin
  · have hr : 2 ^ 52 ≤ q / 2 ^ e := (le_div_iff₀ (unit_pos e)).2 hwide
    obtain ⟨hdown, -⟩ := abs_le.1 h.half
    have hlt : ((2 ^ 52 : ℕ) : ℚ) < ((m + 1 : ℕ) : ℚ) := by
      push_cast
      linarith
    exact .inl (Nat.lt_succ_iff.1 (Nat.cast_lt.1 hlt))

/-- A rational overflows when it is rounded to `2 ^ 53` units of the greatest power of two, or has a greater unit. The greatest mantissa
is odd, so half a unit above it is rounded up. -/
theorem overflows_iff (h : InUnit q e m) (hbelow : q < 2 ^ 53 * 2 ^ e) :
    overflowLimit ≤ q ↔ maxExponent < e ∨ (e = maxExponent ∧ m = twoTo 53) := by
  have hunit := unit_pos e
  rw [overflowLimit_eq]
  rcases lt_trichotomy e maxExponent with hlt | rfl | hgt
  · have hmono : (2 : ℚ) ^ (e + 1) ≤ 2 ^ maxExponent := zpow_le_zpow_right₀ one_le_two hlt
    rw [zpow_add_one₀ two_ne_zero] at hmono
    constructor
    · intro hlimit
      exfalso
      linarith
    · rintro (hgt | ⟨rfl, -⟩)
      · exact absurd hgt hlt.asymm
      · exact absurd hlt (lt_irrefl _)
  · have hm := le_of_inUnit h hbelow
    rw [← le_div_iff₀ hunit]
    obtain ⟨hdown, hup⟩ := abs_le.1 h.half
    constructor
    · intro hlimit
      refine .inr ⟨rfl, Nat.le_antisymm hm (Nat.le_of_not_lt fun hlt => ?_)⟩
      have hlast : (m : ℚ) + 1 ≤ 2 ^ 53 := by exact_mod_cast hlt
      have hodd : m + 1 = 2 ^ 53 := by
        have hcast : (m : ℚ) + 1 = 2 ^ 53 := by linarith
        exact_mod_cast hcast
      have htie : |(m : ℚ) - q / 2 ^ maxExponent| = 1 / 2 := by
        rw [abs_of_nonpos] <;> linarith
      have heven := h.even htie
      omega
    · rintro (hgt | ⟨-, rfl⟩)
      · exact absurd hgt (lt_irrefl _)
      · rw [cast_twoTo] at hup
        linarith
  · have hmono : (2 : ℚ) ^ (maxExponent + 1) ≤ 2 ^ e := zpow_le_zpow_right₀ one_le_two hgt
    rw [zpow_add_one₀ two_ne_zero] at hmono
    have hwide : 2 ^ 52 * 2 ^ e ≤ q := h.wide.resolve_left fun hmin => absurd (hmin ▸ hgt) (by decide)
    have hpos := unit_pos maxExponent
    exact ⟨fun _ => .inl hgt, fun _ => by linarith⟩

/-- A rational rounded in a unit that leaves it less than 53 bits is the number nearest to it, or overflows. -/
theorem rounds_of_inUnit (h : InUnit q e m) (hnonneg : 0 ≤ q) (hmin : minExponent ≤ e) (hbelow : q < 2 ^ 53 * 2 ^ e) {m' : ℕ} {e' : ℤ}
    (hnormal : (m' ≠ twoTo 53 ∧ m' = m ∧ e' = e) ∨ (twoTo 53 = m ∧ m' = twoTo 52 ∧ e' = e + 1)) :
    Rounds q (if maxExponent < e' then none else if m' = 0 then some (zero false) else some ⟨false, m', e'⟩) := by
  have hover := overflows_iff h hbelow
  have hle := le_of_inUnit h hbelow
  have hge := ge_of_inUnit h
  obtain ⟨hvalue, hlt, hbits, hleast, heven, hlimit⟩ : (m' : ℚ) * 2 ^ e' = m * 2 ^ e ∧ m' < twoTo 53 ∧
      (twoTo 52 ≤ m' ∨ e' = minExponent) ∧ minExponent ≤ e' ∧ (m % 2 = 0 → m' % 2 = 0) ∧ (overflowLimit ≤ q ↔ maxExponent < e') := by
    rcases hnormal with ⟨hcarry, rfl, rfl⟩ | ⟨rfl, rfl, rfl⟩
    · refine ⟨rfl, lt_of_le_of_ne hle hcarry, hge, hmin, id, ?_⟩
      rw [hover]
      simp [hcarry]
    · refine ⟨?_, by decide, .inl le_rfl, by omega, fun _ => rfl, ?_⟩
      · rw [cast_twoTo, cast_twoTo, zpow_add_one₀ two_ne_zero]
        ring
      · rw [hover]
        simp only [and_true]
        omega
  split
  · rename_i hgreat
    show overflowLimit ≤ |q|
    rw [abs_of_nonneg hnonneg]
    exact hlimit.2 hgreat
  · rename_i hsmall
    have hfits : |q| < overflowLimit := by
      rw [abs_of_nonneg hnonneg]
      exact lt_of_not_ge fun hgreat => hsmall (hlimit.1 hgreat)
    split
    · rename_i hzero
      refine ⟨hfits, isNearest_of_inUnit h ⟨by decide, .inr rfl, le_rfl, by decide⟩ ?_ fun _ => rfl⟩
      rw [← hvalue, hzero, zero, exact_mk, Nat.cast_zero, zero_mul, zero_mul]
    · refine ⟨hfits, isNearest_of_inUnit h ⟨hlt, hbits, hleast, not_lt.1 hsmall⟩ ?_ heven⟩
      rw [exact_mk, hvalue]

theorem rounds_zero : Rounds 0 (some (zero false)) := by
  have h : InUnit 0 minExponent 0 := ⟨.inl rfl, by simp, by simp⟩
  exact rounds_of_inUnit h le_rfl le_rfl (by positivity) (.inl ⟨by decide, rfl, rfl⟩)

end NearestAux

open NearestAux

/-- A quotient with a sign is rounded to the number nearest to it. -/
theorem rounds_ofRatio (negative : Bool) (num : ℕ) {den : ℕ} (hden : den ≠ 0) :
    Rounds (if negative then -((num : ℚ) / den) else num / den) (ofRatio negative num den) := by
  have hpositive : Rounds ((num : ℚ) / den) (ofRatio false num den) := by
    by_cases hnum : num = 0
    · subst hnum
      rw [Nat.cast_zero, zero_div]
      exact rounds_zero
    · obtain ⟨m, e, hnormal, heq⟩ := ofRatio_of_ne_zero hnum den
      obtain ⟨hmin, hbelow, -⟩ := unitOf_spec hnum hden
      rw [heq]
      exact rounds_of_inUnit (inUnit_unitOf hnum hden) (by positivity) hmin hbelow hnormal
  cases negative with
  | false => exact hpositive
  | true =>
    rw [ofRatio_true]
    exact rounds_neg hpositive

/-- An integer is rounded to the number nearest to it, unless it overflows. -/
theorem isNearest_ofInt {k : ℤ} (h : |(k : ℚ)| < overflowLimit) : IsNearest k (ofInt k) := by
  have hvalue : (if decide (k < 0) then -((k.natAbs : ℚ) / (1 : ℕ)) else k.natAbs / (1 : ℕ)) = k := by
    rw [Nat.cast_one, div_one, Nat.cast_natAbs]
    by_cases hneg : k < 0
    · rw [if_pos (decide_eq_true hneg), abs_of_neg hneg, Int.cast_neg, neg_neg]
    · rw [if_neg (by simpa using hneg), abs_of_nonneg (not_lt.1 hneg)]
  have hrounds := rounds_ofRatio (decide (k < 0)) k.natAbs one_ne_zero
  rw [hvalue] at hrounds
  unfold ofInt
  cases hround : ofRatio (decide (k < 0)) k.natAbs 1 with
  | none =>
    rw [hround] at hrounds
    exact absurd h (not_lt.2 hrounds)
  | some x =>
    rw [hround] at hrounds
    exact hrounds.2.1

end InferenceGate.Binary64
