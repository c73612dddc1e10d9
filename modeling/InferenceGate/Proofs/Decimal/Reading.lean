import InferenceGate.Decimal.Reading
import InferenceGate.Proofs.Decimal.Nearest
import InferenceGate.Proofs.Text.Ascii
import InferenceGate.Proofs.Text.Numbers
import Mathlib.Data.List.TakeWhile

/-!
# Decimal texts

What a decimal text spells: its digits by their places, with a point before the fraction and a power of ten behind it, after at most one
sign (`SpellsDecimal`). Such a text is read as the number of the format nearest to what it spells, unless that overflows, and no other text
is read (`rounds_nearest?`, `decimal_of_nearest?_eq_some`).
-/

namespace InferenceGate.Binary64

open Text (IsNumeral placeValue Spells)

/-- The power of ten behind a decimal: a whole number after the letter `e` of either case, and zero where there is nothing. -/
inductive SpellsPower : List Char → ℤ → Prop where
  | absent : SpellsPower [] 0
  | marked {mark : Char} {cs : List Char} {power : ℤ} : mark = 'e' ∨ mark = 'E' → Spells cs power → SpellsPower (mark :: cs) power

/-- A decimal without a sign: digits, with a point before those of the fraction, and a power of ten. -/
inductive SpellsMagnitude : List Char → ℚ → Prop where
  | whole {ds cs : List Char} {power : ℤ} : IsNumeral ds → SpellsPower cs power → SpellsMagnitude (ds ++ cs) (placeValue ds * 10 ^ power)
  | pointed {ds fs cs : List Char} {power : ℤ} : IsNumeral (ds ++ fs) → SpellsPower cs power →
      SpellsMagnitude (ds ++ '.' :: (fs ++ cs)) (placeValue (ds ++ fs) * 10 ^ (power - fs.length))

/-- A decimal after at most one sign. -/
inductive SpellsDecimal : List Char → ℚ → Prop where
  | unsigned {cs : List Char} {q : ℚ} : SpellsMagnitude cs q → SpellsDecimal cs q
  | plus {cs : List Char} {q : ℚ} : SpellsMagnitude cs q → SpellsDecimal ('+' :: cs) q
  | minus {cs : List Char} {q : ℚ} : SpellsMagnitude cs q → SpellsDecimal ('-' :: cs) (-q)

namespace ReadingAux

open NearestAux

variable {negative : Bool} {digits count : ℕ} {power : ℤ} {ds fs cs : List Char} {q : ℚ}

/-! ## Great and small powers of ten -/

/-- A power of ten is no less than that of eight. -/
theorem two_pow_le_ten_pow (k : ℕ) : (2 : ℚ) ^ (3 * k) ≤ 10 ^ k := by
  rw [pow_mul]
  exact pow_le_pow_left₀ (by norm_num) (by norm_num) k

/-- A magnitude of more than four hundred digits before the point overflows. -/
theorem overflowLimit_le : overflowLimit ≤ 10 ^ (400 : ℤ) := by
  have htwo : (2 : ℚ) ^ (3 * 342) ≤ 10 ^ 342 := two_pow_le_ten_pow 342
  have hten : (10 : ℚ) ^ 342 ≤ 10 ^ 400 := pow_le_pow_right₀ (by norm_num) (by norm_num)
  have hlimit : overflowLimit ≤ 2 ^ (3 * 342) := by
    unfold overflowLimit
    rw [show 3 * 342 = 970 + 56 from rfl, pow_add]
    have hpos : (0 : ℚ) < 2 ^ 970 := by positivity
    generalize (2 : ℚ) ^ 970 = power at hpos
    linarith
  exact hlimit.trans (htwo.trans (by exact_mod_cast hten))

/-- A magnitude of more than four hundred zeros behind the point is less than half the least unit. -/
theorem ten_zpow_le : (10 : ℚ) ^ (-400 : ℤ) ≤ 1 / 2 * 2 ^ minExponent := by
  have hmono : (2 : ℚ) ^ (1075 : ℕ) ≤ 2 ^ (3 * 400) := pow_le_pow_right₀ one_le_two (by norm_num)
  have hten : (2 : ℚ) ^ (1075 : ℕ) ≤ 10 ^ (400 : ℕ) := hmono.trans (two_pow_le_ten_pow 400)
  have hunit : (1 / 2 : ℚ) * 2 ^ minExponent = ((2 : ℚ) ^ (1075 : ℕ))⁻¹ := by
    rw [show minExponent = -((1075 : ℕ) : ℤ) + 1 from rfl, zpow_add_one₀ two_ne_zero, zpow_neg, zpow_natCast]
    generalize ((2 : ℚ) ^ (1075 : ℕ))⁻¹ = power
    ring
  rw [hunit, show (-400 : ℤ) = -((400 : ℕ) : ℤ) from rfl, zpow_neg, zpow_natCast]
  exact inv_anti₀ (by positivity) hten

/-- A power of ten as a fraction of naturals. -/
theorem ten_zpow (e : ℤ) : (10 : ℚ) ^ e = tenTo e.toNat / tenTo (-e).toNat := by
  obtain ⟨k, rfl | rfl⟩ := e.eq_nat_or_neg
  · simp [tenTo]
  · simp [tenTo]

/-! ## Digits times a power of ten -/

/-- Reading below zero is reading above it, negated. -/
theorem ofDecimal_true (digits count : ℕ) (power : ℤ) :
    ofDecimal true digits count power = (ofDecimal false digits count power).map neg := by
  unfold ofDecimal
  split
  · rfl
  · split
    · rfl
    · split
      · rfl
      · exact ofRatio_true _ _

theorem ten_pow_mul_zpow (count : ℕ) (power : ℤ) : (10 : ℚ) ^ count * 10 ^ power = 10 ^ (power + count) := by
  rw [zpow_add₀ (by norm_num), zpow_natCast, mul_comm]

/-- Digits without zeros before them overflow when they reach beyond four hundred places. -/
theorem overflows_of_digits (hlead : 10 ^ count ≤ 10 * digits) (hgreat : 400 < power + count) :
    overflowLimit ≤ (digits : ℚ) * 10 ^ power := by
  have hpower : (0 : ℚ) < 10 ^ power := zpow_pos (by norm_num) power
  have hten : (10 : ℚ) ^ (400 + 1 : ℤ) ≤ 10 ^ (power + count) := zpow_le_zpow_right₀ (by norm_num) (by omega)
  rw [zpow_add_one₀ (by norm_num), ← ten_pow_mul_zpow] at hten
  have hlead' : (10 : ℚ) ^ count ≤ 10 * digits := by exact_mod_cast hlead
  have hscaled := mul_le_mul_of_nonneg_right hlead' hpower.le
  have hlimit := overflowLimit_le
  linarith

/-- Digits that begin behind four hundred zeros are rounded to no unit at all. -/
theorem inUnit_of_digits (hlt : digits < 10 ^ count) (hsmall : power + count < -400) :
    InUnit (digits * 10 ^ power) minExponent 0 ∧ (digits : ℚ) * 10 ^ power < 2 ^ 53 * 2 ^ minExponent := by
  have hpower : (0 : ℚ) < 10 ^ power := zpow_pos (by norm_num) power
  have hunit := unit_pos minExponent
  have hten : (10 : ℚ) ^ (power + count) ≤ 10 ^ (-400 : ℤ) := zpow_le_zpow_right₀ (by norm_num) (by omega)
  rw [← ten_pow_mul_zpow] at hten
  have hlt' : (digits : ℚ) < 10 ^ count := by exact_mod_cast hlt
  have hscaled := mul_lt_mul_of_pos_right hlt' hpower
  have hhalf : (digits : ℚ) * 10 ^ power ≤ 1 / 2 * 2 ^ minExponent := by linarith [ten_zpow_le]
  refine ⟨⟨.inl rfl, ?_, fun _ => rfl⟩, by linarith⟩
  rw [Nat.cast_zero, zero_sub, abs_neg, abs_of_nonneg (by positivity)]
  exact (div_le_iff₀ hunit).2 hhalf

/-- So many digits, the first of them not zero, times a power of ten are rounded to the nearest number. -/
theorem rounds_ofDecimal (negative : Bool) (power : ℤ) (hlt : digits < 10 ^ count) (hlead : digits ≠ 0 → 10 ^ count ≤ 10 * digits) :
    Rounds (if negative then -(digits * 10 ^ power) else digits * 10 ^ power) (ofDecimal negative digits count power) := by
  have hpositive : Rounds (digits * 10 ^ power) (ofDecimal false digits count power) := by
    unfold ofDecimal
    split
    · rename_i hzero
      rw [beq_iff_eq.1 hzero, Nat.cast_zero, zero_mul]
      exact rounds_zero
    split
    · rename_i hzero hgreat
      show overflowLimit ≤ |(digits : ℚ) * 10 ^ power|
      rw [abs_of_nonneg (by positivity)]
      exact overflows_of_digits (hlead (by simpa using hzero)) hgreat
    split
    · rename_i hsmall
      obtain ⟨hround, hbelow⟩ := inUnit_of_digits hlt hsmall
      exact rounds_of_inUnit hround (by positivity) le_rfl hbelow (.inl ⟨by decide, rfl, rfl⟩)
    · have hden : tenTo (-power).toNat ≠ 0 := (Nat.pow_pos (by decide)).ne'
      have hratio := rounds_ofRatio false (digits * tenTo power.toNat) hden
      rwa [if_neg Bool.false_ne_true, Nat.cast_mul, mul_div_assoc, ← ten_zpow] at hratio
  cases negative with
  | false => exact hpositive
  | true =>
    rw [ofDecimal_true]
    exact rounds_neg hpositive

/-! ## Places -/

/-- The first digit counts for its place, the others for what they stand for without it. -/
theorem placeValue_cons (c : Char) (ds : List Char) : placeValue (c :: ds) = (c.toNat - 48) * 10 ^ ds.length + placeValue ds := by
  unfold placeValue
  rw [List.reverse_cons, List.map_append, Nat.ofDigits_append]
  simp [Nat.add_comm, Nat.mul_comm]

/-- Digits stand for less than the power of ten of their number. -/
theorem placeValue_lt (h : ∀ c ∈ ds, Text.isDigit c = true) : placeValue ds < 10 ^ ds.length := by
  have hdigits : ∀ d ∈ ds.reverse.map fun c => c.toNat - 48, d < 10 := by
    intro d hd
    obtain ⟨c, hc, rfl⟩ := List.mem_map.1 hd
    have hbounds := Text.bounds_of_isDigit (h c (List.mem_reverse.1 hc))
    omega
  have hlt := Nat.ofDigits_lt_base_pow_length (by decide) hdigits
  rwa [List.length_map, List.length_reverse] at hlt

/-- Zeros before the first other digit stand for nothing. -/
theorem placeValue_dropZeros (ds : List Char) : placeValue (ds.dropWhile (· == '0')) = placeValue ds := by
  induction ds with
  | nil => rfl
  | cons c ds ih =>
    by_cases hc : c = '0'
    · subst hc
      rw [List.dropWhile_cons_of_pos rfl, ih, placeValue_cons]
      simp
    · rw [List.dropWhile_cons_of_neg (by simpa using hc)]

/-- Digits without zeros before them stand for a tenth at least of the power of ten that is beyond them. -/
theorem pow_le_dropZeros (h : ∀ c ∈ ds, Text.isDigit c = true) (hzero : placeValue (ds.dropWhile (· == '0')) ≠ 0) :
    10 ^ (ds.dropWhile (· == '0')).length ≤ 10 * placeValue (ds.dropWhile (· == '0')) := by
  induction ds with
  | nil => exact absurd rfl hzero
  | cons c ds ih =>
    by_cases hc : c = '0'
    · rw [List.dropWhile_cons_of_pos (by simpa using hc)] at hzero ⊢
      exact ih (fun d hd => h d (List.mem_cons_of_mem _ hd)) hzero
    · rw [List.dropWhile_cons_of_neg (by simpa using hc), placeValue_cons, List.length_cons, pow_succ]
      obtain ⟨hlow, -⟩ := Text.bounds_of_isDigit (h c List.mem_cons_self)
      have hnonzero : c.toNat ≠ '0'.toNat := fun heq => hc (Char.toNat_inj.1 heq)
      have hdigit : 1 * 10 ^ ds.length ≤ (c.toNat - 48) * 10 ^ ds.length :=
        Nat.mul_le_mul_right _ (by have h48 : '0'.toNat = 48 := rfl; omega)
      omega

/-- Digits times a power of ten, read without the zeros before them. -/
theorem rounds_digits (negative : Bool) (power : ℤ) (h : ∀ c ∈ ds, Text.isDigit c = true) :
    Rounds (if negative then -(placeValue ds * 10 ^ power) else placeValue ds * 10 ^ power)
      (ofDecimal negative (Text.digitsValue (ds.dropWhile (· == '0'))) (ds.dropWhile (· == '0')).length power) := by
  have hdrop : ∀ c ∈ ds.dropWhile (· == '0'), Text.isDigit c = true := fun c hc => h c (List.dropWhile_subset _ hc)
  rw [Text.digitsValue_eq, ← placeValue_dropZeros]
  exact rounds_ofDecimal negative power (placeValue_lt hdrop) (pow_le_dropZeros h)

/-! ## The parts of a text -/

/-- A power is read as the number that it spells. -/
theorem power?_eq_some : power? cs = some power ↔ SpellsPower cs power := by
  cases cs with
  | nil =>
    constructor
    · intro h
      obtain rfl : 0 = power := Option.some_inj.1 h
      exact .absent
    · rintro ⟨⟩
      rfl
  | cons c cs =>
    have hmark : (c == 'e' || c == 'E') = true ↔ c = 'e' ∨ c = 'E' := by simp
    have heq : power? (c :: cs) = if c == 'e' || c == 'E' then Text.signed? cs else none := rfl
    rw [heq]
    constructor
    · intro h
      split at h
      · rename_i hc
        exact .marked (hmark.1 hc) (Text.signed?_eq_some.1 h)
      · nomatch h
    · rintro (_ | ⟨hc, hspells⟩)
      rw [if_pos (hmark.2 hc)]
      exact Text.signed?_eq_some.2 hspells

/-- The power behind a decimal begins with no digit and no point. -/
theorem power_begins (h : SpellsPower cs power) :
    cs.takeWhile Text.isDigit = [] ∧ cs.dropWhile Text.isDigit = cs ∧ ∀ tail, cs ≠ '.' :: tail := by
  cases h with
  | absent => exact ⟨rfl, rfl, nofun⟩
  | marked hmark _ => rcases hmark with rfl | rfl <;> exact ⟨rfl, rfl, nofun⟩

/-- The number of given digits before and behind the point and of the power that a text names. -/
def ofParts (negative : Bool) (ds fs cs : List Char) : Option Binary64 :=
  if ds.isEmpty && fs.isEmpty then none
  else (power? cs).bind fun p => ofDecimal negative (Text.digitsValue ((ds ++ fs).dropWhile (· == '0')))
    ((ds ++ fs).dropWhile (· == '0')).length (p - fs.length)

/-- A magnitude with a point is read in its parts. -/
theorem magnitude?_pointed (negative : Bool) {tail : List Char} (h : cs.dropWhile Text.isDigit = '.' :: tail) :
    magnitude? negative cs =
      ofParts negative (cs.takeWhile Text.isDigit) (tail.takeWhile Text.isDigit) (tail.dropWhile Text.isDigit) := by
  unfold magnitude? ofParts
  simp only [h]

/-- A magnitude without a point is read in its parts, with no digits behind. -/
theorem magnitude?_whole (negative : Bool) (h : ∀ tail, cs.dropWhile Text.isDigit ≠ '.' :: tail) :
    magnitude? negative cs = ofParts negative (cs.takeWhile Text.isDigit) [] (cs.dropWhile Text.isDigit) := by
  unfold magnitude? ofParts
  generalize cs.dropWhile Text.isDigit = rest at h
  dsimp only
  split
  · rename_i tail
    exact absurd rfl (h tail)
  · rfl

theorem noDigits_iff : (ds.isEmpty && fs.isEmpty) = true ↔ ds ++ fs = [] := by simp

/-- The parts of a magnitude are rounded to the nearest number. -/
theorem rounds_ofParts (negative : Bool) (hnum : IsNumeral (ds ++ fs)) (hpower : SpellsPower cs power) :
    Rounds (if negative then -(placeValue (ds ++ fs) * 10 ^ (power - fs.length)) else placeValue (ds ++ fs) * 10 ^ (power - fs.length))
      (ofParts negative ds fs cs) := by
  unfold ofParts
  rw [if_neg (noDigits_iff.not.2 hnum.1), power?_eq_some.2 hpower]
  exact rounds_digits negative _ hnum.2

/-- What is read of parts has digits, and a power that is spelled. -/
theorem parts_of_eq_some {x : Binary64} (h : ofParts negative ds fs cs = some x) : ds ++ fs ≠ [] ∧ ∃ power, SpellsPower cs power := by
  unfold ofParts at h
  split at h
  · nomatch h
  · rename_i hdigits
    obtain ⟨power, hpower, -⟩ := Option.bind_eq_some_iff.1 h
    exact ⟨noDigits_iff.not.1 hdigits, power, power?_eq_some.1 hpower⟩

/-- A magnitude is rounded to the nearest number. -/
theorem rounds_magnitude? (negative : Bool) (h : SpellsMagnitude cs q) : Rounds (if negative then -q else q) (magnitude? negative cs) := by
  cases h with
  | @whole ds cs power hnum hpower =>
    obtain ⟨htake, hdrop, hpoint⟩ := power_begins hpower
    have hrest : (ds ++ cs).dropWhile Text.isDigit = cs := by rw [List.dropWhile_append_of_pos hnum.2, hdrop]
    have hdigits : (ds ++ cs).takeWhile Text.isDigit = ds := by rw [List.takeWhile_append_of_pos hnum.2, htake, List.append_nil]
    rw [magnitude?_whole negative (by rwa [hrest]), hrest, hdigits]
    have hnum' : IsNumeral (ds ++ []) := by rwa [List.append_nil]
    have hrounds := rounds_ofParts negative hnum' hpower
    rwa [List.append_nil, List.length_nil, Nat.cast_zero, sub_zero] at hrounds
  | @pointed ds fs cs power hnum hpower =>
    obtain ⟨htake, hdrop, -⟩ := power_begins hpower
    obtain ⟨hds, hfs⟩ := List.forall_mem_append.1 hnum.2
    have hrest : (ds ++ '.' :: (fs ++ cs)).dropWhile Text.isDigit = '.' :: (fs ++ cs) := by
      rw [List.dropWhile_append_of_pos hds]
      rfl
    have hdigits : (ds ++ '.' :: (fs ++ cs)).takeWhile Text.isDigit = ds := by
      rw [List.takeWhile_append_of_pos hds]
      exact List.append_nil ds
    have hpower' : (fs ++ cs).dropWhile Text.isDigit = cs := by rw [List.dropWhile_append_of_pos hfs, hdrop]
    have hfraction : (fs ++ cs).takeWhile Text.isDigit = fs := by rw [List.takeWhile_append_of_pos hfs, htake, List.append_nil]
    rw [magnitude?_pointed negative hrest, hdigits, hpower', hfraction]
    exact rounds_ofParts negative hnum hpower

/-- A text that is read as a magnitude spells one. -/
theorem magnitude_of_eq_some {x : Binary64} (h : magnitude? negative cs = some x) : ∃ q, SpellsMagnitude cs q := by
  have hdigits : ∀ {l : List Char}, ∀ c ∈ l.takeWhile Text.isDigit, Text.isDigit c = true := fun c hc => List.mem_takeWhile_imp hc
  by_cases hpoint : ∃ tail, cs.dropWhile Text.isDigit = '.' :: tail
  · obtain ⟨tail, htail⟩ := hpoint
    rw [magnitude?_pointed negative htail] at h
    obtain ⟨hne, power, hpower⟩ := parts_of_eq_some h
    have hspells := SpellsMagnitude.pointed ⟨hne, List.forall_mem_append.2 ⟨hdigits, hdigits⟩⟩ hpower
    rw [List.takeWhile_append_dropWhile, ← htail, List.takeWhile_append_dropWhile] at hspells
    exact ⟨_, hspells⟩
  · rw [magnitude?_whole negative (not_exists.1 hpoint)] at h
    obtain ⟨hne, power, hpower⟩ := parts_of_eq_some h
    rw [List.append_nil] at hne
    have hspells := SpellsMagnitude.whole ⟨hne, hdigits⟩ hpower
    rw [List.takeWhile_append_dropWhile] at hspells
    exact ⟨_, hspells⟩

/-- A magnitude does not begin with a sign. -/
theorem magnitude_begins (h : SpellsMagnitude cs q) : (∀ tail, cs ≠ '+' :: tail) ∧ ∀ tail, cs ≠ '-' :: tail := by
  have hdigit : ∀ {c : Char} {ds : List Char}, (∀ d ∈ c :: ds, Text.isDigit d = true) → c ≠ '+' ∧ c ≠ '-' := by
    intro c ds hds
    have hc := hds c List.mem_cons_self
    constructor <;> rintro rfl <;> nomatch hc
  cases h with
  | @whole ds cs _ hnum _ =>
    cases ds with
    | nil => exact absurd rfl hnum.1
    | cons c ds =>
      obtain ⟨hplus, hminus⟩ := hdigit hnum.2
      simp [hplus, hminus]
  | @pointed ds fs cs _ hnum _ =>
    cases ds with
    | nil => simp
    | cons c ds =>
      obtain ⟨hplus, hminus⟩ := hdigit hnum.2
      simp [hplus, hminus]

end ReadingAux

open ReadingAux

variable {s : String} {q : ℚ}

/-- A decimal text is read as the number nearest to what it spells. -/
theorem rounds_nearest? (h : SpellsDecimal s.toList q) : Rounds q (nearest? s) := by
  unfold nearest?
  generalize s.toList = cs at h
  cases h with
  | unsigned hmagnitude =>
    obtain ⟨hplus, hminus⟩ := magnitude_begins hmagnitude
    split
    · rename_i tail
      exact absurd rfl (hplus tail)
    · rename_i tail
      exact absurd rfl (hminus tail)
    · exact rounds_magnitude? false hmagnitude
  | plus hmagnitude => exact rounds_magnitude? false hmagnitude
  | minus hmagnitude => exact rounds_magnitude? true hmagnitude

/-- A text that is read as a number is a decimal text. -/
theorem decimal_of_nearest?_eq_some {x : Binary64} (h : nearest? s = some x) : ∃ q, SpellsDecimal s.toList q := by
  unfold nearest? at h
  split at h
  · rename_i tail heq
    obtain ⟨q, hq⟩ := magnitude_of_eq_some h
    exact ⟨q, heq ▸ .plus hq⟩
  · rename_i tail heq
    obtain ⟨q, hq⟩ := magnitude_of_eq_some h
    exact ⟨-q, heq ▸ .minus hq⟩
  · obtain ⟨q, hq⟩ := magnitude_of_eq_some h
    exact ⟨q, .unsigned hq⟩

end InferenceGate.Binary64
