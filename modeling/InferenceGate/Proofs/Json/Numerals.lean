import InferenceGate.Proofs.Json.Extent
import InferenceGate.Proofs.Json.RoundTrip
import Mathlib.Data.Nat.Digits.Defs
import Mathlib.Tactic.IntervalCases

/-!
# Whole numbers are read back

The decimal text of a whole number that a word holds, signed or unsigned, is a literal of that number: the digits are gathered into a
word one after the other and none is left over. So such a number is legible wherever a value may stand, as texts, lists and tables are.
-/

namespace InferenceGate.Json

open Document

namespace NumeralsAux

open Reader RoundTripAux

variable {b : Builder} {r : Reader} {negative : Bool} {n : Nat} {rest : Bytes}

/-! ## The word of digits -/

/-- One digit more is gathered while the word holds it. -/
theorem gather_concat {ds : List Nat} {word taken word' taken' d : Nat} (h : Binary64.gather word taken ds = (word', taken', []))
    (hd : 10 * word' + d ≤ maxU64) : Binary64.gather word taken (ds ++ [d]) = (10 * word' + d, taken' + 1, []) := by
  induction ds generalizing word taken with
  | nil =>
    obtain ⟨rfl, htaken⟩ := Prod.mk.inj h
    obtain rfl : taken = taken' := (Prod.mk.inj htaken).1
    rw [List.nil_append, Binary64.gather, if_pos hd, Binary64.gather]
  | cons e ds ih =>
    rw [Binary64.gather] at h
    split at h
    · rename_i he
      rw [List.cons_append, Binary64.gather, if_pos he]
      exact ih h
    · exact nomatch h

/-- The digits of a number that a word holds are gathered into it. -/
theorem gather_digits (h : n ≤ maxU64) : Binary64.gather 0 0 (Nat.digits 10 n).reverse = (n, (Nat.digits 10 n).length, []) := by
  induction n using Nat.strongRecOn with
  | ind n ih =>
    by_cases hn : n = 0
    · subst hn
      rfl
    · have hpos : 0 < n := Nat.pos_of_ne_zero hn
      have hwhole : 10 * (n / 10) + n % 10 = n := Nat.div_add_mod n 10
      rw [Nat.digits_def' (by decide) hpos, List.reverse_cons, gather_concat (ih (n / 10) (by omega) (by omega)) (by omega), hwhole,
        List.length_cons]

/-! ## The literal of a number -/

/-- The literal that the digits of a number come to. -/
def literalOf (negative : Bool) (n : Nat) : Literal := { negative, whole := if n = 0 then [0] else Nat.digits 10 n }

/-- Where the literal of a number stands. -/
def phaseOf (n : Nat) : Phase := if n = 0 then .leadingZero else .whole

/-- A literal of digits that a word holds is read as the number that they stand for. -/
theorem number?_literalOf (h : n ≤ maxU64) : (literalOf negative n).number? = some (integerOf negative n) := by
  unfold literalOf
  by_cases hn : n = 0
  · subst hn
    cases negative <;> rfl
  · rw [if_neg hn]
    unfold Literal.number?
    rw [gather_digits h]
    rfl

/-- The digits of ASCII, as bytes. -/
theorem digitByte_spec : ∀ d < 10, String.utf8EncodeChar d.digitChar = [UInt8.ofNat (0x30 + d)] ∧
    Bytes.isDigit (UInt8.ofNat (0x30 + d)) = true ∧ Bytes.digitValue (UInt8.ofNat (0x30 + d)) = d ∧
    (UInt8.ofNat (0x30 + d) = 0x30 ↔ d = 0) := by
  decide

/-- A reader from which the first digit of a number begins its literal. -/
def BeginsLiteral (r : Reader) (negative : Bool) (b : Builder) : Prop :=
  ∀ d < 10, r.step (UInt8.ofNat (0x30 + d)) = some { scan := .number (literalOf negative d) (phaseOf d), builder := b }

/-- A digit goes on with a literal that is not zero. -/
theorem step_digit (hn : n ≠ 0) {d : Nat} (hd : d < 10) :
    step { scan := .number (literalOf negative n) (phaseOf n), builder := b } (UInt8.ofNat (0x30 + d)) =
      some { scan := .number (literalOf negative (10 * n + d)) (phaseOf (10 * n + d)), builder := b } := by
  obtain ⟨-, hdigit, hvalue, -⟩ := digitByte_spec d hd
  have hmore : 10 * n + d ≠ 0 := by omega
  have hdigits : Nat.digits 10 (10 * n + d) = d :: Nat.digits 10 n := by
    rw [Nat.digits_def' (by decide) (Nat.pos_of_ne_zero hmore)]
    congr 2 <;> omega
  unfold phaseOf literalOf
  simp only [if_neg hn, if_neg hmore, hdigits]
  simp only [step, Literal.step, hdigit, hvalue, if_true]

/-- The digits of a number are its literal: the text ends in the last digit, and what stands before it is the text of the number without
that digit. -/
theorem feed_digits (h : BeginsLiteral r negative b) (n : Nat) :
    feed r (Bytes.ofText (toString n)) = some { scan := .number (literalOf negative n) (phaseOf n), builder := b } := by
  rw [Nat.toString_eq_ofList_toDigits, Bytes.ofText_ofList]
  induction n using Nat.strongRecOn with
  | ind n ih =>
    by_cases hn : n < 10
    · rw [Nat.toDigits_of_lt_base hn, List.flatMap_singleton, (digitByte_spec n hn).1, feed, h n hn]
      rfl
    · have hten : n % 10 < 10 := Nat.mod_lt n (by decide)
      have hwhole : 10 * (n / 10) + n % 10 = n := Nat.div_add_mod n 10
      rw [Nat.toDigits_of_base_le (by decide) (Nat.le_of_not_lt hn), List.flatMap_append, List.flatMap_singleton,
        (digitByte_spec _ hten).1, Reader.feed_append, ih (n / 10) (by omega), Option.bind_some, feed, step_digit (by omega) hten, hwhole]
      rfl

/-- A digit between tokens begins a literal. -/
theorem beginsLiteral_between (b : Builder) : BeginsLiteral { builder := b } false b := by
  intro d hd
  interval_cases d <;> rfl

/-- A digit after the sign begins a literal. -/
theorem beginsLiteral_minus (b : Builder) : BeginsLiteral { scan := .number { negative := true } .minus, builder := b } true b := by
  intro d hd
  interval_cases d <;> rfl

/-- What may follow an item ends a literal, which stands for its number there. -/
theorem feed_literal (hb : b.TakesValue) (hn : n ≤ maxU64) (hrest : FollowsItem rest) :
    feed { scan := .number (literalOf negative n) (phaseOf n), builder := b } rest =
      feed { builder := b.put (.leaf (.number (some (integerOf negative n)))) } rest := by
  obtain ⟨c, cs, rfl, hc⟩ := hrest
  have hended : (literalOf negative n).step (phaseOf n) c = .ended := by
    have hphase : phaseOf n = .leadingZero ∨ phaseOf n = .whole := by
      unfold phaseOf
      split <;> simp
    simp only [List.mem_cons, List.not_mem_nil, or_false] at hc
    rcases hphase with h | h <;> rw [h] <;> rcases hc with rfl | rfl | rfl <;> rfl
  have hstep : step { scan := .number (literalOf negative n) (phaseOf n), builder := b } c =
      start (b.put (.leaf (.number (some (integerOf negative n))))) c := by
    simp only [step, hended, number?_literalOf hn, atom_of_takesValue hb, Option.bind_some]
  rw [feed, feed, hstep]
  rfl

end NumeralsAux

open NumeralsAux RoundTripAux

/-- A whole number that a word holds, signed or unsigned, is read back from its text. -/
theorem legible_integer {n : Int} (h : inI64 n ∨ inU64 n) : Legible (.number (.integer n)) := by
  intro b rest hb hrest
  simp only [inI64, inU64, Bool.and_eq_true, decide_eq_true_eq] at h
  unfold minI64 maxI64 at h
  cases n with
  | ofNat n =>
    have hn : n ≤ maxU64 := by
      rw [Int.ofNat_eq_natCast] at h
      unfold maxU64 at h ⊢
      omega
    have htext : Value.render (.number (.integer (Int.ofNat n))) = toString n := rfl
    rw [htext, Reader.feed_append, feed_digits (beginsLiteral_between b) n, Option.bind_some, feed_literal hb hn hrest]
    rfl
  | negSucc n =>
    have hn : n + 1 ≤ 9223372036854775808 := by omega
    have htext : Value.render (.number (.integer (Int.negSucc n))) = "-" ++ toString (n + 1) := rfl
    have hminus : Reader.step { builder := b } 0x2d = some { scan := .number { negative := true } .minus, builder := b } := rfl
    have hnumber : integerOf true (n + 1) = .integer (Int.negSucc n) := by
      have hwords : ((n + 1 == 0) || decide (9223372036854775808 < n + 1)) = false := by simpa using hn
      unfold integerOf
      rw [hwords]
      rfl
    rw [htext, Bytes.ofText_append, List.append_assoc]
    show Reader.feed { builder := b } (0x2d :: (Bytes.ofText (toString (n + 1)) ++ rest)) = _
    rw [feed_cons_of_step hminus, Reader.feed_append, feed_digits (beginsLiteral_minus b) (n + 1), Option.bind_some,
      feed_literal hb (hn.trans (by decide)) hrest, hnumber]
    rfl

/-- A whole number that may be absent is read back if it is written. -/
theorem legible_of_map_ofInt {o : Option Int} {v : Value} (ho : ∀ n, o = some n → inI64 n) (hv : o.map Value.ofInt = some v) :
    Legible v := by
  obtain ⟨n, rfl, rfl⟩ := Option.map_eq_some_iff.1 hv
  exact legible_integer (.inl (ho n rfl))

end InferenceGate.Json
