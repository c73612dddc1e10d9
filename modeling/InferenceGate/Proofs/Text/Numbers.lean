import InferenceGate.Text.Integer
import Mathlib.Data.Nat.Digits.Defs

/-!
# Numbers in decimal

What the digits of a text stand for by their places, and which text is read as which whole number: its digits after at most one sign.
-/

namespace InferenceGate.Text

/-- Decimal digits, at least one. -/
def IsNumeral (ds : List Char) : Prop := ds ≠ [] ∧ ∀ c ∈ ds, isDigit c = true

/-- What decimal digits stand for, the last of them for ones and each before it for ten times as much. -/
def placeValue (ds : List Char) : Nat := Nat.ofDigits 10 (ds.reverse.map fun c => c.toNat - 48)

/-- The whole number that a text spells: what its digits stand for, with the sign before them if there is one. -/
inductive Spells : List Char → Int → Prop where
  | unsigned {ds : List Char} : IsNumeral ds → Spells ds (placeValue ds)
  | plus {ds : List Char} : IsNumeral ds → Spells ('+' :: ds) (placeValue ds)
  | minus {ds : List Char} : IsNumeral ds → Spells ('-' :: ds) (-(placeValue ds : Int))

variable {cs ds : List Char} {n : Int}

/-- Reading digits one by one comes to what they stand for by their places. -/
theorem digitsValue_eq (ds : List Char) : digitsValue ds = placeValue ds := by
  unfold digitsValue digitsFrom placeValue
  rw [Nat.ofDigits_eq_foldr, List.foldr_map, List.foldr_reverse]
  simp [Nat.add_comm]

/-- A text is read as a natural number when it is a numeral, and as what it stands for. -/
theorem natural?_eq_some {k : Nat} : natural? cs = some k ↔ IsNumeral cs ∧ placeValue cs = k := by
  unfold natural? IsNumeral
  rw [digitsValue_eq]
  by_cases hempty : cs = []
  · simp [hempty]
  · by_cases hall : ∀ c ∈ cs, isDigit c = true
    · have hall' : cs.all isDigit = true := List.all_eq_true.2 hall
      rw [if_neg (by simp [hempty, hall']), Option.some_inj]
      exact ⟨fun h => ⟨⟨hempty, hall⟩, h⟩, fun h => h.2⟩
    · simp [hempty, hall]

theorem signed?_plus (cs : List Char) : signed? ('+' :: cs) = (natural? cs).map Int.ofNat := rfl

/-- What stands behind a minus sign is read as a natural number and negated. -/
theorem signed?_minus (cs : List Char) : signed? ('-' :: cs) = (natural? cs).map Int.negOfNat := by
  show Option.map _ (Option.bind (natural? cs) _) = _
  cases natural? cs with
  | none => rfl
  | some k => exact congrArg some (Int.negOfNat_eq (n := k)).symm

/-- A numeral does not begin with a sign. -/
theorem signed?_numeral (h : IsNumeral cs) : signed? cs = (natural? cs).map Int.ofNat := by
  have hhead : ∀ c ds, isDigit c = false → cs ≠ c :: ds := by
    rintro c ds hc rfl
    rw [h.2 c List.mem_cons_self] at hc
    nomatch hc
  exact signed?.eq_3 cs (fun ds he => hhead '+' ds rfl he) (fun ds he => hhead '-' ds rfl he)

/-- A text is read as the number that it spells. -/
theorem signed?_eq_some : signed? cs = some n ↔ Spells cs n := by
  constructor
  · fun_cases signed? cs with
    | case1 ds =>
      intro h
      obtain ⟨k, hk, rfl⟩ := Option.map_eq_some_iff.1 h
      obtain ⟨hnum, rfl⟩ := natural?_eq_some.1 hk
      exact .plus hnum
    | case2 ds =>
      intro h
      obtain ⟨k, hk, rfl⟩ := Option.map_eq_some_iff.1 ((signed?_minus ds).symm.trans h)
      obtain ⟨hnum, rfl⟩ := natural?_eq_some.1 hk
      rw [Int.negOfNat_eq]
      exact .minus hnum
    | case3 =>
      intro h
      obtain ⟨k, hk, rfl⟩ := Option.map_eq_some_iff.1 h
      obtain ⟨hnum, rfl⟩ := natural?_eq_some.1 hk
      exact .unsigned hnum
  · intro h
    cases h with
    | unsigned hnum =>
      rw [signed?_numeral hnum, natural?_eq_some.2 ⟨hnum, rfl⟩]
      rfl
    | plus hnum =>
      rw [signed?_plus, natural?_eq_some.2 ⟨hnum, rfl⟩]
      rfl
    | minus hnum =>
      rw [signed?_minus, natural?_eq_some.2 ⟨hnum, rfl⟩, Option.map_some, Int.negOfNat_eq]
      rfl

/-- A text is read as a signed word when it spells one. -/
theorem i64?_eq_some {s : String} : i64? s = some n ↔ Spells s.toList n ∧ minI64 ≤ n ∧ n ≤ maxI64 := by
  unfold i64? inI64
  rw [Option.filter_eq_some_iff, signed?_eq_some]
  simp

/-- A text that spells no signed word is not read as one. -/
theorem i64?_eq_none {s : String} : i64? s = none ↔ ∀ k, Spells s.toList k → k < minI64 ∨ maxI64 < k := by
  rw [Option.eq_none_iff_forall_ne_some]
  refine forall_congr' fun k => ?_
  rw [Ne, i64?_eq_some, not_and]
  exact imp_congr_right fun _ => by omega

end InferenceGate.Text
