import InferenceGate.Text.Blank

/-!
# Whole numbers of sixty-four bits

The bounds of the words in which ids, counts and times are kept, clamping into them, and reading a whole number from the
text of its decimal digits.
-/

namespace InferenceGate

/-- The least signed word. -/
def minI64 : Int := -9223372036854775808

/-- The greatest signed word. -/
def maxI64 : Int := 9223372036854775807

/-- The greatest unsigned word. -/
def maxU64 : Nat := 18446744073709551615

/-- A number in the range of signed words. -/
def inI64 (n : Int) : Bool := minI64 ≤ n && n ≤ maxI64

/-- The signed words are the numbers between the least and the greatest of them. -/
theorem inI64_iff {n : Int} : inI64 n = true ↔ minI64 ≤ n ∧ n ≤ maxI64 := by
  unfold inI64
  rw [Bool.and_eq_true, decide_eq_true_iff, decide_eq_true_iff]

/-- A number in the range of unsigned words. -/
def inU64 (n : Int) : Bool := 0 ≤ n && n ≤ (maxU64 : Int)

/-- The signed word nearest to a number. -/
def clampI64 (n : Int) : Int := max minI64 (min n maxI64)

/-- The unsigned word nearest to a number. -/
def clampU64 (n : Int) : Nat := min n.toNat maxU64

/-- The sum of two unsigned words, capped at the greatest. -/
def addCapped (a b : Nat) : Nat := min (a + b) maxU64

/-- The product of two unsigned words, capped at the greatest. -/
def mulCapped (a b : Nat) : Nat := min (a * b) maxU64

namespace Text

/-- A decimal digit of ASCII. -/
def isDigit (c : Char) : Bool := '0' ≤ c && c ≤ '9'

/-- The number that decimal digits name, read on from `n`. -/
def digitsFrom (n : Nat) (ds : List Char) : Nat := ds.foldl (fun n c => 10 * n + (c.toNat - 48)) n

/-- The number that decimal digits name. -/
def digitsValue (ds : List Char) : Nat := digitsFrom 0 ds

/-- A whole number: at least one digit and nothing else. -/
def natural? (cs : List Char) : Option Nat :=
  if cs.isEmpty || !cs.all isDigit then none else some (digitsValue cs)

/-- A whole number after at most one sign. -/
def signed? : List Char → Option Int
  | '+' :: cs => (natural? cs).map Int.ofNat
  | '-' :: cs => (natural? cs).map fun n => -(n : Int)
  | cs => (natural? cs).map Int.ofNat

/-- A signed word from its decimal text, which may begin with either sign. -/
def i64? (s : String) : Option Int := (signed? s.toList).filter inI64

end Text

end InferenceGate
