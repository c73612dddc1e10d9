/-!
# Finite binary64 numbers, exactly

A finite double-precision number is a sign and a magnitude `mantissa * 2 ^ exponent` over the naturals, so that every
operation is exact arithmetic followed by one rounding (`ofRatio`: to the nearest, a tie to the even mantissa). Zero keeps its
sign. Nothing here stands for an infinity: an operation whose result would overflow has none.
-/

namespace InferenceGate

/-- A finite binary64 number: `mantissa * 2 ^ exponent`, negated when `negative`. -/
structure Binary64 where
  negative : Bool
  mantissa : Nat
  exponent : Int
  deriving DecidableEq

namespace Binary64

/-- A power of two. -/
def twoTo (k : Nat) : Nat := Nat.pow 2 k

/-- A power of ten. -/
def tenTo (k : Nat) : Nat := Nat.pow 10 k

/-- The exponent of the least positive numbers, and of zero. -/
def minExponent : Int := -1074

/-- The greatest exponent of a normalized mantissa. -/
def maxExponent : Int := 971

/-- Zero with a sign. -/
def zero (negative : Bool) : Binary64 := ⟨negative, 0, minExponent⟩

/-- Either zero. -/
def isZero (x : Binary64) : Bool := x.mantissa == 0

/-- The number with the other sign. -/
def neg (x : Binary64) : Binary64 := { x with negative := !x.negative }

/-- A quotient rounded to the nearest whole number, a tie to the even one. -/
def divToEven (num den : Nat) : Nat :=
  let q := num / den
  let r := num % den
  if 2 * r < den then q else if den < 2 * r then q + 1 else q + q % 2

/-- `num / den` in units of `2 ^ e`, as a fraction of naturals. -/
def inUnits (num den : Nat) (e : Int) : Nat × Nat := (num * twoTo (-e).toNat, den * twoTo e.toNat)

/-- The exponent whose unit gives `num / den` a mantissa of 53 bits, or the least exponent where that is greater. -/
def unitOf (num den : Nat) : Int :=
  let e : Int := (Nat.log2 num : Int) - Nat.log2 den - 53
  let (n, d) := inUnits num den e
  max minExponent (if twoTo 53 ≤ n / d then e + 1 else e)

/-- The number nearest to `num / den` with a sign; none when it overflows. -/
def ofRatio (negative : Bool) (num den : Nat) : Option Binary64 :=
  if num == 0 then some (zero negative)
  else
    let e := unitOf num den
    let (n, d) := inUnits num den e
    let m := divToEven n d
    let (m, e) := if m == twoTo 53 then (twoTo 52, e + 1) else (m, e)
    if maxExponent < e then none else if m == 0 then some (zero negative) else some ⟨negative, m, e⟩

/-- The number nearest to a natural number below `2 ^ 1023`. -/
def ofNat (n : Nat) : Binary64 := (ofRatio false n 1).getD (zero false)

/-- The number nearest to an integer of magnitude below `2 ^ 1023`; zero is positive. -/
def ofInt (n : Int) : Binary64 := (ofRatio (n < 0) n.natAbs 1).getD (zero false)

/-- The power of ten nearest to `10 ^ k`, for `k` at most 308. -/
def powerOfTen (k : Nat) : Binary64 := ofNat (tenTo k)

/-- A product, rounded; none when it overflows. -/
def mul (x y : Binary64) : Option Binary64 :=
  let e := x.exponent + y.exponent
  ofRatio (x.negative != y.negative) (x.mantissa * y.mantissa * twoTo e.toNat) (twoTo (-e).toNat)

/-- A quotient by a number other than zero, rounded; none when it overflows. -/
def div (x y : Binary64) : Option Binary64 :=
  let e := x.exponent - y.exponent
  ofRatio (x.negative != y.negative) (x.mantissa * twoTo e.toNat) (y.mantissa * twoTo (-e).toNat)

/-- The whole part of the magnitude. -/
def wholeMagnitude (x : Binary64) : Nat := x.mantissa * twoTo x.exponent.toNat / twoTo (-x.exponent).toNat

/-- The number without its fraction. -/
def truncate (x : Binary64) : Int := if x.negative then -(x.wholeMagnitude : Int) else x.wholeMagnitude

/-- A number without a fraction. -/
def isWhole (x : Binary64) : Bool := x.mantissa * twoTo x.exponent.toNat % twoTo (-x.exponent).toNat == 0

end Binary64

end InferenceGate
