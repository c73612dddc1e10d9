import InferenceGate.Decimal.Binary64
import InferenceGate.Text.Integer

/-!
# Reading numbers written in decimal

Two readers. `nearest?` takes the decimal text of a number with a sign, a fraction and an exponent, all optional, and gives the
nearest binary64 number. `fromWord?` is the reader of number literals in documents: as many digits as fit a 64-bit word are
gathered, digits beyond them only scale, and the word is scaled by powers of ten with a rounding at each step, so that its
result can differ from the nearest number in the last place.
-/

namespace InferenceGate.Binary64

/-- The number nearest to `digits * 10 ^ power`, where `digits` has `count` decimal digits; none when it overflows. -/
def ofDecimal (negative : Bool) (digits count : Nat) (power : Int) : Option Binary64 :=
  if digits == 0 then some (zero negative)
  else if 400 < power + count then none
  else if power + count < -400 then some (zero negative)
  else ofRatio negative (digits * tenTo power.toNat) (tenTo (-power).toNat)

/-- A decimal exponent: `e` or `E` and a whole number after at most one sign. Nothing stands for zero. -/
def power? : List Char → Option Int
  | [] => some 0
  | c :: cs => if c == 'e' || c == 'E' then Text.signed? cs else none

/-- A magnitude: digits with at most one point among them and at least one digit, then an exponent. -/
def magnitude? (negative : Bool) (cs : List Char) : Option Binary64 :=
  let whole := cs.takeWhile Text.isDigit
  let rest := cs.dropWhile Text.isDigit
  let (fraction, rest) := match rest with
    | '.' :: tail => (tail.takeWhile Text.isDigit, tail.dropWhile Text.isDigit)
    | _ => ([], rest)
  if whole.isEmpty && fraction.isEmpty then none
  else
    let digits := (whole ++ fraction).dropWhile (· == '0')
    (power? rest).bind fun p => ofDecimal negative (Text.digitsValue digits) digits.length (p - fraction.length)

/-- The finite number nearest to what a text says; none for any other text, for one that names an infinity or no number, and
for a magnitude that overflows. -/
def nearest? (s : String) : Option Binary64 :=
  match s.toList with
  | '+' :: cs => magnitude? false cs
  | '-' :: cs => magnitude? true cs
  | cs => magnitude? false cs

/-- Digits gathered into a 64-bit word while they fit: the word, how many were taken, and the digits left over. -/
def gather (word taken : Nat) : List Nat → Nat × Nat × List Nat
  | [] => (word, taken, [])
  | d :: ds => if 10 * word + d ≤ maxU64 then gather (10 * word + d) (taken + 1) ds else (word, taken, d :: ds)

/-- A number divided by `10 ^ 308` while the power of ten left to divide by is beyond the table, then by that power; at most
`fuel` times. -/
def scaleDown : Nat → Binary64 → Nat → Binary64
  | 0, x, _ => x
  | fuel + 1, x, power =>
    if power ≤ 308 then (x.div (powerOfTen power)).getD (zero x.negative)
    else if x.isZero then x
    else scaleDown fuel ((x.div (powerOfTen 308)).getD (zero x.negative)) (power - 308)

/-- A word times a power of ten; none when it overflows. -/
def fromWord? (negative : Bool) (word : Nat) (power : Int) : Option Binary64 :=
  let x := { ofNat word with negative := negative }
  if power < 0 then some (scaleDown ((-power).toNat / 308 + 1) x (-power).toNat)
  else if power ≤ 308 then x.mul (powerOfTen power.toNat)
  else if word == 0 then some x
  else none

end InferenceGate.Binary64
