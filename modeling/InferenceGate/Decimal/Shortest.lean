import InferenceGate.Decimal.Binary64

/-!
# The shortest decimal of a binary64 number

Of the decimals that round to a number, the one with the fewest digits is written, of those the nearest, and of two equally
near the one with the even last digit (`shortest`). It is laid out positionally when its leading digit stands between the
fifth place after the point and the sixteenth before it, a whole number with `.0`, and otherwise with a signed exponent
(`render`): `1.0`, `0.00001`, `1e-6`, `1e+16`.
-/

namespace InferenceGate.Binary64

/-- A decimal: `digits * 10 ^ exponent`. -/
structure Decimal where
  digits : Nat
  exponent : Int
  deriving DecidableEq

/-- `a * 10 ^ i` compared with `n * 2 ^ j`. -/
def compareScaled (a : Nat) (i : Int) (n : Nat) (j : Int) : Ordering :=
  compare (a * tenTo i.toNat * twoTo (-j).toNat) (n * twoTo j.toNat * tenTo (-i).toNat)

/-- Below a power of two the next number is half as far away as above it. -/
def narrowBelow (x : Binary64) : Bool := x.mantissa == twoTo 52 && minExponent < x.exponent

/-- The decimal rounds to the magnitude of `x`: it lies no further than halfway to either neighbour, the halfway points
included exactly for an even mantissa. -/
def readsAs (x : Binary64) (d : Decimal) : Bool :=
  let low := if x.narrowBelow then 4 * x.mantissa - 1 else 4 * x.mantissa - 2
  let fromLow := compareScaled d.digits d.exponent low (x.exponent - 2)
  let fromHigh := compareScaled d.digits d.exponent (4 * x.mantissa + 2) (x.exponent - 2)
  let even := x.mantissa % 2 == 0
  (fromLow == .gt || (even && fromLow == .eq)) && (fromHigh == .lt || (even && fromHigh == .eq))

/-- The least `k` with the magnitude of `x` below `10 ^ k`, for a positive magnitude. -/
def scale (x : Binary64) : Int :=
  let bits : Int := (Nat.log2 x.mantissa : Int) + x.exponent
  let guess : Int := bits * 30103 / 100000 - 1
  (List.range 5).foldl (fun k _ => if compareScaled 1 k x.mantissa x.exponent == .gt then k else k + 1) guess

/-- The magnitude in units of `10 ^ e`: the whole part, and how the magnitude compares with half a unit more. -/
def onGrid (x : Binary64) (e : Int) : Nat × Ordering :=
  let num := x.mantissa * twoTo x.exponent.toNat * tenTo (-e).toNat
  let den := twoTo (-x.exponent).toNat * tenTo e.toNat
  (num / den, compare (2 * (num % den)) den)

/-- The best decimal with `n` digits that rounds to `x`, if there is one. -/
def withDigits? (x : Binary64) (n : Nat) : Option Decimal :=
  let e := x.scale - n
  let (below, half) := x.onGrid e
  let under : Decimal := ⟨below, e⟩
  let above : Decimal := ⟨below + 1, e⟩
  match x.readsAs under, x.readsAs above with
  | true, true =>
    some (match half with
      | .lt => under
      | .gt => above
      | .eq => if below % 2 == 0 then under else above)
  | true, false => some under
  | false, true => some above
  | false, false => none

/-- A decimal without the zeros at the end of its digits, for at most `fuel` of them. -/
def Decimal.trimZeros : Nat → Decimal → Decimal
  | 0, d => d
  | fuel + 1, d => if d.digits % 10 == 0 && d.digits != 0 then trimZeros fuel ⟨d.digits / 10, d.exponent + 1⟩ else d

/-- The shortest decimal that rounds to a positive magnitude; the exact one if none of seventeen digits did. -/
def shortest (x : Binary64) : Decimal :=
  let found := (List.range 17).findSome? fun n => x.withDigits? (n + 1)
  let exact : Decimal := ⟨x.mantissa * twoTo x.exponent.toNat * Nat.pow 5 (-x.exponent).toNat, min x.exponent 0⟩
  (found.getD exact).trimZeros 400

/-- A decimal laid out: positional while the exponent of its leading digit is in `-5 ... 15`, else scientific. -/
def Decimal.layout (d : Decimal) : String :=
  let ds := Nat.toDigits 10 d.digits
  let point : Int := ds.length + d.exponent
  let zeros (n : Int) : List Char := List.replicate n.toNat '0'
  if 0 ≤ d.exponent && point ≤ 16 then String.ofList (ds ++ zeros d.exponent ++ ['.', '0'])
  else if 0 < point && point ≤ 16 then String.ofList (ds.take point.toNat ++ '.' :: ds.drop point.toNat)
  else if -5 < point && point ≤ 0 then String.ofList ('0' :: '.' :: zeros (-point) ++ ds)
  else
    let lead := match ds with
      | [c] => [c]
      | c :: cs => c :: '.' :: cs
      | [] => []
    let power := point - 1
    String.ofList (lead ++ 'e' :: (if power < 0 then '-' else '+') :: Nat.toDigits 10 power.natAbs)

/-- The text of a number. -/
def render (x : Binary64) : String :=
  let magnitude := if x.isZero then "0.0" else x.shortest.layout
  if x.negative then "-" ++ magnitude else magnitude

end InferenceGate.Binary64
