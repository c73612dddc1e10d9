import InferenceGate.Text.Blank
import InferenceGate.Text.Integer
import InferenceGate.Total

/-!
# Dates

The proleptic Gregorian calendar. A date is a year, a month and a day that exists in it; the days of all years are numbered
without a gap, and `Date.number` and `Date.ofNumber` go from the one to the other. Years repeat every four hundred, so both
count whole rounds of four hundred years and then look at the spans (`place`) that years and months take up.
-/

namespace InferenceGate.Calendar

/-- A year with a 29th of February. -/
def isLeap (year : Int) : Bool := year % 4 == 0 && (year % 100 != 0 || year % 400 == 0)

/-- The lengths of the months of a year. -/
def monthLengths (year : Int) : List Nat :=
  [31, if isLeap year then 29 else 28, 31, 30, 31, 30, 31, 31, 30, 31, 30, 31]

/-- The length of a month, counted from one; none is that of no month. -/
def monthLength (year : Int) (month : Nat) : Nat := (monthLengths year)[month - 1]?.getD 0

/-- The days of a year. -/
def yearLength (year : Int) : Nat := total (monthLengths year)

/-- The years of one round. -/
def round : Nat := 400

/-- The lengths of the years of one round. -/
def yearLengths : List Nat := (List.range round).map fun i : Nat => yearLength i

/-- The days of one round. -/
def roundLength : Nat := 146097

/-- Which of consecutive spans a number falls in, and how far into it. -/
def place : List Nat → Nat → Nat × Nat
  | [], n => (0, n)
  | span :: spans, n => if n < span then (0, n) else ((place spans (n - span)).1 + 1, (place spans (n - span)).2)

/-- A number less than all spans together falls in one of them. -/
theorem place_lt (spans : List Nat) (n : Nat) (h : n < total spans) :
    (place spans n).1 < spans.length ∧ (place spans n).2 < spans[(place spans n).1]?.getD 0 := by
  induction spans generalizing n with
  | nil => simp at h
  | cons span spans ih =>
    unfold place
    split
    · simpa using ‹n < span›
    · simp only [total_cons] at h
      simpa using ih (n - span) (by omega)

/-- The years of one round have its days. -/
theorem total_yearLengths : total yearLengths = roundLength := by decide +kernel

/-- Years a whole number of rounds apart are alike. -/
theorem isLeap_add_round (rounds : Int) (i : Nat) : isLeap (round * rounds + i) = isLeap i := by
  have h4 : ((round : Int) * rounds + i) % 4 = (i : Int) % 4 := by unfold round; omega
  have h100 : ((round : Int) * rounds + i) % 100 = (i : Int) % 100 := by unfold round; omega
  have h400 : ((round : Int) * rounds + i) % 400 = (i : Int) % 400 := by unfold round; omega
  unfold isLeap
  rw [h4, h100, h400]

/-- Years a whole number of rounds apart have the same months. -/
theorem monthLengths_add_round (rounds : Int) (i : Nat) : monthLengths (round * rounds + i) = monthLengths i := by
  unfold monthLengths
  rw [isLeap_add_round]

/-- A day of a year. -/
structure Date where
  year : Int
  month : Nat
  day : Nat
  month_range : 1 ≤ month ∧ month ≤ 12
  day_range : 1 ≤ day ∧ day ≤ monthLength year month
  deriving DecidableEq

namespace Date

/-- The number of the first day of 1970 when the first day of year zero has number zero. -/
def epochNumber : Int := 719528

/-- The days before a year, from year zero on. -/
def daysBeforeYear (year : Int) : Int :=
  roundLength * (year / round) + total (yearLengths.take (year % round).toNat)

/-- The days of a year before a month. -/
def daysBeforeMonth (year : Int) (month : Nat) : Nat := total ((monthLengths year).take (month - 1))

/-- The number of a date; the first day of 1970 has number zero. -/
def number (d : Date) : Int := daysBeforeYear d.year + daysBeforeMonth d.year d.month + (d.day - 1) - epochNumber

/-- The date at a place in a round: which round, which of its years and which day of that year. -/
def ofPlace (rounds : Int) (year day : Nat) (h : day < yearLength year) : Date where
  year := round * rounds + year
  month := (place (monthLengths year) day).1 + 1
  day := (place (monthLengths year) day).2 + 1
  month_range := by
    have h12 : (monthLengths year).length = 12 := rfl
    have := (place_lt (monthLengths year) day h).1
    omega
  day_range := by
    have := (place_lt (monthLengths year) day h).2
    unfold monthLength
    rw [monthLengths_add_round]
    simp only [Nat.add_sub_cancel]
    omega

/-- The length of a year of a round. -/
theorem getD_yearLengths (i : Nat) (h : i < round) : yearLengths[i]?.getD 0 = yearLength i := by
  simp [yearLengths, h]

/-- The days of a round, taken from any number of days, fall in one of its years. -/
theorem place_year_lt (n : Int) :
    (place yearLengths (n % roundLength).toNat).2 < yearLength (place yearLengths (n % roundLength).toNat).1 := by
  have hn : (n % roundLength).toNat < total yearLengths := by
    rw [total_yearLengths]
    unfold roundLength
    omega
  obtain ⟨h, k⟩ := place_lt yearLengths _ hn
  rwa [getD_yearLengths _ (by simpa [yearLengths] using h)] at k

/-- The date of a number. -/
def ofNumber (number : Int) : Date :=
  let n := number + epochNumber
  ofPlace (n / roundLength) _ _ (place_year_lt n)

/-- The first day of 1970. -/
def epoch : Date := ⟨1970, 1, 1, by decide, by decide⟩

/-- A date from its parts, if there is such a day. -/
def of? (year : Int) (month day : Nat) : Option Date :=
  if h : (1 ≤ month ∧ month ≤ 12) ∧ 1 ≤ day ∧ day ≤ monthLength year month then some ⟨year, month, day, h.1, h.2⟩ else none

/-! ## Dates as text -/

/-- A number of exactly so many digits. -/
def digits? (count : Nat) (cs : List Char) : Option Nat := if cs.length == count then Text.natural? cs else none

/-- A year: four digits after at most one sign. -/
def year? : List Char → Option Int
  | '+' :: cs => (digits? 4 cs).map Int.ofNat
  | '-' :: cs => (digits? 4 cs).map fun n => -(n : Int)
  | cs => (digits? 4 cs).map Int.ofNat

/-- A year, a month and a day with hyphens between them, four digits and twice two. -/
def ofChars? (cs : List Char) : Option Date := do
  let tail := cs.drop (cs.length - 6)
  match tail with
  | ['-', m, n, '-', d, e] =>
    let year ← year? (cs.take (cs.length - 6))
    let month ← digits? 2 [m, n]
    let day ← digits? 2 [d, e]
    of? year month day
  | _ => none

/-- A date from a text, blanks about it aside. -/
def parse? (s : String) : Option Date := ofChars? (Text.trim s).toList

/-- A number in at least so many digits. -/
def padded (count n : Nat) : String :=
  let digits := toString n
  String.ofList (List.replicate (count - digits.length) '0') ++ digits

/-- A date as text: the year in four digits, the month and the day in two. -/
def text (d : Date) : String :=
  (if d.year < 0 then "-" else "") ++ padded 4 d.year.natAbs ++ "-" ++ padded 2 d.month ++ "-" ++ padded 2 d.day

end Date

end InferenceGate.Calendar
