import InferenceGate.Calendar.Date
import Mathlib.Algebra.Order.Ring.Int
import Mathlib.Tactic.IntervalCases

/-!
# Days are numbered without a gap

The number of a date and the date of a number are inverse to each other (`number_ofNumber`, `ofNumber_number`), so that every number is
that of one date. The day after a date, by the lengths of months and years, has the next number (`number_next`), and the dates of a
year and of later years are those from its first day on (`daysBeforeYear_le_number`).
-/

namespace InferenceGate.Calendar

/-! ## Places among spans -/

/-- A number is the length of the spans before its place and how far it is into that place. -/
theorem total_take_place {spans : List Nat} {n : Nat} (h : n < total spans) :
    total (spans.take (place spans n).1) + (place spans n).2 = n := by
  induction spans generalizing n with
  | nil => nomatch h
  | cons span spans ih =>
    unfold place
    split
    · simp
    · rename_i hn
      have hrest := ih (n := n - span) (by rw [total_cons] at h; omega)
      rw [List.take_succ_cons, total_cons]
      omega

/-- What is some way into a span is placed there. -/
theorem place_total_take {spans : List Nat} {i k : Nat} (h : k < spans[i]?.getD 0) :
    place spans (total (spans.take i) + k) = (i, k) := by
  induction spans generalizing i with
  | nil => simp at h
  | cons span spans ih =>
    cases i with
    | zero =>
      have hk : k < span := by simpa using h
      simp [place, hk]
    | succ i =>
      have hplace := ih (i := i) (by simpa using h)
      have hsub : span + total (spans.take i) + k - span = total (spans.take i) + k := by omega
      rw [List.take_succ_cons, total_cons, place, if_neg (by omega), hsub, hplace]

/-- What is some way into a span is less than all spans together. -/
theorem total_take_add_lt {spans : List Nat} {i k : Nat} (h : k < spans[i]?.getD 0) : total (spans.take i) + k < total spans := by
  have hle := total_le_of_sublist (List.take_sublist (i + 1) spans)
  rw [total_take_succ] at hle
  omega

/-! ## Years and months -/

/-- Years that are whole rounds apart have months of the same lengths. -/
theorem monthLengths_emod (year : Int) : monthLengths (year % round).toNat = monthLengths year := by
  have hnonneg : 0 ≤ year % round := Int.emod_nonneg _ (by decide)
  have hyear : year = round * (year / round) + (year % round).toNat := by
    rw [Int.toNat_of_nonneg hnonneg]
    exact (Int.mul_ediv_add_emod year round).symm
  conv_rhs => rw [hyear, monthLengths_add_round]

/-- Years that are whole rounds apart are equally long. -/
theorem yearLength_emod (year : Int) : yearLength (year % round).toNat = yearLength year := by
  unfold yearLength
  rw [monthLengths_emod]

theorem toNat_emod_round_lt (year : Int) : (year % round).toNat < round := by
  have hlt : year % round < round := Int.emod_lt_of_pos _ (by decide)
  have hnonneg : 0 ≤ year % round := Int.emod_nonneg _ (by decide)
  omega

/-- Every month has a day. -/
theorem monthLength_pos {year : Int} {month : Nat} (h : 1 ≤ month ∧ month ≤ 12) : 1 ≤ monthLength year month := by
  obtain ⟨h1, h12⟩ := h
  unfold monthLength monthLengths
  interval_cases month <;> simp
  split <;> decide

/-! ## The number of a date -/

namespace Date

variable {d d' : Date}

/-- How far a date is into its year. -/
def ordinal (d : Date) : Nat := daysBeforeMonth d.year d.month + (d.day - 1)

/-- The number of a date counts the days of the years before it and of its own year, from the first day of 1970. -/
theorem number_eq (d : Date) : d.number = daysBeforeYear d.year + d.ordinal - epochNumber := by
  have hday := d.day_range.1
  unfold number ordinal
  omega

/-- A date lies within its year. -/
theorem ordinal_lt (d : Date) : d.ordinal < yearLength d.year := by
  have hday := d.day_range
  exact total_take_add_lt (by unfold monthLength at hday; omega)

/-- The day of the year is placed in the month and on the day of its date. -/
theorem place_ordinal (d : Date) : place (monthLengths d.year) d.ordinal = (d.month - 1, d.day - 1) := by
  have hday := d.day_range
  exact place_total_take (by unfold monthLength at hday; omega)

/-- The days before the next year are a year more. -/
theorem daysBeforeYear_succ (year : Int) : daysBeforeYear (year + 1) = daysBeforeYear year + yearLength year := by
  have hlt := toNat_emod_round_lt year
  have hsucc := total_take_succ yearLengths (year % round).toNat
  rw [getD_yearLengths _ hlt, yearLength_emod] at hsucc
  unfold daysBeforeYear
  by_cases hlast : (year % round).toNat + 1 = round
  · -- the last year of a round: the next round begins
    have hall : total (yearLengths.take round) = roundLength := by
      rw [← total_yearLengths]
      exact congrArg total (List.take_of_length_le (by simp [yearLengths]))
    have hdiv : (year + 1) / round = year / round + 1 := by unfold round at *; omega
    have hmod : (year + 1) % round = 0 := by unfold round at *; omega
    rw [hlast, hall] at hsucc
    rw [hdiv, hmod]
    simp only [Int.toNat_zero, List.take_zero, total_nil]
    unfold roundLength at *
    omega
  · have hdiv : (year + 1) / round = year / round := by unfold round at *; omega
    have hmod : ((year + 1) % round).toNat = (year % round).toNat + 1 := by unfold round at *; omega
    rw [hdiv, hmod, hsucc]
    omega

/-- Later years have more days before them. -/
theorem daysBeforeYear_le {year year' : Int} (h : year ≤ year') : daysBeforeYear year ≤ daysBeforeYear year' := by
  induction year', h using Int.leInduction with
  | base => exact le_rfl
  | succ year' _ ih =>
    rw [daysBeforeYear_succ]
    omega

/-- The dates from the first day of a year on are those of that year and of later ones. -/
theorem daysBeforeYear_le_number {year : Int} : daysBeforeYear year - epochNumber ≤ d.number ↔ year ≤ d.year := by
  rw [number_eq]
  constructor
  · intro h
    by_contra hlater
    have hyears : daysBeforeYear (d.year + 1) ≤ daysBeforeYear year := daysBeforeYear_le (by omega)
    have hord := d.ordinal_lt
    rw [daysBeforeYear_succ] at hyears
    omega
  · intro h
    have hyears := daysBeforeYear_le h
    omega

/-- The number of the date of a number is that number. -/
theorem number_ofNumber (n : Int) : (ofNumber n).number = n := by
  let k := ((n + epochNumber) % roundLength).toNat
  have hk : k < total yearLengths := by
    rw [total_yearLengths]
    unfold k roundLength
    omega
  have hyear : (place yearLengths k).1 < round := by
    have hlt := (place_lt yearLengths k hk).1
    simpa [yearLengths] using hlt
  have hday : (place yearLengths k).2 < yearLength (place yearLengths k).1 := place_year_lt _
  have hof : (ofNumber n).ordinal = (place yearLengths k).2 := by
    unfold ordinal daysBeforeMonth
    show total ((monthLengths (round * ((n + epochNumber) / roundLength) + (place yearLengths k).1)).take _) + _ = _
    rw [monthLengths_add_round]
    exact total_take_place hday
  have hbefore : daysBeforeYear (ofNumber n).year =
      roundLength * ((n + epochNumber) / roundLength) + total (yearLengths.take (place yearLengths k).1) := by
    show daysBeforeYear (round * ((n + epochNumber) / roundLength) + (place yearLengths k).1) = _
    have hdiv : ((round : Int) * ((n + epochNumber) / roundLength) + (place yearLengths k).1) / round =
        (n + epochNumber) / roundLength := by unfold round at *; omega
    have hmod : (((round : Int) * ((n + epochNumber) / roundLength) + (place yearLengths k).1) % round).toNat =
        (place yearLengths k).1 := by unfold round at *; omega
    unfold daysBeforeYear
    rw [hdiv, hmod]
  have hplace := total_take_place hk
  rw [number_eq, hof, hbefore]
  unfold k roundLength at *
  omega

/-- The date of the number of a date is that date. -/
theorem ofNumber_number (d : Date) : ofNumber d.number = d := by
  let y := (d.year % round).toNat
  have hord : d.ordinal < yearLengths[y]?.getD 0 := by
    rw [getD_yearLengths _ (toNat_emod_round_lt _), yearLength_emod]
    exact d.ordinal_lt
  have hlt : total (yearLengths.take y) + d.ordinal < roundLength := by
    rw [← total_yearLengths]
    exact total_take_add_lt hord
  have hn : d.number + epochNumber = roundLength * (d.year / round) + (total (yearLengths.take y) + d.ordinal : Nat) := by
    rw [number_eq]
    unfold daysBeforeYear y
    omega
  have hdiv : (d.number + epochNumber) / roundLength = d.year / round := by
    rw [hn]
    unfold roundLength at *
    omega
  have hmod : ((d.number + epochNumber) % roundLength).toNat = total (yearLengths.take y) + d.ordinal := by
    rw [hn]
    unfold roundLength at *
    omega
  have hplace : place yearLengths ((d.number + epochNumber) % roundLength).toNat = (y, d.ordinal) := by
    rw [hmod]
    exact place_total_take hord
  have hmonth := d.month_range
  have hday := d.day_range
  have hyear : (round : Int) * (d.year / round) + y = d.year := by unfold y round; omega
  have hmonths : place (monthLengths y) d.ordinal = (d.month - 1, d.day - 1) := by
    unfold y
    rw [monthLengths_emod]
    exact d.place_ordinal
  obtain ⟨year, month, day, _, _⟩ := d
  simp only [ofNumber, ofPlace, Date.mk.injEq, hdiv, hplace, hmonths]
  exact ⟨hyear, by omega, by omega⟩

theorem number_inj : d.number = d'.number ↔ d = d' := by
  refine ⟨fun h => ?_, congrArg number⟩
  rw [← ofNumber_number d, h, ofNumber_number]

/-- A number is that of the one date it stands for. -/
theorem ofNumber_eq_iff {n : Int} : ofNumber n = d ↔ n = d.number := by
  refine ⟨fun h => ?_, fun h => ?_⟩
  · rw [← h, number_ofNumber]
  · rw [h, ofNumber_number]

theorem number_epoch : epoch.number = 0 := by decide +kernel

/-! ## The next day -/

theorem first_month : 1 ≤ 1 ∧ 1 ≤ 12 := by decide

theorem last_month : 1 ≤ 12 ∧ 12 ≤ 12 := by decide

/-- The first day of a year. -/
def newYear (year : Int) : Date where
  year := year
  month := 1
  day := 1
  month_range := first_month
  day_range := ⟨le_rfl, monthLength_pos first_month⟩

/-- The last day of a year. -/
def newYearsEve (year : Int) : Date where
  year := year
  month := 12
  day := 31
  month_range := last_month
  day_range := ⟨by decide, le_rfl⟩

/-- The day after a date: the next of its month, or the first of the next month, or the first of the next year. -/
def next (d : Date) : Date :=
  if h : d.day < monthLength d.year d.month then
    { d with day := d.day + 1, day_range := ⟨by omega, h⟩ }
  else if h : d.month < 12 then
    { year := d.year, month := d.month + 1, day := 1, month_range := ⟨by omega, h⟩,
      day_range := ⟨le_rfl, monthLength_pos ⟨by omega, h⟩⟩ }
  else newYear (d.year + 1)

/-- The number of the first day of a year counts the days of all years before it. -/
theorem number_newYear (year : Int) : (newYear year).number = daysBeforeYear year - epochNumber := by
  have hbefore : daysBeforeMonth year 1 = 0 := rfl
  unfold number newYear
  dsimp only
  omega

/-- After the last day of a year comes the first of the next. -/
theorem next_newYearsEve (year : Int) : (newYearsEve year).next = newYear (year + 1) := rfl

/-- The next day has the next number. -/
theorem number_next (d : Date) : d.next.number = d.number + 1 := by
  have hday := d.day_range
  have hmonth := d.month_range
  have hlast : daysBeforeMonth d.year (d.month + 1) = daysBeforeMonth d.year d.month + monthLength d.year d.month := by
    have hsucc := total_take_succ (monthLengths d.year) (d.month - 1)
    rw [Nat.sub_add_cancel hmonth.1] at hsucc
    exact hsucc
  unfold next
  by_cases hin : d.day < monthLength d.year d.month
  · rw [dif_pos hin]
    unfold number
    dsimp only
    omega
  · rw [dif_neg hin]
    by_cases hyear : d.month < 12
    · rw [dif_pos hyear]
      unfold number
      dsimp only
      omega
    · rw [dif_neg hyear]
      have htwelve : d.month = 12 := by omega
      have hall : daysBeforeMonth d.year (12 + 1) = yearLength d.year := rfl
      rw [htwelve] at hlast hin hday
      rw [number_newYear, daysBeforeYear_succ]
      unfold number
      rw [htwelve]
      omega

end Date

end InferenceGate.Calendar
