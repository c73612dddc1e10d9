import InferenceGate.Calendar.Instant
import InferenceGate.Proofs.Calendar.Numbering

/-!
# Days part time among them

The date of an instant is counted from the first day of 1970: as many days on, as many times the next day of the calendar (`FallsOn`). The
words of a date that is told of hold its whole day (`span_of_told`), so an instant falls on the one date whose span covers it
(`covers_iff_fallsOn`), the span of a date ends where that of the next begins, and the dates that are told of cover a stretch of time
without a gap (`inReach_iff`).
-/

namespace InferenceGate.Calendar

/-- The date on which an instant falls: the first day of 1970, its date lasts for a day, and a day later it is the next. -/
inductive FallsOn : Int → Date → Prop where
  | epoch {t : Int} : 0 ≤ t → t < dayMs → FallsOn t .epoch
  | later {t : Int} {d : Date} : FallsOn t d → FallsOn (t + dayMs) d.next
  | earlier {t : Int} {d : Date} : FallsOn t d.next → FallsOn (t - dayMs) d

/-- The span of a date covers an instant. -/
def Date.Covers (d : Date) (t : Int) : Prop := d.span.1 ≤ t ∧ t < d.span.2

instance (d : Date) (t : Int) : Decidable (d.Covers t) := inferInstanceAs (Decidable (_ ∧ _))

/-- A date that is told of: its year has four digits at most, before or after year zero. -/
def Date.Told (d : Date) : Prop := -lastYear ≤ d.year ∧ d.year ≤ lastYear

instance (d : Date) : Decidable d.Told := inferInstanceAs (Decidable (_ ∧ _))

/-- The first date that is told of. -/
def firstDate : Date := .newYear (-lastYear)

/-- The last date that is told of. -/
def lastDate : Date := .newYearsEve lastYear

/-- An instant within reach: from the beginning of the first date that is told of up to the end of the last. -/
def InReach (t : Int) : Prop := firstDate.span.1 ≤ t ∧ t < lastDate.span.2

instance (t : Int) : Decidable (InReach t) := inferInstanceAs (Decidable (_ ∧ _))

variable {d d' : Date} {t : Int}

/-! ## Spans -/

/-- The nanoseconds of a beginning are whole milliseconds. -/
theorem startNs_tdiv (d : Date) : d.startNs.tdiv msNs = d.number * dayMs := by
  unfold Date.startNs
  rw [Int.natCast_mul, ← Int.mul_assoc]
  exact Int.mul_tdiv_cancel _ (by decide)

/-- A beginning that a signed word holds is that of the day of the date's number. -/
theorem startMs_eq (hlow : minI64 ≤ d.number * dayMs) (hhigh : d.number * dayMs ≤ maxI64) : d.startMs = d.number * dayMs := by
  unfold Date.startMs
  rw [startNs_tdiv]
  dsimp only
  exact if_pos (inI64_iff.2 ⟨hlow, hhigh⟩)

/-- A beginning that no signed word holds is the greatest of them. -/
theorem startMs_of_not (h : ¬ (minI64 ≤ d.number * dayMs ∧ d.number * dayMs ≤ maxI64)) : d.startMs = maxI64 := by
  unfold Date.startMs
  rw [startNs_tdiv]
  dsimp only
  exact if_neg fun hword => h (inI64_iff.1 hword)

/-- A span begins with the day of its date's number and is cut off at the greatest word; it is empty where no word holds its
beginning. -/
theorem span_cases (d : Date) :
    d.span = (d.number * dayMs, min (d.number * dayMs + dayMs) maxI64) ∨ d.span = (maxI64, maxI64) := by
  unfold Date.span
  by_cases hword : minI64 ≤ d.number * dayMs ∧ d.number * dayMs ≤ maxI64
  · rw [startMs_eq hword.1 hword.2]
    exact .inl (congrArg _ (max_eq_right (le_min (le_trans hword.1 (Int.le_add_of_nonneg_right (Int.natCast_nonneg _))) (by decide))))
  · rw [startMs_of_not hword]
    exact .inr rfl

/-- An instant that a date covers lies in the day of its number. -/
theorem number_of_covers (h : d.Covers t) : t / dayMs = d.number := by
  obtain ⟨hle, hlt⟩ := h
  rcases span_cases d with hspan | hspan
  · rw [hspan] at hle hlt
    unfold dayMs at *
    dsimp only at hle hlt
    omega
  · rw [hspan] at hle hlt
    exact absurd hlt (not_lt.2 hle)

/-- The spans of different dates do not meet. -/
theorem span_apart (h : d ≠ d') : d.span.2 ≤ d'.span.1 ∨ d'.span.2 ≤ d.span.1 := by
  have hne : d.number ≠ d'.number := fun he => h (Date.number_inj.1 he)
  have hend : ∀ e : Date, e.span.2 ≤ maxI64 := fun e => by
    rcases span_cases e with hspan | hspan <;> rw [hspan]
    exact min_le_right _ _
  rcases span_cases d with hspan | hspan
  · rcases span_cases d' with hspan' | hspan'
    · rw [hspan, hspan']
      unfold dayMs
      dsimp only
      omega
    · rw [hspan']
      exact .inl (hend d)
  · rw [hspan]
    exact .inr (hend d')

/-! ## Dates that are told of -/

/-- The dates that are told of are those from the first of them to the last. -/
theorem told_iff : d.Told ↔ firstDate.number ≤ d.number ∧ d.number < lastDate.number + 1 := by
  have hfirst : firstDate.number = Date.daysBeforeYear (-lastYear) - Date.epochNumber := Date.number_newYear _
  have hlast : lastDate.number + 1 = Date.daysBeforeYear (lastYear + 1) - Date.epochNumber := by
    rw [← Date.number_next, lastDate, Date.next_newYearsEve, Date.number_newYear]
  have hyears : ∀ year, Date.daysBeforeYear year - Date.epochNumber ≤ d.number ↔ year ≤ d.year := fun _ => Date.daysBeforeYear_le_number
  rw [hfirst, hlast, hyears, ← not_le, hyears, not_le, Int.lt_add_one_iff]
  rfl

/-- The day of a date that is told of has its beginning and its end among the signed words. -/
theorem words_of_told (h : d.Told) : minI64 ≤ d.number * dayMs ∧ d.number * dayMs + dayMs ≤ maxI64 := by
  obtain ⟨hfirst, hlast⟩ := told_iff.1 h
  have hleast : firstDate.number = -4371587 := by decide +kernel
  have hgreatest : lastDate.number = 2932896 := by decide +kernel
  unfold minI64 maxI64 dayMs
  omega

/-- The span of a date that is told of is the whole day of its number: no word is out of range or cut off. -/
theorem span_of_told (h : d.Told) : d.span = (d.number * dayMs, d.number * dayMs + dayMs) := by
  obtain ⟨hlow, hhigh⟩ := words_of_told h
  unfold Date.span clampI64
  rw [startMs_eq hlow (by omega), min_eq_left hhigh, max_eq_right (by omega)]

/-- A date that is told of covers the instants of the day of its number. -/
theorem covers_iff (h : d.Told) : d.Covers t ↔ t / dayMs = d.number := by
  unfold Date.Covers
  rw [span_of_told h]
  unfold dayMs
  dsimp only
  omega

/-- The span of a date that is told of ends where that of the next begins. -/
theorem span_next (h : d.Told) : d.next.span.1 = d.span.2 := by
  obtain ⟨hlow, hhigh⟩ := words_of_told h
  have hnext : d.next.number * dayMs = d.number * dayMs + dayMs := by
    rw [Date.number_next, Int.add_mul, Int.one_mul]
  rw [span_of_told h]
  exact (startMs_eq (by omega) (by omega)).trans hnext

/-- An instant within reach is one whose date is told of. -/
theorem inReach_iff : InReach t ↔ (dateOf t).Told := by
  have hfirst : firstDate.Told := by decide
  have hlast : lastDate.Told := by decide
  have hnumber : (dateOf t).number = t / dayMs := Date.number_ofNumber _
  unfold InReach
  rw [told_iff, span_of_told hfirst, span_of_told hlast, hnumber]
  unfold dayMs
  dsimp only
  omega

/-- An instant within reach is covered by its date and by no other. -/
theorem covers_iff_dateOf (h : InReach t) : d.Covers t ↔ d = dateOf t := by
  constructor
  · intro hd
    exact (Date.ofNumber_eq_iff.2 (number_of_covers hd)).symm
  · rintro rfl
    exact (covers_iff (inReach_iff.1 h)).2 (Date.number_ofNumber _).symm

/-- An instant within reach falls on one date, and that date is told of. -/
theorem exists_told (h : InReach t) : ∃ d : Date, d.Told ∧ ∀ d' : Date, d'.Covers t ↔ d' = d :=
  ⟨dateOf t, inReach_iff.1 h, fun _ => covers_iff_dateOf h⟩

/-- The date of a moment in nanoseconds is that of its whole milliseconds. -/
theorem dateOfNs?_mul (h : (dateOf t).Told) : dateOfNs? (t * msNs) = some (dateOf t) := by
  have hday : t * msNs / (dayMs * msNs : Nat) = t / dayMs := by
    rw [Int.natCast_mul]
    exact Int.mul_ediv_mul_of_pos_left _ _ (by decide)
  unfold dateOfNs?
  rw [hday]
  refine if_pos ?_
  rw [Bool.and_eq_true, decide_eq_true_iff, decide_eq_true_iff]
  exact h

/-- A clock within reach shows the date that covers it. -/
theorem today_eq {clock : Nat} (h : InReach clock) : today clock = dateOf clock := by
  unfold today
  rw [Int.natCast_mul, dateOfNs?_mul (inReach_iff.1 h)]
  rfl

/-! ## Counting from the first day of 1970 -/

/-- An instant that falls on a date lies in the day of its number. -/
theorem number_of_fallsOn (h : FallsOn t d) : t / dayMs = d.number := by
  induction h with
  | epoch hle hlt =>
    rw [Date.number_epoch]
    exact Int.ediv_eq_zero_of_lt hle hlt
  | later _ ih =>
    rw [Date.number_next]
    unfold dayMs at *
    omega
  | earlier _ ih =>
    rw [Date.number_next] at ih
    unfold dayMs at *
    omega

/-- By induction on the number of the day, upwards and downwards from the first day of 1970. -/
theorem fallsOn_of_number (n : Int) : ∀ (t : Int) (d : Date), t / dayMs = n → d.number = n → FallsOn t d := by
  induction n using Int.induction_on with
  | zero =>
    intro t d ht hd
    obtain rfl := Date.number_inj.1 (hd.trans Date.number_epoch.symm)
    exact .epoch (by unfold dayMs at ht; omega) (by unfold dayMs at *; omega)
  | succ i ih =>
    intro t d ht hd
    let before := Date.ofNumber i
    have hbefore : before.number = i := Date.number_ofNumber i
    obtain rfl : before.next = d := Date.number_inj.1 (by rw [Date.number_next, hbefore, hd])
    have h := (ih (t - dayMs) before (by unfold dayMs at *; omega) hbefore).later
    rwa [Int.sub_add_cancel] at h
  | pred i ih =>
    intro t d ht hd
    have h := (ih (t + dayMs) d.next (by unfold dayMs at *; omega) (by rw [Date.number_next, hd]; omega)).earlier
    rwa [Int.add_sub_cancel] at h

/-- A date covers none but the instants that fall on it. -/
theorem fallsOn_of_covers (h : d.Covers t) : FallsOn t d := fallsOn_of_number _ t d (number_of_covers h) rfl

/-- A date that is told of covers the instants that fall on it. -/
theorem covers_iff_fallsOn (h : d.Told) : d.Covers t ↔ FallsOn t d :=
  ⟨fallsOn_of_covers, fun hfalls => (covers_iff h).2 (number_of_fallsOn hfalls)⟩

end InferenceGate.Calendar
