import InferenceGate.Calendar.Date

/-!
# Instants

An instant is a number of milliseconds since the beginning of 1970, the days all of one length. The beginning of a date is counted in
nanoseconds; the span of a date is the milliseconds from its beginning for the length of a day, both ends kept in signed words. Dates are
told of up to the year 9999, before and after year zero.
-/

namespace InferenceGate.Calendar

/-- The milliseconds of a day. -/
def dayMs : Nat := 86400000

/-- The nanoseconds of a millisecond. -/
def msNs : Nat := 1000000

/-- The date of an instant. -/
def dateOf (ms : Int) : Date := .ofNumber (ms / dayMs)

/-- The last year that a date is told of. -/
def lastYear : Int := 9999

/-- The date of a moment in nanoseconds, where that date is told of. -/
def dateOfNs? (ns : Int) : Option Date :=
  let d := Date.ofNumber (ns / (dayMs * msNs : Nat))
  if -lastYear ≤ d.year && d.year ≤ lastYear then some d else none

/-- The date of a clock, or the first day of 1970 where the clock has run past the last year. -/
def today (clock : Nat) : Date := (dateOfNs? (clock * msNs : Nat)).getD .epoch

/-- The beginning of a date in nanoseconds. -/
def Date.startNs (d : Date) : Int := d.number * (dayMs * msNs : Nat)

/-- The beginning of a date in whole milliseconds; one that no signed word holds is the greatest word. -/
def Date.startMs (d : Date) : Int :=
  let ms := d.startNs.tdiv msNs
  if inI64 ms then ms else maxI64

/-- The span of a date: the instants from the first up to the second, that one not in it. -/
def Date.span (d : Date) : Int × Int := (d.startMs, clampI64 (d.startMs + dayMs))

/-- A fraction of a second in milliseconds, with its point and without zeros at its end. -/
def fractionText (ms : Nat) : String :=
  if ms == 0 then ""
  else "." ++ String.ofList (((Date.padded 3 ms).toList.reverse.dropWhile (· == '0')).reverse)

/-- The time of day of a number of milliseconds. -/
def timeText (ms : Nat) : String :=
  let s := ms / 1000
  Date.padded 2 (s / 3600) ++ ":" ++ Date.padded 2 (s / 60 % 60) ++ ":" ++ Date.padded 2 (s % 60) ++ fractionText (ms % 1000)

/-- An instant as text: date, `T`, time and `Z`. Instants outside the years 0 to 9999 have none. -/
def instantText (ms : Int) : String :=
  let d := dateOf ms
  if 0 ≤ d.year && d.year ≤ lastYear then d.text ++ "T" ++ timeText (ms % dayMs).toNat ++ "Z" else ""

end InferenceGate.Calendar
