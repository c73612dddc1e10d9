import InferenceGate.Calendar.Date
import InferenceGate.Toml.Scalar

/-!
# Dates and times of TOML

A date, a time of day, or both with an offset from universal time. It is kept as the text that spells it in one way: a `T` between
date and time, at most nine places of a second without zeros at their end, and a `Z` or a signed offset.
-/

namespace InferenceGate.Toml

/-- A number of so many digits within bounds. -/
def number? (count low high : Nat) (cs : List Char) : Read Nat :=
  let digits := cs.take count
  if digits.length < count then none
  else ((Text.natural? digits).filter fun n => low ≤ n && n ≤ high).map fun n => (n, cs.drop count)

/-- What follows a character. -/
def after? (c : Char) : List Char → Option (List Char)
  | d :: rest => if d == c then some rest else none
  | [] => none

/-- What follows a date of the calendar. -/
def afterDate? (cs : List Char) : Option (List Char) := do
  let (year, cs) ← number? 4 0 9999 cs
  let cs ← after? '-' cs
  let (month, cs) ← number? 2 1 12 cs
  let cs ← after? '-' cs
  let (_, cs) ← number? 2 1 (Calendar.monthLength year month) cs
  return cs

/-- What follows the hour of a time of day and its colon. -/
def afterHour? (cs : List Char) : Option (List Char) := (number? 2 0 23 cs).bind fun (_, cs) => after? ':' cs

/-- The places of a second after its point. -/
def places? : List Char → Read (List Char)
  | '.' :: cs =>
    let digits := cs.takeWhile Text.isDigit
    let shown := Text.dropEnd (· == '0') (digits.take 9)
    if digits.isEmpty then none else some (if shown.isEmpty then [] else '.' :: shown, cs.drop digits.length)
  | cs => some ([], cs)

/-- A time of day; a minute may have a leap second. -/
def time? (cs : List Char) : Option (List Char × List Char) := do
  let rest ← afterHour? cs
  let (_, rest) ← number? 2 0 59 rest
  let rest ← after? ':' rest
  let (_, rest) ← number? 2 0 60 rest
  let (places, rest) ← places? rest
  return (cs.take 8 ++ places, rest)

/-- An offset from universal time, if there is one; that of nothing has a plus. -/
def offset? (cs : List Char) : Option (List Char × List Char) :=
  match cs with
  | 'Z' :: rest | 'z' :: rest => some (['Z'], rest)
  | '+' :: rest | '-' :: rest => do
    let after ← afterHour? rest
    let (_, after) ← number? 2 0 59 after
    let distance := rest.take 5
    return ((if distance == "00:00".toList then '+' else cs.headD '+') :: distance, after)
  | _ => some ([], cs)

/-- A date or a time at the front of a text; what follows a date and a mark is a time if it begins as one. -/
def moment? (cs : List Char) : Read (List Char) :=
  match afterDate? cs with
  | none => time? cs
  | some rest =>
    let date := cs.take 10
    match rest with
    | mark :: more =>
      if (mark == 'T' || mark == 't' || mark == ' ') && (afterHour? more).isSome then
        (time? more).bind fun (time, rest) => (offset? rest).map fun (offset, rest) => (date ++ 'T' :: time ++ offset, rest)
      else some (date, rest)
    | [] => some (date, rest)

/-- The name under which a document shows a date or a time, which is a table of one text. -/
def momentKey : String := "$__toml_private_datetime"

/-- A date or a time as a document. -/
def momentTree (text : List Char) : Tree := .table [(.text momentKey, .leaf (.text (String.ofList text)))]

end InferenceGate.Toml
