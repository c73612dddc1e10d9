import InferenceGate.Json.Reading
import InferenceGate.Server.Listing
import InferenceGate.Store.Report

/-!
# Statements of usage

What a user's calls used in all, and on a day that the user names.
-/

namespace InferenceGate.Statement

open Http Document
open Json (Value)

/-- The largest body of a request for a statement. -/
def maxBody : Nat := 2097152

/-- What a user's calls used in all. -/
def total (w : Store.World) (user : Int) : Except ApiError Value :=
  match w.ask (·.usageTotals user none) with
  | .ok (.ok t) => .ok (.object t.members)
  | _ => .error Listing.storeError

/-- The date that a document names, if it names any. -/
def dateOf? (t : Json.Tree) : Option (Option String) := do
  let r ← t.record? [{ name := "date" }]
  r.optional? "date" Tree.text?

/-- The date that a body names, if it names any; a blank body names none. -/
def named (body : Bytes) : Except ApiError (Option String) :=
  if body.all Text.isBlankByte then .ok none
  else
    match (Json.read? body).bind dateOf? with
    | some date => .ok date
    | none => .error ((ApiError.of .invalidParam "request body must be a JSON object").withDetails "not such an object")

/-- The day that a body asks for: the date that it names, or today. -/
def day (clock : Nat) (body : Bytes) : Except ApiError Calendar.Date := do
  match (← named body).bind Text.trimmed? with
  | none => return Calendar.today clock
  | some raw =>
    match Calendar.Date.parse? raw with
    | some d => return d
    | none => throw ((ApiError.of .invalidParam "date must be formatted as YYYY-MM-DD").withParam "date")

/-- What a user's calls used on the day that a body asks for. -/
def daily (w : Store.World) (user : Int) (body : Bytes) : Except ApiError Value := do
  let d ← day w.clock body
  match w.ask (·.daily user d) with
  | .ok (.ok report) => return report.value
  | _ => throw Listing.storeError

end InferenceGate.Statement
