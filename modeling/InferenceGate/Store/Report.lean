import InferenceGate.Calendar.Instant
import InferenceGate.Store.Accounts

/-!
# The report of a day

What a user's calls of one day used: the totals, and the part that each endpoint has in them.
-/

namespace InferenceGate.Store

open Json (Value)

/-- The usage of a day. -/
structure Daily where
  totals : Totals
  details : List EndpointTotals
  deriving DecidableEq

/-- The report as shown: the totals, then the endpoints. -/
def Daily.value (d : Daily) : Value := .object (d.totals.members ++ [("details", .array (d.details.map EndpointTotals.value))])

/-- The usage of a user on a date. -/
def Tables.daily (s : Tables) (user : Int) (d : Calendar.Date) : Except Fault Daily :=
  match s.usageTotals user (some d.span) with
  | .error f => .error f
  | .ok totals => (s.usageByEndpoint user d.span.1 d.span.2).map fun details => { totals, details }

end InferenceGate.Store
