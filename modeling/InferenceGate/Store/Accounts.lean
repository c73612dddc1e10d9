import InferenceGate.Store.Rows
import InferenceGate.Total

/-!
# Usage rows and their totals

A user's rows are added up over all time or over a span of milliseconds whose end is not in it. Over all time a call fails with
a status of 400 or more; within a span every call without success does. A sum of tokens beyond the signed words fails the whole
answer.
-/

namespace InferenceGate.Store

namespace Usage

/-- The call succeeded. -/
def isSuccess (u : Usage) : Bool := 200 ≤ u.status && u.status < 300

/-- The call failed, over all time. -/
def isFailure (u : Usage) : Bool := 400 ≤ u.status

/-- The time of the row is in a span. -/
def within (start stop : Int) (u : Usage) : Bool := start ≤ u.createdAt && u.createdAt < stop

/-- The earlier time comes first; of one time, the lesser id. -/
def before (a b : Usage) : Bool := a.createdAt < b.createdAt || (a.createdAt == b.createdAt && a.id ≤ b.id)

end Usage

/-- The sum of the tokens of rows, if a signed word holds it. -/
def tokenSum (rows : List Usage) : Except Fault Nat :=
  let sum := total (rows.map Usage.totalTokens)
  if maxI64.toNat < sum then .error .sumOverflow else .ok sum

/-- The mean latency of rows; zero of no rows. -/
def averageLatency (rows : List Usage) : Binary64 :=
  let sum := total (rows.map Usage.latency)
  ((Binary64.ofNat sum).div (Binary64.ofNat rows.length)).getD (.zero false)

namespace Tables

/-- A usage row inserted. -/
def insertUsage (s : Tables) (u : Usage) : Except Fault Tables :=
  if s.usage.any (·.id == u.id) then .error .duplicateId else .ok { s with usage := s.usage ++ [u.capped] }

/-- The usage rows of a user. -/
def usageOf (s : Tables) (user : Int) : List Usage := s.usage.filter (·.user == user)

/-- The usage rows of a user, oldest first. -/
def listUsage (s : Tables) (user : Int) : List Usage := (s.usageOf user).mergeSort Usage.before

/-- The usage rows of a user in a span. -/
def usageWithin (s : Tables) (user start stop : Int) : List Usage := (s.usageOf user).filter (Usage.within start stop)

/-- The totals of a user over a span, or over all time before the greatest signed word. -/
def usageTotals (s : Tables) (user : Int) (span : Option (Int × Int)) : Except Fault Totals :=
  let (start, stop) := span.getD (minI64, maxI64)
  let rows := s.usageWithin user start stop
  let successes := rows.countP Usage.isSuccess
  (tokenSum rows).map fun tokens =>
    { requests := rows.length
      successes
      failures := if span.isSome then rows.length - successes else rows.countP Usage.isFailure
      tokens
      averageLatency := averageLatency rows }

/-- The totals of one endpoint among rows. -/
def endpointTotals (rows : List Usage) (endpoint : String) : Except Fault EndpointTotals :=
  let own := rows.filter (·.endpoint == endpoint)
  (tokenSum own).map fun tokens => { endpoint, requests := own.length, tokens, averageLatency := averageLatency own }

/-- The totals of each endpoint that a user called in a span, in the order of the endpoints. -/
def usageByEndpoint (s : Tables) (user start stop : Int) : Except Fault (List EndpointTotals) :=
  let rows := s.usageWithin user start stop
  let endpoints := (rows.map Usage.endpoint).eraseDups.mergeSort fun a b => !decide (b < a)
  endpoints.mapM (endpointTotals rows)

/-! ## Messages between users -/

/-- A message between users inserted. -/
def insertChat (s : Tables) (c : Chat) : Except Fault Tables :=
  if s.chats.any (·.id == c.id) then .error .duplicateId else .ok { s with chats := s.chats ++ [c] }

/-- The message was sent by one of two users to the other. -/
def isBetween (a b : Int) (c : Chat) : Bool := (c.sender == a && c.recipient == b) || (c.sender == b && c.recipient == a)

/-- The messages between two users, oldest first. -/
def chatsBetween (s : Tables) (a b : Int) : List Chat :=
  (s.chats.filter (isBetween a b)).mergeSort fun x y => x.createdAt < y.createdAt || (x.createdAt == y.createdAt && x.id ≤ y.id)

end Tables

end InferenceGate.Store
