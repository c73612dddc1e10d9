import InferenceGate.Chat.Tokens
import InferenceGate.Quota.Charge
import InferenceGate.Quota.Settings

/-!
# The quota of a subject

A call is charged to its subject in the window its second falls in, by the settings in force. The store of counters may be out
of reach or answer nonsense; the ledger then says so and leaves it to the caller what follows.
-/

namespace InferenceGate.Quota

/-- Why the counters could not be charged. -/
inductive CounterFault where
  | unavailable (reason : String)
  | malformed (answer : String)
  deriving DecidableEq

/-- The text of a fault. -/
def CounterFault.message : CounterFault → String
  | .unavailable reason => "quota store unavailable: " ++ reason
  | .malformed answer => "malformed quota store result: " ++ answer

/-- A store of counters, in order or not. -/
inductive CounterStore where
  | counting (counters : Counters)
  | faulty (fault : CounterFault)

namespace CounterStore

/-- A charge put to the store. -/
def charge (s : CounterStore) (now : Nat) (c : Charge) : Except CounterFault (Option Dimension) × CounterStore :=
  match s with
  | .counting cs => (.ok (cs.charge now c).1, .counting (cs.charge now c).2)
  | .faulty f => (.error f, s)

/-- The value of a key at a time. -/
def value (s : CounterStore) (key : String) (now : Nat) : Nat :=
  match s with
  | .counting cs => cs.value key now
  | .faulty _ => 0

end CounterStore

/-- What the ledger decides of a call. -/
inductive Decision where
  | allowed
  | denied (d : Dimension)
  | unavailable (f : CounterFault)
  deriving DecidableEq

/-- The cost of a prompt and a reply in units of `unit` tokens, rounded up. -/
def tokenCost (prompt reply unit : Nat) : Nat :=
  let unit := if unit == 0 then usualTokenUnit else unit
  let total := addCapped prompt reply
  (total + unit - 1) / unit

/-- The token cost of a chat payload: at least one while tokens are counted. -/
def payloadCost (s : Settings) (payload : Json.Members) : Nat :=
  let cost := tokenCost (Chat.promptTokens payload) (Chat.maxTokens payload s.defaultMaxTokens) s.tokenUnit
  if s.tokenEnabled then max cost 1 else cost

/-- The charge for a call of a subject at a time in milliseconds. Counters live for two windows. -/
def chargeFor (s : Settings) (now : Nat) (subject : Int) (requestCost tokenCost : Nat) : Charge :=
  let window := windowOf (now / 1000) s.windowSeconds
  { requestKey := requestKey s.keyHead subject window
    tokenKey := tokenKey s.keyHead subject window
    requestLimit := s.requestPerMin
    requestCost
    tokenLimit := s.tokenPerMin
    tokenCost
    lifetimeSeconds := mulCapped s.windowSeconds 2 }

/-- A call charged to its subject: with nothing counted it is allowed and the store is not asked. The window is that of the time
`asked` at which the ledger takes up the call; the counters are charged at the time `charged`. -/
def consumeAt (s : Settings) (store : CounterStore) (asked charged : Nat) (subject : Int) (requestCost tokenCost : Nat) :
    Decision × CounterStore :=
  if !s.anyEnabled then (.allowed, store)
  else
    match store.charge charged (chargeFor s asked subject requestCost tokenCost) with
    | (.ok none, store) => (.allowed, store)
    | (.ok (some d), store) => (.denied d, store)
    | (.error f, store) => (.unavailable f, store)

/-- A call charged to its subject at once. -/
def consume (s : Settings) (store : CounterStore) (now : Nat) (subject : Int) (requestCost tokenCost : Nat) :
    Decision × CounterStore :=
  consumeAt s store now now subject requestCost tokenCost

end InferenceGate.Quota
