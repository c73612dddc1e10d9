import InferenceGate.Text.Integer

/-!
# Charges and counters

A charge asks to raise two counters, one of requests and one of tokens, each by its cost and within its limit. Either both are
raised or none: `Counters.charge` names the first dimension that would pass its limit. A counter that a charge creates expires
after the charge's lifetime, and an expired counter is gone before the next charge is looked at.
-/

namespace InferenceGate.Quota

/-- What is counted. -/
inductive Dimension where
  | request | token
  deriving DecidableEq

/-- The name of a dimension. -/
def Dimension.name : Dimension → String
  | .request => "request"
  | .token => "token"

/-- The dimension of a name. -/
def Dimension.ofName? (s : String) : Option Dimension :=
  if s == Dimension.request.name then some .request
  else if s == Dimension.token.name then some .token
  else none

/-- The counter key of a subject in a window. -/
def counterKey (head : String) (mark : String) (subject : Int) (window : Nat) : String :=
  head ++ ":" ++ mark ++ ":" ++ toString subject ++ ":" ++ toString window

/-- The key that counts requests. -/
def requestKey (head : String) (subject : Int) (window : Nat) : String := counterKey head "req" subject window

/-- The key that counts tokens. -/
def tokenKey (head : String) (subject : Int) (window : Nat) : String := counterKey head "tok" subject window

/-- The number of the window that a second falls in. -/
def windowOf (second length : Nat) : Nat := second / max length 1

/-- One charge on both counters. -/
structure Charge where
  requestKey : String
  tokenKey : String
  requestLimit : Nat
  requestCost : Nat
  tokenLimit : Nat
  tokenCost : Nat
  lifetimeSeconds : Nat
  deriving DecidableEq

namespace Charge

/-- The charge counts requests. -/
def requestEnabled (c : Charge) : Bool := 0 < c.requestLimit && 0 < c.requestCost

/-- The charge counts tokens. -/
def tokenEnabled (c : Charge) : Bool := 0 < c.tokenLimit && 0 < c.tokenCost

end Charge

/-- A counter and the millisecond from which it no longer counts. -/
structure Counter where
  value : Nat
  expiresAt : Option Nat
  deriving DecidableEq

/-- The counter counts at a time. -/
def Counter.isLive (now : Nat) (c : Counter) : Bool := c.expiresAt.all fun t => now < t

/-- All counters, by key. -/
abbrev Counters := List (String × Counter)

namespace Counters

/-- The value of a key at a time. -/
def value (cs : Counters) (key : String) (now : Nat) : Nat :=
  match cs.lookup key with
  | some c => if c.isLive now then c.value else 0
  | none => 0

/-- The counters that count at a time. -/
def purge (now : Nat) (cs : Counters) : Counters := cs.filter fun entry => entry.2.isLive now

/-- A counter raised by a cost. One whose value is then the cost alone is new, and its lifetime begins. -/
def raised (now lifetimeMs cost : Nat) (c : Counter) : Counter :=
  let value := addCapped c.value cost
  let expiresAt := if value == cost && 0 < lifetimeMs then some (addCapped now lifetimeMs) else c.expiresAt
  { value, expiresAt }

/-- The counters with that of a key raised by a cost; a key without a counter begins at zero. -/
def bump (key : String) (now lifetimeMs cost : Nat) : Counters → Counters
  | [] => [(key, raised now lifetimeMs cost ⟨0, none⟩)]
  | (k, c) :: cs => if k = key then (k, raised now lifetimeMs cost c) :: cs else (k, c) :: bump key now lifetimeMs cost cs

/-- The dimension in which a charge would pass its limit, requests first. -/
def refusal? (cs : Counters) (now : Nat) (c : Charge) : Option Dimension :=
  if c.requestEnabled && c.requestLimit < addCapped (cs.value c.requestKey now) c.requestCost then some .request
  else if c.tokenEnabled && c.tokenLimit < addCapped (cs.value c.tokenKey now) c.tokenCost then some .token
  else none

/-- A charge made at a time: the dimension that refuses it, if any, and the counters after it. -/
def charge (cs : Counters) (now : Nat) (c : Charge) : Option Dimension × Counters :=
  let live := cs.purge now
  match live.refusal? now c with
  | some d => (some d, live)
  | none =>
    let lifetimeMs := mulCapped c.lifetimeSeconds 1000
    let counted := if c.requestEnabled then live.bump c.requestKey now lifetimeMs c.requestCost else live
    (none, if c.tokenEnabled then counted.bump c.tokenKey now lifetimeMs c.tokenCost else counted)

end Counters

end InferenceGate.Quota
