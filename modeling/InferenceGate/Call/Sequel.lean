import InferenceGate.Call.Stage
import InferenceGate.Http.Status
import InferenceGate.Reply.Envelope
import InferenceGate.Store.Accounts

/-!
# After the answer

When the caller has its answer, or has gone away, the reply is stored in the conversation of the call (`keepReply`) and the call is
recorded (`record`). A caller that has read an answer of the backend to its end waits for all of that (`Sequel.follow`); if it goes
away meanwhile, the step of the store that it waits for is the last that is taken.
-/

namespace InferenceGate

/-- What a caller was given. -/
structure Given where
  status : Nat
  body : Bytes
  /-- Milliseconds from the call to its end. -/
  latency : Nat
  /-- The gateway answered itself: the call never reached the backend. -/
  isOwn : Bool
  deriving DecidableEq

namespace Call

/-! ## The reply of a turn -/

/-- What finishes the turn of a call, if the call has a conversation; nothing but a success counts as a reply. -/
def finishing? (c : Call) (g : Given) : Option (Chat.TurnRoutine Unit) :=
  match c.conversation, c.user with
  | some conversation, some user =>
    let (text, model) := Reply.assistantText g.body
    let model := (model.or c.model).getD ""
    let reply := if Http.isSuccess g.status then some text else none
    some (Chat.finish conversation user model reply)
  | _, _ => none

/-- The reply of the assistant stored in the conversation of the call, if it has one. -/
def keepReply (c : Call) (g : Given) (s : State) : State :=
  match c.finishing? g with
  | some turn => { s with world := (turn.run.run s.world).2 }
  | none => s

/-- The reply stored as far as a caller waits for it. -/
def keepReplyWithin (c : Call) (g : Given) (waits : Nat) (s : State) : Option Nat × State :=
  match c.finishing? g with
  | some turn =>
    let r := turn.run.runWithin waits (.standing s.world.clock) s.world
    (r.1, { s with world := r.2 })
  | none => (some waits, s)

/-! ## The record of a call -/

/-- What the errors of the gateway itself begin with. -/
def ownErrorHead : String := "gateway: "

/-- What an answer of the gateway itself counts as: no tokens, and its error marked as the gateway's own. -/
def ownUsage (g : Given) : Reply.Summary :=
  let reason := ((Reply.usage g.body).error.or (Http.reason? g.status)).getD ""
  { error := some (ownErrorHead ++ reason) }

/-- What an answer counts as. -/
def usageOf (g : Given) : Reply.Summary := if g.isOwn then ownUsage g else Reply.usage g.body

/-- The usage row of a call. -/
def usageRow (c : Call) (g : Given) (id now : Int) : Store.Usage :=
  let u := usageOf g
  { id
    user := c.user.getD 0
    endpoint := c.pathText
    method := c.method
    status := g.status
    requestSize := c.requestSize
    responseSize := g.body.length
    latency := g.latency
    model := (u.model.or c.model).getD ""
    inputTokens := u.input
    outputTokens := u.output
    totalTokens := u.total
    error := u.error
    createdAt := now }

/-- The usage row of a call with the next id, and the world after it was drawn. -/
def nextUsage (c : Call) (g : Given) (w : Store.World) : Store.Usage × Store.World :=
  let (id, w) := w.nextId
  (c.usageRow g id w.now, w)

/-- The call recorded; a store that refuses the record goes without. -/
def record (c : Call) (g : Given) (s : State) : State :=
  let (row, world) := c.nextUsage g s.world
  { s with world := (world.update (·.insertUsage row)).2 }

end Call

/-! ## Sequels by name -/

/-- What follows an answer. -/
inductive Sequel where
  | context | usage
  deriving DecidableEq

namespace Sequel

/-- What follows the answer to a call. -/
def run (c : Call) (g : Given) (s : State) : Sequel → State
  | .context => c.keepReply g s
  | .usage => c.record g s

/-- What follows the answer to a call, in order. -/
def runAll (c : Call) (g : Given) (s : State) (sequels : List Sequel) : State :=
  sequels.foldl (fun s q => q.run c g s) s

/-- What follows the answer as far as a caller waits for it, with what is left of its waits. Recording the call is one wait. -/
def runWithin (c : Call) (g : Given) (waits : Nat) (s : State) : Sequel → Option Nat × State
  | .context => c.keepReplyWithin g waits s
  | .usage => (if waits = 0 then none else some (waits - 1), c.record g s)

/-- What follows the answer, in order, as far as a caller waits for it. -/
def runAllWithin (c : Call) (g : Given) : Nat → State → List Sequel → Option Nat × State
  | waits, s, [] => (some waits, s)
  | waits, s, q :: sequels =>
    match q.runWithin c g waits s with
    | (some waits, s) => runAllWithin c g waits s sequels
    | (none, s) => (none, s)

/-- What follows the answer, for a caller that waits for it so many times or, given none, as long as it takes: whether the caller has
stayed, and the state. -/
def follow (c : Call) (g : Given) (s : State) (sequels : List Sequel) : Option Nat → Bool × State
  | none => (true, runAll c g s sequels)
  | some waits => ((runAllWithin c g waits s sequels).1.isSome, (runAllWithin c g waits s sequels).2)

end Sequel

end InferenceGate
