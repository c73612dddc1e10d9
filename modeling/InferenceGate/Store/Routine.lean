import InferenceGate.Ids
import InferenceGate.Store.Conversations

/-!
# Work in single steps

A call that reads the clock, draws ids and uses the store does so in single indivisible steps, between which other calls may run.
`Routine` is such a call as a value: the step it takes next and what it does with the answer. `Routine.runOn` takes the steps one
after the other on a `World`, reading a clock as it goes; the same routine can be taken apart step by step where calls run side by
side. `Routine.run` is the run while the clock of the world stands, and `Routine.runWithin` that of a caller that goes away while it
waits for the store.
-/

namespace InferenceGate.Store

/-- One step of a call. -/
inductive Step where
  | now
  | nextId
  | createConversation (c : NewConversation)
  | findConversation (id user : Int)
  | insertMessages (ms : List NewMessage)
  | upsertSystem (m : NewMessage)
  | latestSystem (conversation : Int)
  | recentTurns (conversation : Int) (limit : Nat)
  | refresh (id : Int) (model : Option String) (time : Int)

/-- What a step answers with. -/
def Step.Answer : Step → Type
  | .now | .nextId => Int
  | .createConversation _ => Except Fault Conversation
  | .findConversation _ _ => Except Fault (Option Conversation)
  | .insertMessages _ => Except Fault Unit
  | .upsertSystem _ => Except Fault Int
  | .latestSystem _ => Except Fault (Option Message)
  | .recentTurns _ _ => Except Fault (List Message)
  | .refresh _ _ _ => Except Fault Unit

/-- What steps act on: the tables, whether the store can be reached, the ids and the clock. -/
structure World where
  tables : Tables := {}
  reachable : Bool := true
  ids : Ids.Generator
  /-- The clock, in milliseconds. -/
  clock : Nat

/-- What something comes to on a clock: its answer, the world after it, and what is left of the clock. -/
structure Outcome (α : Type) where
  answer : α
  world : World
  clock : Ids.Clock

/-- An answer and a world as an outcome that took no reading of the clock. -/
def Outcome.unread {α : Type} (clock : Ids.Clock) (r : α × World) : Outcome α := ⟨r.1, r.2, clock⟩

/-- An outcome without its clock. -/
def Outcome.pair {α : Type} (o : Outcome α) : α × World := (o.answer, o.world)

/-- A time in milliseconds as a signed word. -/
def stamp (ms : Nat) : Int := min (ms : Int) maxI64

namespace World

/-- The time, as a signed word. -/
def now (w : World) : Int := stamp w.clock

/-- The next id on a clock. -/
def nextIdOn (w : World) (clock : Ids.Clock) : Outcome Int :=
  let issue := w.ids.next clock
  ⟨issue.id, { w with ids := issue.generator }, clock.after issue.readings⟩

/-- The next id. -/
def nextId (w : World) : Int × World := (w.nextIdOn (.standing w.clock)).pair

/-- A question put to the store. -/
def ask {α : Type} (w : World) (f : Tables → α) : Except Fault α :=
  if w.reachable then .ok (f w.tables) else .error .unreachable

/-- A change made in the store: it answers and gives new tables, or fails and changes nothing. -/
def change {α : Type} (w : World) (f : Tables → Except Fault (α × Tables)) : Except Fault α × World :=
  if w.reachable then
    match f w.tables with
    | .ok (a, tables) => (.ok a, { w with tables })
    | .error fault => (.error fault, w)
  else (.error .unreachable, w)

/-- A change that answers nothing. -/
def update (w : World) (f : Tables → Except Fault Tables) : Except Fault Unit × World :=
  w.change fun s => (f s).map ((), ·)

/-- Messages inserted; no messages ask nothing of the store. -/
def insertMessages (w : World) (ms : List NewMessage) : Except Fault Unit × World :=
  if ms.isEmpty then (.ok (), w) else w.update (·.insertMessages ms)

/-- The newest turns; a limit of none asks nothing of the store. -/
def recentTurns (w : World) (conversation : Int) (limit : Nat) : Except Fault (List Message) :=
  if limit == 0 then .ok [] else w.ask (·.recentTurns conversation limit)

end World

/-- A step taken on a clock. -/
def Step.takeOn : (s : Step) → Ids.Clock → World → Outcome s.Answer
  | .now, clock, w => ⟨stamp (clock 0), w, clock.after 1⟩
  | .nextId, clock, w => w.nextIdOn clock
  | .createConversation c, clock, w => .unread clock (w.change (·.createConversation c))
  | .findConversation id user, clock, w => ⟨w.ask (·.findConversation id user), w, clock⟩
  | .insertMessages ms, clock, w => .unread clock (w.insertMessages ms)
  | .upsertSystem m, clock, w => .unread clock (w.change (·.upsertSystem m))
  | .latestSystem conversation, clock, w => ⟨w.ask (·.latestSystem conversation), w, clock⟩
  | .recentTurns conversation limit, clock, w => ⟨w.recentTurns conversation limit, w, clock⟩
  | .refresh id model time, clock, w => .unread clock (w.update (·.refresh id model time))

/-- A call waits for the store at a step. The clock and the ids answer at once, and so does a step that asks nothing of the store. -/
def Step.waits : Step → Bool
  | .now | .nextId => false
  | .insertMessages ms => !ms.isEmpty
  | .recentTurns _ limit => limit != 0
  | .createConversation _ | .findConversation _ _ | .upsertSystem _ | .latestSystem _ | .refresh _ _ _ => true

/-- A call in single steps that ends with a result. -/
inductive Routine (α : Type) where
  | done (a : α)
  | step (s : Step) (next : s.Answer → Routine α)

namespace Routine

/-- A routine followed by one that depends on its result. -/
def bind {α β : Type} : Routine α → (α → Routine β) → Routine β
  | .done a, f => f a
  | .step s next, f => .step s fun answer => bind (next answer) f

instance : Monad Routine where
  pure := .done
  bind := bind

/-- The routine of a single step. -/
def take (s : Step) : Routine s.Answer := .step s .done

/-- The time. -/
def now : Routine Int := .take .now

/-- A new id. -/
def nextId : Routine Int := .take .nextId

/-- A conversation created. -/
def createConversation (c : NewConversation) : Routine (Except Fault Conversation) := .take (.createConversation c)

/-- A conversation by its id, for its owner. -/
def findConversation (id user : Int) : Routine (Except Fault (Option Conversation)) := .take (.findConversation id user)

/-- Messages inserted. -/
def insertMessages (ms : List NewMessage) : Routine (Except Fault Unit) := .take (.insertMessages ms)

/-- The system message of a conversation written. -/
def upsertSystem (m : NewMessage) : Routine (Except Fault Int) := .take (.upsertSystem m)

/-- The system message of a conversation. -/
def latestSystem (conversation : Int) : Routine (Except Fault (Option Message)) := .take (.latestSystem conversation)

/-- The newest turns of a conversation. -/
def recentTurns (conversation : Int) (limit : Nat) : Routine (Except Fault (List Message)) :=
  .take (.recentTurns conversation limit)

/-- The figures of a conversation brought up to date. -/
def refresh (id : Int) (model : Option String) (time : Int) : Routine (Except Fault Unit) := .take (.refresh id model time)

/-- A routine run without a pause, on a clock that it reads as it goes. -/
def runOn {α : Type} : Routine α → Ids.Clock → World → Outcome α
  | .done a, clock, w => ⟨a, w, clock⟩
  | .step s next, clock, w => runOn (next (s.takeOn clock w).answer) (s.takeOn clock w).clock (s.takeOn clock w).world

/-- A routine run while the clock stands: its result and the world after it. -/
def run {α : Type} (r : Routine α) (w : World) : α × World := (r.runOn (.standing w.clock) w).pair

/-- A routine run by a caller that waits for the store so many times and goes away when it waits once more: the step that it then waits
for is taken all the same, and nothing after it. What is left of the waits, or none once the caller has gone, and the world. -/
def runWithin {α : Type} : Routine α → Nat → Ids.Clock → World → Option Nat × World
  | .done _, waits, _, w => (some waits, w)
  | .step s next, waits, clock, w =>
    match s.waits, waits with
    | true, 0 => (none, (s.takeOn clock w).world)
    | true, waits + 1 => runWithin (next (s.takeOn clock w).answer) waits (s.takeOn clock w).clock (s.takeOn clock w).world
    | false, waits => runWithin (next (s.takeOn clock w).answer) waits (s.takeOn clock w).clock (s.takeOn clock w).world

/-- Running two routines in sequence is running the second where the first ended. -/
theorem runOn_bind {α β : Type} (r : Routine α) (f : α → Routine β) (clock : Ids.Clock) (w : World) :
    (r.bind f).runOn clock w = (f (r.runOn clock w).answer).runOn (r.runOn clock w).clock (r.runOn clock w).world := by
  induction r generalizing clock w with
  | done a => rfl
  | step s next ih => exact ih _ _ _

end Routine

end InferenceGate.Store
