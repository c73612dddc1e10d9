import InferenceGate.Calendar.Instant
import InferenceGate.Messaging.Broker
import InferenceGate.Messaging.Message
import InferenceGate.Store.Accounts
import InferenceGate.Store.Routine

/-!
# Messages stored and handed out

A message that a user sends is stored and then published to its recipient and to its sender, each on a channel of their own. A
message that cannot be stored is handed out all the same, without an id. The time is read of one clock, and ids are drawn on a clock
of their own.
-/

namespace InferenceGate.Messaging

/-- Why a message is not handed out. -/
inductive Fault where
  | undecodable
  | improper
  | broker (f : BrokerFault)
  deriving DecidableEq

/-- The text of a fault. -/
def Fault.message : Fault → String
  | .undecodable => "message decode error"
  | .improper => "invalid message payload"
  | .broker f => f.message

/-- What messages are stored in and handed out by. -/
structure Switchboard where
  world : Store.World
  exchange : Exchange
  /-- Messages are stored. -/
  isStoring : Bool
  /-- What all channels begin with. -/
  key : String

/-- What sending something comes to on a clock and a clock of the ids: its answer, the switchboard after it, and what is left of both. -/
structure Dispatched where
  answer : Except Fault Outbound
  board : Switchboard
  clock : Ids.Clock
  idClock : Ids.Clock

namespace Switchboard

/-- The channel of a user. -/
def channel (b : Switchboard) (user : Int) : String := b.key ++ ":user:" ++ toString user

/-- The message that a user sends at a time, before it is stored. -/
def outbound (sender : Int) (clock : Nat) (m : Inbound) : Outbound where
  id := none
  sender := sender
  recipient := m.recipient
  type := m.type.filter (· != 0)
  media := m.media.filter (· != 0)
  content := m.content
  sentAt := Calendar.instantText clock

/-- The row of a message. -/
def row (id now : Int) (m : Outbound) : Store.Chat where
  id := id
  sender := m.sender
  recipient := m.recipient
  type := m.type
  media := m.media
  content := m.content
  createdAt := now

/-- A message stored with a time, under the next id on a clock of the ids: it has that id then, if that went well. -/
def storedOn (w : Store.World) (time : Nat) (idClock : Ids.Clock) (m : Outbound) : Store.Outcome Outbound :=
  let issue := w.nextIdOn idClock
  match issue.world.update (·.insertChat (row issue.answer (Store.stamp time) m)) with
  | (.ok _, w) => ⟨{ m with id := some issue.answer }, w, issue.clock⟩
  | (.error _, w) => ⟨m, w, issue.clock⟩

/-- The users whom a message goes to. -/
def readers (m : Outbound) : List Int := if m.recipient = m.sender then [m.recipient] else [m.recipient, m.sender]

/-- A payload published to users, up to the first whom it cannot be published to. -/
def publishTo (b : Switchboard) (payload : String) : List Int → Except BrokerFault Switchboard
  | [] => .ok b
  | user :: users =>
    match b.exchange.publish (b.channel user) payload with
    | .ok exchange => { b with exchange }.publishTo payload users
    | .error f => .error f

/-- A message handed out once it is read and proper, on a clock: the time it is sent at is read, and that of its row if it is stored. -/
def deliverOn (b : Switchboard) (clock idClock : Ids.Clock) (sender : Int) (m : Inbound) : Dispatched :=
  let out := outbound sender (clock 0) m
  let stored : Store.Outcome Outbound :=
    if b.isStoring then storedOn b.world (clock 1) idClock out else ⟨out, b.world, idClock⟩
  let board := { b with world := stored.world }
  let clock := clock.after (if b.isStoring then 2 else 1)
  match board.publishTo stored.answer.payload (readers stored.answer) with
  | .ok board => ⟨.ok stored.answer, board, clock, stored.clock⟩
  | .error f => ⟨.error (.broker f), board, clock, stored.clock⟩

/-- What a user sends, as it comes in, on a clock and a clock of the ids. -/
def dispatchOn (b : Switchboard) (clock idClock : Ids.Clock) (sender : Int) (raw : Bytes) : Dispatched :=
  match (Json.read? raw).bind Inbound.read? with
  | none => ⟨.error .undecodable, b, clock, idClock⟩
  | some m => if m.isProper then b.deliverOn clock idClock sender m else ⟨.error .improper, b, clock, idClock⟩

/-- What a user sends, as it comes in while the clocks stand. -/
def dispatch (b : Switchboard) (sender : Int) (raw : Bytes) : Except Fault Outbound × Switchboard :=
  let sent := b.dispatchOn (.standing b.world.clock) (.standing b.world.clock) sender raw
  (sent.answer, sent.board)

end Switchboard

end InferenceGate.Messaging
