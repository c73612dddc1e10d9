/-!
# The broker

Payloads go out on channels to whoever has subscribed. A channel is served by a line, opened for its first subscriber and forgotten
when it is found to have none; a later subscriber gets a new line. A subscriber is on one line, keeps the newest payloads that it
has not yet taken, and is cut off when its line is forgotten.
-/

namespace InferenceGate.Messaging

/-- The payloads that a subscriber keeps. -/
def capacity : Nat := 256

/-- The last `n` elements of a list. -/
def lastOf {α : Type} (n : Nat) (l : List α) : List α := l.drop (l.length - n)

/-- One who has subscribed: its number, the line it is on, and what it has not yet taken. -/
structure Subscriber where
  id : Nat
  line : Nat
  waiting : List String := []
  deriving DecidableEq

/-- A payload put to a subscriber. -/
def Subscriber.put (payload : String) (s : Subscriber) : Subscriber :=
  { s with waiting := lastOf capacity (s.waiting ++ [payload]) }

/-- A broker: the line of each channel that has one, the subscribers, and the numbers of the next line and the next subscriber. -/
structure Broker where
  lines : List (String × Nat) := []
  subscribers : List Subscriber := []
  nextLine : Nat := 0
  nextSubscriber : Nat := 0
  deriving DecidableEq

namespace Broker

/-- A line has subscribers. -/
def isLive (b : Broker) (line : Nat) : Bool := b.subscribers.any (·.line == line)

/-- The broker without the lines that have no subscriber. -/
def swept (b : Broker) : Broker := { b with lines := b.lines.filter fun l => b.isLive l.2 }

/-- The broker with a line for a channel, and that line. -/
def withLine (b : Broker) (channel : String) : Nat × Broker :=
  match b.lines.lookup channel with
  | some line => (line, b)
  | none => (b.nextLine, { b with lines := b.lines ++ [(channel, b.nextLine)], nextLine := b.nextLine + 1 })

/-- A subscriber added to a line, and its number. -/
def attach (b : Broker) (line : Nat) : Nat × Broker :=
  (b.nextSubscriber,
    { b with subscribers := b.subscribers ++ [{ id := b.nextSubscriber, line }], nextSubscriber := b.nextSubscriber + 1 })

/-- A new subscriber of a channel, and its number. -/
def subscribe (b : Broker) (channel : String) : Nat × Broker :=
  let (line, b) := b.swept.withLine channel
  b.attach line

/-- A subscriber gone. -/
def leave (b : Broker) (id : Nat) : Broker := { b with subscribers := b.subscribers.filter (·.id != id) }

/-- A channel without its line. -/
def forget (b : Broker) (channel : String) : Broker := { b with lines := b.lines.filter (·.1 != channel) }

/-- A payload put to all who are on a line. -/
def send (b : Broker) (line : Nat) (payload : String) : Broker :=
  { b with subscribers := b.subscribers.map fun s => if s.line == line then s.put payload else s }

/-- A payload published on a channel; without a subscriber there it is lost. -/
def publish (b : Broker) (channel payload : String) : Broker :=
  match b.lines.lookup channel with
  | none => b
  | some line => if b.isLive line then b.send line payload else b.forget channel

/-- A subscriber by its number. -/
def subscriber? (b : Broker) (id : Nat) : Option Subscriber := b.subscribers.find? (·.id == id)

/-- What a subscriber has not yet taken, and the broker after it took all of it. -/
def drain (b : Broker) (id : Nat) : List String × Broker :=
  (((b.subscriber? id).map Subscriber.waiting).getD [],
    { b with subscribers := b.subscribers.map fun s => if s.id == id then { s with waiting := [] } else s })

/-- A subscriber is cut off: its line is no channel's any more. -/
def isCutOff (b : Broker) (s : Subscriber) : Bool := !b.lines.any (·.2 == s.line)

end Broker

/-! ## Brokers that may be out of reach -/

/-- Why a broker does not serve. -/
inductive BrokerFault where
  | publishing (reason : String)
  | subscribing (reason : String)
  deriving DecidableEq

/-- The text of a fault. -/
def BrokerFault.message : BrokerFault → String
  | .publishing reason => "broker unavailable: " ++ reason
  | .subscribing reason => "broker subscription failed: " ++ reason

/-- A broker in order, or one out of reach for a reason. -/
inductive Exchange where
  | serving (b : Broker)
  | down (reason : String)

namespace Exchange

/-- A payload published on a channel. -/
def publish (x : Exchange) (channel payload : String) : Except BrokerFault Exchange :=
  match x with
  | .serving b => .ok (.serving (b.publish channel payload))
  | .down reason => .error (.publishing reason)

/-- A new subscriber of a channel, and its number. -/
def subscribe (x : Exchange) (channel : String) : Except BrokerFault (Nat × Exchange) :=
  match x with
  | .serving b => .ok ((b.subscribe channel).1, .serving (b.subscribe channel).2)
  | .down reason => .error (.subscribing reason)

/-- A subscriber gone. -/
def leave (x : Exchange) (id : Nat) : Exchange :=
  match x with
  | .serving b => .serving (b.leave id)
  | .down reason => .down reason

/-- What a subscriber has not yet taken, and the exchange after it took all of it. -/
def drain (x : Exchange) (id : Nat) : List String × Exchange :=
  match x with
  | .serving b => ((b.drain id).1, .serving (b.drain id).2)
  | .down reason => ([], .down reason)

end Exchange

end InferenceGate.Messaging
