import InferenceGate.Messaging.Fanout

/-!
# Connections

A connection of a user is a subscription to the user's channel, open until the user closes it, goes away, or sends something that
cannot be handed out.
-/

namespace InferenceGate.Messaging

/-- What comes in on a connection. -/
inductive Frame where
  | data (bytes : Bytes)
  | other
  | close

/-- A connection of a user. -/
structure Connection where
  user : Int
  subscriber : Nat
  isOpen : Bool := true
  deriving DecidableEq

namespace Connection

/-- A connection opened for a user. -/
def connect (b : Switchboard) (user : Int) : Except BrokerFault (Connection × Switchboard) :=
  match b.exchange.subscribe (b.channel user) with
  | .ok (subscriber, exchange) => .ok ({ user, subscriber }, { b with exchange })
  | .error f => .error f

/-- A connection ended, and its subscription with it. -/
def hangUp (c : Connection) (b : Switchboard) : Connection × Switchboard :=
  ({ c with isOpen := false }, { b with exchange := b.exchange.leave c.subscriber })

/-- A connection after one more frame. -/
def receive (c : Connection) (b : Switchboard) (f : Frame) : Connection × Switchboard :=
  if !c.isOpen then (c, b)
  else
    match f with
    | .other => (c, b)
    | .close => c.hangUp b
    | .data bytes =>
      match b.dispatch c.user bytes with
      | (.ok _, b) => (c, b)
      | (.error _, b) => c.hangUp b

/-- What the connection has for its user, and what remains. -/
def deliveries (c : Connection) (b : Switchboard) : List String × Switchboard :=
  let (payloads, exchange) := b.exchange.drain c.subscriber
  (payloads, { b with exchange })

end Connection

end InferenceGate.Messaging
