import InferenceGate.Call.Pipeline
import InferenceGate.Config.Basic
import InferenceGate.Messaging.Fanout

/-!
# The server

A gateway as it stands after it was configured: how callers are told apart, the ways that calls take, and the sizes of pages and
bodies. A request is what a caller sends; circumstances are what neither the caller nor the gateway decides.
-/

namespace InferenceGate

open Http

/-- A gateway. -/
structure Server where
  policy : Policy
  chat : Pipeline
  proxy : Pipeline
  sizes : Config.Paging
  maxBody : Nat
  node : Nat
  /-- What the channels of users begin with. -/
  channelKey : String

namespace Server

/-- Why a configuration makes no gateway. -/
inductive Fault where
  | config (i : Config.Invalid)
  | backend (f : Relay.FieldFault)
  deriving DecidableEq

/-- The text of a fault. -/
def Fault.message : Fault → String
  | .config i => "config error: " ++ i.message
  | .backend f => "backend error: " ++ f.message

/-- The gateway of a configuration, the secret perhaps from the environment. -/
def ofConfig (c : Config) (environment : String → Option String) : Except Fault Server :=
  match c.auth.resolve environment with
  | .error i => .error (.config i)
  | .ok secret =>
    match Relay.Backend.of c.backend.base c.backend.fields with
    | .error f => .error (.backend f)
    | .ok backend =>
      .ok
        { policy :=
            { gate := { secret := Bytes.ofText secret, window := c.auth.deviceWindow }
              limits := some c.limits
              maxHistory := c.history.effective }
          chat := .chat backend
          proxy := .proxy backend
          sizes := c.paging
          maxBody := c.maxBody
          node := c.node
          channelKey := c.channelKey }

/-- The state of a gateway that has served nothing yet, at a time in milliseconds. -/
def initial (v : Server) (clock : Nat) : State where
  world := { ids := .ofNode v.node, clock }
  second := clock / 1000

/-- The messages between the users of a gateway: kept in its store, and handed out on the channels of its key. -/
def switchboard (v : Server) (s : State) (exchange : Messaging.Exchange) : Messaging.Switchboard where
  world := s.world
  exchange := exchange
  isStoring := true
  key := v.channelKey

/-- A request as a caller sends it. -/
structure Request where
  method : String
  target : Target
  fields : Fields
  body : Bytes

/-- What neither the caller nor the gateway decides about a call. -/
structure Circumstances where
  /-- The reply of the backend, if it can be reached. -/
  replies : Relay.Request → Option Relay.Reply
  /-- Milliseconds from the call to its end. -/
  latency : Nat := 0
  patience : Relay.Patience := .unlimited
  /-- The id of a request that brings none. -/
  freshId : String
  /-- The call can be kept open for messages. -/
  staysOpen : Bool := false

/-- What a caller gets. -/
structure Answer where
  status : Nat
  fields : Fields
  body : Bytes
  /-- The body broke off. -/
  failed : Bool := false
  /-- What the backend got. -/
  sent : Option Relay.Request := none
  /-- The user whose connection is now open. -/
  opened : Option Int := none

/-- A response as an answer. -/
def Answer.ofResponse (r : Response) : Answer := { status := r.status, fields := r.fields, body := r.body }

/-- An answer without its body. -/
def Answer.headOnly (a : Answer) : Answer := { a with body := [] }

end Server

end InferenceGate
