import InferenceGate.Http.Api
import InferenceGate.Http.Uri
import InferenceGate.Json.Reading

/-!
# Calls

A call as it goes through the stages of the gateway: what the caller sent, and what the stages have found out about it so far.
-/

namespace InferenceGate

open Http

/-- A call under way. -/
structure Call where
  method : String
  /-- The path and query as sent. -/
  target : Bytes
  fields : Fields
  body : Bytes
  /-- The bytes of the body as sent. -/
  requestSize : Nat
  user : Option Int := none
  role : Option String := none
  model : Option String := none
  conversation : Option Int := none
  isNew : Bool := false
  /-- Fields that the answer will carry, whatever it is. -/
  replyFields : Fields := []
  deriving DecidableEq

namespace Call

/-- A call as it comes in. -/
def of (method : String) (target : Bytes) (fields : Fields) (body : Bytes) : Call :=
  { method, target, fields, body, requestSize := body.length }

/-- The path of a call. -/
def path (c : Call) : Bytes := (Bytes.cut 0x3f c.target).1

/-- The path of a call as text. -/
def pathText (c : Call) : String := (Bytes.text? c.path).getD ""

/-- The body as an object. -/
def payload (c : Call) : Except ApiError Json.Members :=
  match Json.parse? c.body with
  | some (.object ms) => .ok ms
  | some _ => .error (.of .invalidParam "request body must be a json object")
  | none => .error ((ApiError.of .invalidParam "request body must be a valid json object").withDetails "not a JSON text")

/-- The call with an object for its body. -/
def withPayload (c : Call) (ms : Json.Members) : Call := { c with body := Bytes.ofText (Json.Value.object ms).render }

/-- The path of the one endpoint whose conversations are kept. -/
def chatPath : String := "/v1/chat/completions"

/-- A turn of a chat: a call that posts to that endpoint. -/
def isTurn (c : Call) : Bool := c.method == "POST" && c.path == Bytes.ofText chatPath

end Call

end InferenceGate
