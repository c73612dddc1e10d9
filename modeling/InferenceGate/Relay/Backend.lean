import InferenceGate.Http.Api
import InferenceGate.Relay.Fields
import InferenceGate.Relay.Stream
import InferenceGate.Relay.Target
import InferenceGate.Text.Quoted

/-!
# The backend

Where the backend is and which fields every call to it carries; the request that a call becomes, and the answer that a caller gets
when there is none from the backend.
-/

namespace InferenceGate.Relay

open Http

/-- A request as the backend gets it. -/
structure Request where
  method : String
  address : Bytes
  fields : Fields
  body : Bytes
  deriving DecidableEq

/-- The answer of the backend. -/
structure Reply where
  status : Nat
  fields : Fields
  chunks : List Bytes
  ending : Ending := .complete
  deriving DecidableEq

/-- Why configured fields are refused. -/
inductive FieldFault where
  | name (name : String)
  | value (name : String)
  deriving DecidableEq

/-- The text of a fault. -/
def FieldFault.message : FieldFault → String
  | .name n => "invalid backend header: invalid header name: " ++ n
  | .value n => "invalid backend header: invalid header value for " ++ n

/-- A backend: its address as configured, and the fields that every call to it carries. -/
structure Backend where
  base : String
  fields : Fields := []
  deriving DecidableEq

/-- One configured field put among others. -/
def putField (fs : Fields) (name value : String) : Except FieldFault Fields :=
  match fieldName? name with
  | none => .error (.name name)
  | some n =>
    let bytes := Bytes.ofText value
    if bytes.all isValueByte then .ok (fs.insert n bytes) else .error (.value name)

/-- Configured fields in order, up to the first at fault. -/
def configuredFields (fs : Fields) : List (String × String) → Except FieldFault Fields
  | [] => .ok fs
  | (name, value) :: rest =>
    match putField fs name value with
    | .error f => .error f
    | .ok fs => configuredFields fs rest

namespace Backend

/-- A backend from its configuration. -/
def of (base : String) (fields : List (String × String)) : Except FieldFault Backend :=
  (configuredFields [] fields).map fun fields => { base, fields }

/-- The address that a call with a target goes to. -/
def address (b : Backend) (target : Bytes) : Bytes := join (Bytes.ofText b.base) (withoutParam tokenParam target)

/-- The request that a call becomes. -/
def request (b : Backend) (mode : Mode) (method : String) (target : Bytes) (fields : Fields) (user : Option Int) (body : Bytes) :
    Request where
  method := method
  address := b.address target
  fields := backendFields mode b.fields user fields
  body := body

/-- How a backend is shown: its fields are not. -/
def describe (b : Backend) : String :=
  "StreamRelay \x7b base_url: " ++ Text.quoted b.base ++ ", headers: \"<redacted>\" \x7d"

end Backend

/-- The body of a reply on its way to the caller. -/
def Reply.tee (r : Reply) : Tee := { chunks := r.chunks, ending := r.ending }

/-- The answer when the backend gives none. -/
def badGateway : Response :=
  jsonResponse 502 (.object [("error", .object [("message", .string "upstream error"), ("type", .string "bad_gateway")])])

end InferenceGate.Relay
