import InferenceGate.Http.Fields
import InferenceGate.Json.Printing
import InferenceGate.Text.Blank

/-!
# Answers of the gateway

Every answer that the gateway makes up itself is an envelope: `success` with data, or an error with a kind, a message and a
code. The kind fixes the status, the type, the code and the message that stands in for a blank one.
-/

namespace InferenceGate.Http

open Json (Value)

/-- A response: status, header fields and body. -/
structure Response where
  status : Nat
  fields : Fields
  body : Bytes
  deriving DecidableEq

/-- The kinds of errors a client is told of. -/
inductive ErrorKind where
  | invalidParam | unauthorized | forbidden | notFound | conflict | tooManyRequests | internal | database
  deriving DecidableEq

namespace ErrorKind

/-- The code of a kind. -/
def code : ErrorKind → Nat
  | .invalidParam => 1001
  | .unauthorized => 1002
  | .forbidden => 1003
  | .notFound => 1004
  | .conflict => 1005
  | .tooManyRequests => 1006
  | .internal => 2000
  | .database => 2001

/-- The type that a kind belongs to. -/
def type : ErrorKind → String
  | .invalidParam | .notFound | .conflict => "invalid_request_error"
  | .unauthorized => "authentication_error"
  | .forbidden => "permission_error"
  | .tooManyRequests => "rate_limit_error"
  | .internal | .database => "server_error"

/-- The message of a kind. -/
def text : ErrorKind → String
  | .invalidParam => "invalid params"
  | .unauthorized => "unauthorized"
  | .forbidden => "forbidden"
  | .notFound => "not found"
  | .conflict => "conflict"
  | .tooManyRequests => "too many requests"
  | .internal => "internal error"
  | .database => "database error"

/-- The status that a kind is answered with. -/
def status : ErrorKind → Nat
  | .invalidParam => 400
  | .unauthorized => 401
  | .forbidden => 403
  | .notFound => 404
  | .conflict => 409
  | .tooManyRequests => 429
  | .internal | .database => 500

end ErrorKind

/-- An error as the client is told of it. -/
structure ApiError where
  kind : ErrorKind
  message : String
  param : Option String := none
  details : Option String := none
  deriving DecidableEq

/-- The fields of a body of JSON. -/
def jsonFields : Fields := [("content-type", Bytes.ofText "application/json")]

/-- A response whose body is a value. -/
def jsonResponse (status : Nat) (v : Value) : Response := ⟨status, jsonFields, Bytes.ofText v.render⟩

/-- A response whose body is a text. -/
def textResponse (status : Nat) (text : String) : Response :=
  ⟨status, [("content-type", Bytes.ofText "text/plain; charset=utf-8")], Bytes.ofText text⟩

namespace ApiError

/-- An error of a kind; a blank message gives way to that of the kind. -/
def of (kind : ErrorKind) (message : String) : ApiError :=
  { kind, message := if Text.isBlankText message then kind.text else message }

/-- The error with the parameter at fault. -/
def withParam (e : ApiError) (param : String) : ApiError := { e with param := some param }

/-- The error with details. -/
def withDetails (e : ApiError) (details : String) : ApiError := { e with details := some details }

/-- The error object of the envelope. -/
def value (e : ApiError) : Value :=
  .object ([("message", Value.string e.message), ("type", .string e.kind.type)] ++
    (e.param.map fun p => ("param", Value.string p)).toList ++ [("code", .string (toString e.kind.code))] ++
    (e.details.map fun d => ("details", Value.string d)).toList)

/-- The response that tells of an error. -/
def response (e : ApiError) : Response :=
  jsonResponse e.kind.status (.object [("success", .bool false), ("error", e.value)])

end ApiError

/-- The response with data. -/
def success (data : Value) : Response := jsonResponse 200 (.object [("success", .bool true), ("data", data)])

end InferenceGate.Http
