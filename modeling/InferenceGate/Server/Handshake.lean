import InferenceGate.Http.Api
import InferenceGate.Text.Blank

/-!
# The handshake of a connection

A call that asks for a connection to be kept open says so in its fields; a call that says it wrongly is told what is missing.
-/

namespace InferenceGate

open Http

/-- What is wrong with a handshake, in the order in which it is looked for. -/
inductive HandshakeFault where
  | method
  | connection
  | upgrade
  | version
  | key
  /-- The call came in a way that cannot be kept open. -/
  | transport
  deriving DecidableEq

namespace HandshakeFault

/-- The text of a fault. -/
def message : HandshakeFault → String
  | .method => "Request method must be `GET`"
  | .connection => "Connection header did not include 'upgrade'"
  | .upgrade => "`Upgrade` header did not include 'websocket'"
  | .version => "`Sec-WebSocket-Version` header did not include '13'"
  | .key => "`Sec-WebSocket-Key` header missing"
  | .transport => "WebSocket request couldn't be upgraded since no upgrade state was present"

/-- The status that a fault is answered with. -/
def status : HandshakeFault → Nat
  | .method => 405
  | .transport => 426
  | _ => 400

/-- The answer to a fault. -/
def response (f : HandshakeFault) : Response := textResponse f.status f.message

end HandshakeFault

namespace Handshake

/-- A text occurs in another. -/
def occursIn (part whole : List Char) : Bool :=
  part.isPrefixOf whole ||
    match whole with
    | [] => false
    | _ :: rest => occursIn part rest

/-- The value of a name holds a word, in any case of letters. -/
def mentions (fields : Fields) (name word : String) : Bool :=
  match (fields.get? name).bind Bytes.text? with
  | some t => occursIn word.toList (Text.lowerAscii t).toList
  | none => false

/-- The value of a name is a word, in any case of letters. -/
def names (fields : Fields) (name word : String) : Bool := (fields.get? name).map (·.map Bytes.lower) == some (Bytes.ofText word)

/-- What is wrong with a handshake, if anything is. -/
def fault? (method : String) (fields : Fields) (staysOpen : Bool) : Option HandshakeFault :=
  if method != "GET" then some .method
  else if !mentions fields "connection" "upgrade" then some .connection
  else if !names fields "upgrade" "websocket" then some .upgrade
  else if !names fields "sec-websocket-version" "13" then some .version
  else if !fields.contains "sec-websocket-key" then some .key
  else if !staysOpen then some .transport
  else none

end Handshake

end InferenceGate
