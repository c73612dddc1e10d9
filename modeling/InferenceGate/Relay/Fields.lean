import InferenceGate.Http.Fields
import InferenceGate.Text.Blank

/-!
# Fields that are relayed

Which header fields pass from the caller to the backend and back. Fields that concern one connection alone never pass, nor do
those that the connection field names. The backend gets none of the caller's credentials; it is told of the caller by the user's
id, after the configured fields are put in.
-/

namespace InferenceGate.Relay

open Http

/-- How calls are relayed: as a chat, whose answer is streamed, or as they are. -/
inductive Mode where
  | chat | passthrough
  deriving DecidableEq

/-- The field that tells the backend of the user. -/
def userField : String := "x-user-id"

/-- The fields that concern one connection alone. -/
def hopByHop : List String :=
  ["connection", "keep-alive", "proxy-authenticate", "proxy-authorization", "proxy-connection", "te", "trailer",
   "transfer-encoding", "upgrade"]

/-- The names in a connection value. -/
def listedNames (value : Bytes) : List String :=
  ((printable? value).map fun text => ((text.splitOn ",").map fun name => Text.lowerAscii (Text.trim name))).getD []

/-- The names that the connection fields list. -/
def listed (fs : Fields) : List String := (fs.getAll "connection").flatMap listedNames

/-- The fields that concern more than one connection. -/
def endToEnd (fs : Fields) : Fields := fs.eraseAll (listed fs ++ hopByHop)

/-- What the backend is not told of the caller's fields. -/
def requestOnly : List String := ["host", "content-length", "authorization", userField]

/-- The caller's fields that may pass to the backend. -/
def requestFields (mode : Mode) (fs : Fields) : Fields :=
  (endToEnd fs).eraseAll (requestOnly ++ if mode = .chat then ["accept-encoding"] else [])

/-- The fields that the backend gets: the caller's, the configured ones in place of those of their names, and the user's id. -/
def backendFields (mode : Mode) (configured : Fields) (user : Option Int) (fs : Fields) : Fields :=
  let fs := (requestFields mode fs).insertAll configured
  match user with
  | some id => fs.insert userField (Bytes.ofText (toString id))
  | none => fs

/-- A field that answers for another site, which is the gateway's own matter. -/
def isCrossSite (name : String) : Bool := "access-control-".toList.isPrefixOf name.toList

/-- The backend's fields that may pass to the caller. -/
def responseFields (fs : Fields) : Fields :=
  ((endToEnd fs).eraseAll ["content-length", "vary"]).filter fun f => !isCrossSite f.1

/-- The fields announce a stream of events. -/
def isEventStream (fs : Fields) : Bool :=
  ((fs.text? "content-type").map fun v => Text.lowerAscii (Text.trim v)).any fun v =>
    "text/event-stream".toList.isPrefixOf v.toList

/-- The fields with one of a name added where there is none. -/
def withDefault (fs : Fields) (name value : String) : Fields :=
  if fs.contains name then fs else fs.append name (Bytes.ofText value)

/-- The fields of a stream, which must not be kept or held back on its way. -/
def streamingFields (fs : Fields) : Fields :=
  withDefault (withDefault fs "cache-control" "no-cache") "x-accel-buffering" "no"

/-- The fields that the caller gets of those of the backend. -/
def callerFields (mode : Mode) (fs : Fields) : Fields :=
  let fs := responseFields fs
  if mode = .chat && isEventStream fs then streamingFields fs else fs

end InferenceGate.Relay
