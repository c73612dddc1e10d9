import InferenceGate.Text.Bytes

/-!
# Endpoints

What the paths of the gateway stand for, and the methods that each of them takes. Paths of version 1 that have no meaning of their
own belong to the backend.
-/

namespace InferenceGate

/-- What a path stands for. -/
inductive Endpoint where
  | chat
  | conversations
  /-- The messages of a conversation, whose id is still as it was written. -/
  | messages (id : Bytes)
  | backend
  | usageTotal
  | usageStats
  | messaging
  deriving DecidableEq

namespace Endpoint

/-- The segments of a path; one that spells no text counts as empty. -/
def segments (path : Bytes) : List String := (Bytes.splitOn 0x2f path).map fun s => (Bytes.text? s).getD ""

/-- The endpoints below `/v1/`. A path that ends in a slash right where the paths with a meaning of their own part or end leads
nowhere; every other path that goes on belongs to the backend. -/
def ofVersion1? : List String → Option Endpoint
  | [] | [""] => none
  | ["chat", "completions"] => some .chat
  | ["conversations"] => some .conversations
  | ["conversations", id, "messages"] => some (.messages (Bytes.ofText id))
  | ["c", ""] | ["chat", "completions", ""] | ["conversations", ""] | ["conversations", _, ""]
  | ["conversations", _, "messages", ""] => none
  | _ => some .backend

/-- The endpoint of a path. -/
def ofPath? (path : Bytes) : Option Endpoint :=
  match segments path with
  | "" :: "v1" :: rest => ofVersion1? rest
  | ["", "usage", "total"] => some .usageTotal
  | ["", "usage", "stats"] => some .usageStats
  | ["", "chat", "ws"] => some .messaging
  | _ => none

/-- The methods that an endpoint takes, if it does not take all of them. -/
def methods? : Endpoint → Option (List String)
  | .chat | .backend => none
  | .conversations | .messages _ | .messaging => some ["GET", "HEAD"]
  | .usageTotal | .usageStats => some ["POST"]

end Endpoint

end InferenceGate
