import InferenceGate.Json.Printing
import InferenceGate.Json.Reading
import InferenceGate.Text.Blank

/-!
# Messages between users

What a user sends to another, and what both of them get. A message goes to a user with a positive id and says something; a type or
a medium of zero counts as none.
-/

namespace InferenceGate.Messaging

open Json Document

/-- A message as it is sent. -/
structure Inbound where
  recipient : Int
  type : Option Int := none
  media : Option Int := none
  content : String := ""
  deriving DecidableEq

/-- A message sent, from a document. -/
def Inbound.read? (t : Json.Tree) : Option Inbound := do
  let r ← t.record? [{ name := "to_id" }, { name := "message_type" }, { name := "message_media" }, { name := "content" }]
  let recipient ← r.required? "to_id" Tree.i64?
  let type ← r.optional? "message_type" Tree.i64?
  let media ← r.optional? "message_media" Tree.i64?
  let content ← r.getD "content" "" Tree.text?
  return { recipient, type, media, content }

/-- A message goes to someone and says something. -/
def Inbound.isProper (m : Inbound) : Bool := 0 < m.recipient && !Text.isBlankText m.content

/-- A message as it is delivered. -/
structure Outbound where
  id : Option Int
  sender : Int
  recipient : Int
  type : Option Int
  media : Option Int
  content : String
  sentAt : String
  deriving DecidableEq

namespace Outbound

/-- A number that may be absent, as a member. -/
def member? (name : String) (n : Option Int) : List (String × Value) := (n.map fun n => (name, Value.ofInt n)).toList

/-- A message as an object, in the order in which it is written. -/
def value (m : Outbound) : Value :=
  .object (member? "message_id" m.id ++ [("from_id", .ofInt m.sender), ("to_id", .ofInt m.recipient)] ++
    member? "message_type" m.type ++ member? "message_media" m.media ++
    [("content", .string m.content), ("timestamp", .string m.sentAt)])

/-- The payload of a message. -/
def payload (m : Outbound) : String := m.value.render

/-- A message delivered, from a document. -/
def read? (t : Json.Tree) : Option Outbound := do
  let r ← t.record? [{ name := "message_id" }, { name := "from_id" }, { name := "to_id" }, { name := "message_type" },
    { name := "message_media" }, { name := "content" }, { name := "timestamp" }]
  let id ← r.optional? "message_id" Tree.i64?
  let sender ← r.required? "from_id" Tree.i64?
  let recipient ← r.required? "to_id" Tree.i64?
  let type ← r.optional? "message_type" Tree.i64?
  let media ← r.optional? "message_media" Tree.i64?
  let content ← r.required? "content" Tree.text?
  let sentAt ← r.required? "timestamp" Tree.text?
  return { id, sender, recipient, type, media, content, sentAt }

end Outbound

end InferenceGate.Messaging
