import InferenceGate.Calendar.Instant
import InferenceGate.Config.Basic
import InferenceGate.Http.Query
import InferenceGate.Server.Selection
import InferenceGate.Store.Routine

/-!
# Listings of conversations

A user's conversations and the messages of one of them, page by page, as the user is shown them.
-/

namespace InferenceGate.Listing

open Http Store
open Json (Value)

/-- The error of a store that fails. -/
def storeError : ApiError := .of .database "database error"

/-- What the store answers, or the error of a store that fails. -/
def answered {α : Type} (r : Except Store.Fault α) : Except ApiError α :=
  match r with
  | .ok a => .ok a
  | .error _ => .error storeError

/-- An instant as shown. -/
def instant (ms : Int) : Value := .string (Calendar.instantText ms)

/-- A conversation as its user is shown it. -/
def conversation (c : Conversation) : Value :=
  .object [("conversation_id", .ofInt c.id), ("title", .string c.title), ("model", .string c.model),
    ("message_count", .ofInt c.messageCount), ("last_message_preview", .string c.preview),
    ("last_message_at", instant c.lastMessageAt)]

/-- A message as its user is shown it. -/
def message (m : Message) : Value :=
  .object [("message_id", .ofInt m.id), ("role", .string m.role), ("content", .string m.content), ("model", .string m.model),
    ("created_at", instant m.createdAt), ("updated_at", instant m.updatedAt)]

/-- A page of a user's conversations. -/
def conversations (sizes : Config.Paging) (w : World) (user : Int) (query : Bytes) : Except ApiError Value := do
  let s ← Selection.read query sizes.conversations sizes.maxConversations
  let page ← answered (w.ask (·.listConversations user s.offset s.size))
  return .object (("list", .array (page.items.map conversation)) :: s.members page.total)

/-- The id that a segment of a path names: a positive number. -/
def idOf (segment : String) : Except ApiError Int :=
  match (Text.i64? (Text.trim segment)).filter (0 < ·) with
  | some id => .ok id
  | none => .error ((ApiError.of .invalidParam "conversation_id must be a positive integer").withParam "conversation_id")

/-- A conversation of a user by its id. -/
def owned (w : World) (user id : Int) : Except ApiError Conversation := do
  match ← answered (w.ask (·.findConversation id user)) with
  | some c => return c
  | none => throw (.of .notFound "conversation not found")

/-- A page of the messages of a user's conversation. -/
def messages (sizes : Config.Paging) (w : World) (user : Int) (segment : String) (query : Bytes) : Except ApiError Value := do
  let id ← idOf segment
  let s ← Selection.read query sizes.messages sizes.maxMessages
  let c ← owned w user id
  let page ← answered (w.ask (·.listMessages id s.offset s.size))
  return .object ([("conversation", conversation c), ("messages", .array (page.items.map message))] ++ s.members page.total)

end InferenceGate.Listing
