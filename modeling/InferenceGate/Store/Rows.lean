import InferenceGate.Json.Value

/-!
# Rows of the store

What the store keeps: conversations, their messages, one usage row for each call, and the messages that users send each other.
Ids and times are signed words; a row is shown as a JSON object of its columns.
-/

namespace InferenceGate.Store

open Json (Value)

/-- Why the store refuses or fails. -/
inductive Fault where
  | duplicateId
  | sumOverflow
  | unreachable
  | conversationMissing (id : Int)
  deriving DecidableEq

/-! ## Conversations -/

/-- A conversation of a user. -/
structure Conversation where
  id : Int
  user : Int
  title : String
  model : String
  messageCount : Int
  preview : String
  lastMessageAt : Int
  createdAt : Int
  updatedAt : Int
  deriving DecidableEq

/-- A conversation to be created. -/
structure NewConversation where
  id : Int
  user : Int
  title : String
  model : String
  createdAt : Int
  deriving DecidableEq

/-- A new conversation without messages. -/
def NewConversation.row (c : NewConversation) : Conversation where
  id := c.id
  user := c.user
  title := c.title
  model := c.model
  messageCount := 0
  preview := ""
  lastMessageAt := c.createdAt
  createdAt := c.createdAt
  updatedAt := c.createdAt

/-- The columns of a conversation. -/
def Conversation.value (c : Conversation) : Value :=
  .object [("id", .ofInt c.id), ("user_id", .ofInt c.user), ("title", .string c.title), ("model", .string c.model),
    ("message_count", .ofInt c.messageCount), ("last_message_preview", .string c.preview),
    ("last_message_at_ms", .ofInt c.lastMessageAt), ("created_at_ms", .ofInt c.createdAt),
    ("updated_at_ms", .ofInt c.updatedAt)]

/-! ## Messages -/

/-- A message of a conversation, with the text of the object it came as. -/
structure Message where
  id : Int
  conversation : Int
  user : Int
  role : String
  content : String
  json : Option String
  model : String
  createdAt : Int
  updatedAt : Int
  deriving DecidableEq

/-- A message to be inserted. -/
structure NewMessage where
  id : Int
  conversation : Int
  user : Int
  role : String
  content : String
  json : Option String
  model : String
  createdAt : Int
  deriving DecidableEq

/-- The row of a new message. -/
def NewMessage.row (m : NewMessage) : Message where
  id := m.id
  conversation := m.conversation
  user := m.user
  role := m.role
  content := m.content
  json := m.json
  model := m.model
  createdAt := m.createdAt
  updatedAt := m.createdAt

/-- A message of the system. -/
def Message.isSystem (m : Message) : Bool := m.role == "system"

/-- The columns of a message. -/
def Message.value (m : Message) : Value :=
  .object [("id", .ofInt m.id), ("conversation_id", .ofInt m.conversation), ("user_id", .ofInt m.user),
    ("role", .string m.role), ("content", .string m.content), ("message_json", .ofText? m.json), ("model", .string m.model),
    ("created_at_ms", .ofInt m.createdAt), ("updated_at_ms", .ofInt m.updatedAt)]

/-! ## Usage -/

/-- What one call used. -/
structure Usage where
  id : Int
  user : Int
  endpoint : String
  method : String
  status : Nat
  requestSize : Nat
  responseSize : Nat
  latency : Nat
  model : String
  inputTokens : Nat
  outputTokens : Nat
  totalTokens : Nat
  error : Option String
  createdAt : Int
  deriving DecidableEq

/-- A usage row as kept: sizes, times and counts are at most the greatest signed word. -/
def Usage.capped (u : Usage) : Usage :=
  let cap (n : Nat) := min n maxI64.toNat
  { u with
    requestSize := cap u.requestSize
    responseSize := cap u.responseSize
    latency := cap u.latency
    inputTokens := cap u.inputTokens
    outputTokens := cap u.outputTokens
    totalTokens := cap u.totalTokens }

/-- The columns of a usage row. -/
def Usage.value (u : Usage) : Value :=
  .object [("id", .ofInt u.id), ("user_id", .ofInt u.user), ("endpoint", .string u.endpoint), ("method", .string u.method),
    ("status", .ofNat u.status), ("request_size", .ofNat u.requestSize), ("response_size", .ofNat u.responseSize),
    ("latency_ms", .ofNat u.latency), ("model", .string u.model), ("input_tokens", .ofNat u.inputTokens),
    ("output_tokens", .ofNat u.outputTokens), ("total_tokens", .ofNat u.totalTokens), ("error_message", .ofText? u.error),
    ("created_at_ms", .ofInt u.createdAt)]

/-- Totals over usage rows. -/
structure Totals where
  requests : Nat
  successes : Nat
  failures : Nat
  tokens : Nat
  averageLatency : Binary64
  deriving DecidableEq

/-- The totals as shown. -/
def Totals.members (t : Totals) : List (String × Value) :=
  [("total_requests", .ofNat t.requests), ("success_count", .ofNat t.successes), ("fail_count", .ofNat t.failures),
    ("total_tokens", .ofNat t.tokens), ("avg_latency_ms", .number (.real t.averageLatency))]

/-- What the calls of one endpoint used. -/
structure EndpointTotals where
  endpoint : String
  requests : Nat
  tokens : Nat
  averageLatency : Binary64
  deriving DecidableEq

/-- The totals of an endpoint as shown. -/
def EndpointTotals.value (t : EndpointTotals) : Value :=
  .object [("endpoint", .string t.endpoint), ("count", .ofNat t.requests), ("total_tokens", .ofNat t.tokens),
    ("avg_latency_ms", .number (.real t.averageLatency))]

/-! ## Messages between users -/

/-- A message that one user sent another. -/
structure Chat where
  id : Int
  sender : Int
  recipient : Int
  type : Option Int
  media : Option Int
  content : String
  createdAt : Int
  deriving DecidableEq

/-- The columns of a message between users. -/
def Chat.value (c : Chat) : Value :=
  .object [("id", .ofInt c.id), ("from_id", .ofInt c.sender), ("to_id", .ofInt c.recipient),
    ("message_type", .ofInt? c.type), ("message_media", .ofInt? c.media), ("content", .string c.content),
    ("created_at_ms", .ofInt c.createdAt)]

/-! ## The tables -/

/-- The tables of the store, each row where it was inserted. -/
structure Tables where
  conversations : List Conversation := []
  messages : List Message := []
  usage : List Usage := []
  chats : List Chat := []

/-- Some rows of a listing and the number of all of them. -/
structure Page (α : Type) where
  items : List α
  total : Nat

/-- The rows of a listing after an offset, at most a limit of them. Both are asked for as signed words, capped at the greatest. -/
def Page.of {α : Type} (rows : List α) (offset limit : Nat) : Page α :=
  ⟨(rows.drop (min offset maxI64.toNat)).take (min limit maxI64.toNat), rows.length⟩

end InferenceGate.Store
