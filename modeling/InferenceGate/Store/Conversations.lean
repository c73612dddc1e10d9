import InferenceGate.Store.Rows
import InferenceGate.Text.Blank

/-!
# Conversations and their messages

Each operation is one indivisible statement on the tables: it answers and gives the tables after it, or it fails and the tables
are as before. Messages are ordered by time and then by id, newest and oldest in this sense; the system message of a
conversation stands apart from the turns and leads its listing.
-/

namespace InferenceGate.Store

/-- The first `n` characters of a message stand for it in a listing. -/
def previewLength : Nat := 120

/-- The earlier time comes first; of one time, the lesser id. -/
def Message.before (a b : Message) : Bool := a.createdAt < b.createdAt || (a.createdAt == b.createdAt && a.id ≤ b.id)

/-- The later time comes first; of one time, the greater id. -/
def Message.newerFirst (a b : Message) : Bool := b.before a

/-- The order of a listing of messages: those of the system lead. -/
def Message.listedBefore (a b : Message) : Bool :=
  if a.isSystem == b.isSystem then a.before b else a.isSystem

/-- The order in which messages may stand for their conversation: those of the system come last, and otherwise the newer first. -/
def Message.shownBefore (a b : Message) : Bool :=
  if a.isSystem == b.isSystem then a.newerFirst b else b.isSystem

/-- The order of a listing of conversations: the later last message comes first; of one time, the greater id. -/
def Conversation.listedBefore (a b : Conversation) : Bool :=
  b.lastMessageAt < a.lastMessageAt || (a.lastMessageAt == b.lastMessageAt && b.id ≤ a.id)

namespace Tables

/-- The messages of a conversation. -/
def messagesOf (s : Tables) (conversation : Int) : List Message := s.messages.filter (·.conversation == conversation)

/-- The system messages of a conversation. -/
def systemOf (s : Tables) (conversation : Int) : List Message := (s.messagesOf conversation).filter Message.isSystem

/-- The turns of a conversation: its messages other than the system's. -/
def turnsOf (s : Tables) (conversation : Int) : List Message := (s.messagesOf conversation).filter fun m => !m.isSystem

/-- The newest of some messages. -/
def newest? (ms : List Message) : Option Message := (ms.mergeSort Message.newerFirst).head?

/-- A conversation created. -/
def createConversation (s : Tables) (c : NewConversation) : Except Fault (Conversation × Tables) :=
  if s.conversations.any (·.id == c.id) then .error .duplicateId
  else .ok (c.row, { s with conversations := s.conversations ++ [c.row] })

/-- A conversation by its id, for its owner alone. -/
def findConversation (s : Tables) (id user : Int) : Option Conversation :=
  s.conversations.find? fun c => c.id == id && c.user == user

/-- A user's conversations in the order of the listing. -/
def conversationsOf (s : Tables) (user : Int) : List Conversation :=
  (s.conversations.filter (·.user == user)).mergeSort Conversation.listedBefore

/-- A page of a user's conversations. -/
def listConversations (s : Tables) (user : Int) (offset limit : Nat) : Page Conversation :=
  .of (s.conversationsOf user) offset limit

/-- The messages of a conversation in the order of the listing. -/
def listing (s : Tables) (conversation : Int) : List Message :=
  (s.messagesOf conversation).mergeSort Message.listedBefore

/-- A page of the messages of a conversation. -/
def listMessages (s : Tables) (conversation : Int) (offset limit : Nat) : Page Message :=
  .of (s.listing conversation) offset limit

/-- One message inserted. -/
def insertMessage (s : Tables) (m : NewMessage) : Except Fault Tables :=
  if s.messages.any (·.id == m.id) then .error .duplicateId else .ok { s with messages := s.messages ++ [m.row] }

/-- Messages inserted, all or none. -/
def insertMessages (s : Tables) : List NewMessage → Except Fault Tables
  | [] => .ok s
  | m :: ms =>
    match s.insertMessage m with
    | .ok s => s.insertMessages ms
    | .error f => .error f

/-- The newest system message of a conversation. -/
def latestSystem (s : Tables) (conversation : Int) : Option Message := newest? (s.systemOf conversation)

/-- A system message with the text of another written over its own. -/
def Message.overwritten (m : NewMessage) (row : Message) : Message :=
  { row with content := m.content, json := m.json, model := m.model, user := m.user, updatedAt := m.createdAt }

/-- The one system message of a conversation written: over the newest there is, the others going, or as a new one. The id is that
of the message kept. -/
def upsertSystem (s : Tables) (m : NewMessage) : Except Fault (Int × Tables) :=
  match s.latestSystem m.conversation with
  | none => (s.insertMessage m).map fun s => (m.id, s)
  | some kept =>
    let others := s.messages.filter fun r => r.id == kept.id || !(r.conversation == m.conversation && r.isSystem)
    let rows := others.map fun r => if r.id == kept.id then Message.overwritten m r else r
    .ok (kept.id, { s with messages := rows })

/-- The newest turns of a conversation, at most a limit of them, oldest first. -/
def recentTurns (s : Tables) (conversation : Int) (limit : Nat) : List Message :=
  (((s.turnsOf conversation).mergeSort Message.newerFirst).take limit).reverse

/-- The message that stands for a conversation in a listing: its newest turn, or its system message where it has no turn. -/
def representative? (s : Tables) (conversation : Int) : Option Message :=
  ((s.messagesOf conversation).mergeSort Message.shownBefore).head?

/-- A conversation with the number of its messages and what its listing shows of them; a blank model leaves the one it has. -/
def refreshed (s : Tables) (model : Option String) (now : Int) (c : Conversation) : Conversation :=
  let shown := match s.representative? c.id with
    | some m => (Text.firstChars previewLength (Text.trim m.content), m.createdAt)
    | none => (c.preview, c.lastMessageAt)
  { c with
    messageCount := (s.messagesOf c.id).length
    updatedAt := now
    preview := shown.1
    lastMessageAt := shown.2
    model := (model.bind Text.trimmed?).getD c.model }

/-- The figures of a conversation brought up to date with its messages. -/
def refresh (s : Tables) (id : Int) (model : Option String) (now : Int) : Except Fault Tables :=
  if s.conversations.any (·.id == id) then
    .ok { s with conversations := s.conversations.map fun c => if c.id == id then s.refreshed model now c else c }
  else .error (.conversationMissing id)

end Tables

end InferenceGate.Store
