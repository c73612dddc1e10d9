import InferenceGate.Chat.Payload
import InferenceGate.Http.Api
import InferenceGate.Json.Reading
import InferenceGate.Store.Routine

/-!
# Turns of a conversation

A chat request is one turn. Preparing it finds or creates its conversation, puts the stored history before its messages and
stores what the user said; finishing it stores what the assistant replied. Both are routines of single steps
(`prepare`, `finish`), so that several may run side by side.
-/

namespace InferenceGate.Chat

open Json Store

/-- Why a turn cannot be prepared. -/
inductive TurnFault where
  | payload (f : PayloadFault)
  | continuationShape
  | conversationNotFound
  | store (f : Store.Fault)
  deriving DecidableEq

namespace TurnFault

/-- The text of a fault; a fault of the store has its own words unless a conversation is missing from it. -/
def message : TurnFault → String
  | .payload f => f.message
  | .continuationShape =>
    "a continued conversation accepts one user message, or one system message followed by one user message"
  | .conversationNotFound => "conversation not found"
  | .store (.conversationMissing id) => "conversation store error: conversation " ++ toString id ++ " not found"
  | .store _ => "conversation store error"

/-- What the client is told of a fault. -/
def apiError : TurnFault → Http.ApiError
  | .payload f => .of .invalidParam f.message
  | .continuationShape => .of .invalidParam continuationShape.message
  | .conversationNotFound => .of .notFound conversationNotFound.message
  | .store _ => .of .database "conversation store unavailable"

end TurnFault

/-! ## The messages of a turn -/

/-- The title of a conversation whose first turn has no text of the user. -/
def untitled : String := "New chat"

/-- The longest title. -/
def titleLength : Nat := 30

/-- The title of a conversation: the beginning of the first text of the user that is not blank. -/
def title (ms : List Message) : String :=
  match (ms.filter Message.isUser).findSome? fun m => Text.trimmed? m.content with
  | some text => Text.firstChars titleLength text
  | none => untitled

/-- The shape of a turn that continues a conversation: a message of the user, after at most one of the system. -/
def continues : List Message → Bool
  | [m] => m.isUser
  | [s, m] => s.isSystem && m.isUser
  | _ => false

/-- A message object of a role and a text. -/
def messageObject (role content : String) : Value := .object [("content", .string content), ("role", .string role)]

/-- A stored message as it is sent again: the object it came as, or one of its role and text. -/
def replay (m : Store.Message) : Value :=
  match (m.json.filter fun raw => !Text.isBlankText raw).bind parseText? with
  | some (.object ms) => .object ms
  | _ => messageObject m.role m.content

/-- The system message of a turn: the last there is. -/
def systemOf? (ms : List Message) : Option Message := ms.reverse.find? Message.isSystem

/-- The messages sent for a turn: the system message of the turn or else the stored one, the stored turns, and the messages of the
turn. -/
def merge (system : Option Store.Message) (history : List Store.Message) (current : List Message) : List Value :=
  let lead := match systemOf? current, system with
    | some m, _ => [Value.object m.raw]
    | none, some stored => [replay stored]
    | none, none => []
  lead ++ (history.filter fun m => !m.isSystem).map replay ++
    (current.filter fun m => !m.isSystem).map fun m => Value.object m.raw

/-! ## Preparing a turn -/

/-- A turn ready to be sent: the body, the conversation, whether it is new, and the model asked for. -/
structure Prepared where
  payload : Members
  conversation : Int
  isNew : Bool
  model : String

/-- A routine that may find a turn at fault. -/
abbrev TurnRoutine (α : Type) := ExceptT TurnFault Routine α

/-- A step of the store, whose fault is one of the turn. -/
def stored {α : Type} (r : Routine (Except Store.Fault α)) : TurnRoutine α :=
  ExceptT.mk (r.bind fun answer => .done (answer.mapError .store))

/-- A step that cannot fail. -/
def always {α : Type} (r : Routine α) : TurnRoutine α := ExceptT.lift r

/-- The model that a payload names, trimmed; none is the empty text. -/
def modelOf (payload : Members) : String := ((((payload.get? "model").bind Value.text?).map Text.trim)).getD ""

/-- A message of a turn as a row to be. -/
def newMessage (user conversation : Int) (model : String) (now : Int) (m : Message) : TurnRoutine NewMessage := do
  let id ← always Routine.nextId
  return { id, conversation, user, role := m.role, content := m.content, json := some (Value.object m.raw).render, model,
           createdAt := now }

/-- Messages as rows to be, with ids in their order. -/
def newMessages (user conversation : Int) (model : String) (now : Int) : List Message → TurnRoutine (List NewMessage)
  | [] => return []
  | m :: ms => do
    let row ← newMessage user conversation model now m
    let rows ← newMessages user conversation model now ms
    return row :: rows

/-- The system message of a turn written, if it has one. -/
def writeSystem : List NewMessage → TurnRoutine Unit
  | [] => return ()
  | m :: _ => do
    let _ ← stored (Routine.upsertSystem m)
    return ()

/-- What a turn says is stored: its system message in the place for it, and the messages of the user. All ids are drawn before
anything is written, that of the system message first. -/
def storeTurn (user conversation : Int) (model : String) (current : List Message) : TurnRoutine Unit := do
  let now ← always Routine.now
  let system ← newMessages user conversation model now (systemOf? current).toList
  let users ← newMessages user conversation model now (current.filter Message.isUser)
  writeSystem system
  stored (Routine.insertMessages users)
  stored (Routine.refresh conversation (some model) now)

/-- A turn in a new conversation. -/
def openConversation (user : Int) (model : String) (current : List Message) : TurnRoutine Int := do
  let id ← always Routine.nextId
  let now ← always Routine.now
  let c ← stored (Routine.createConversation { id, user, title := title current, model, createdAt := now })
  return c.id

/-- A turn that continues a conversation must be of its owner and of the right shape. -/
def checkContinuation (user conversation : Int) (current : List Message) : TurnRoutine Unit := do
  let found ← stored (Routine.findConversation conversation user)
  if found.isNone then throw .conversationNotFound
  if !continues current then throw .continuationShape

/-- The messages sent for a turn that continues a conversation. -/
def continued (maxHistory : Nat) (conversation : Int) (current : List Message) : TurnRoutine (List Value) := do
  let system ← stored (Routine.latestSystem conversation)
  let history ← stored (Routine.recentTurns conversation maxHistory)
  return merge system history current

/-- A turn prepared once its messages and options are read. -/
def prepareRead (maxHistory : Nat) (user : Int) (payload : Members) (model : String) (current : List Message)
    (options : TurnOptions) : TurnRoutine Prepared := do
  match options.conversation.filter fun _ => options.isContinuation with
  | some conversation =>
    checkContinuation user conversation current
    let messages ← continued maxHistory conversation current
    storeTurn user conversation model current
    return { payload := payload.insert "messages" (.array messages), conversation, isNew := false, model }
  | none =>
    let conversation ← openConversation user model current
    storeTurn user conversation model current
    let messages := current.map fun m => Value.object m.raw
    return { payload := payload.insert "messages" (.array messages), conversation, isNew := true, model }

/-- A turn prepared. Its messages are read first, then its options. -/
def prepare (maxHistory : Nat) (user : Int) (payload : Members) : TurnRoutine Prepared :=
  match parseMessages payload with
  | .error f => throw (.payload f)
  | .ok current =>
    match takeOptions payload with
    | (.error f, _) => throw (.payload f)
    | (.ok options, rest) => prepareRead maxHistory user rest (modelOf payload) current options

/-! ## Finishing a turn -/

/-- The reply of the assistant as a row to be. -/
def replyMessage (id user conversation : Int) (model text : String) (now : Int) : NewMessage where
  id := id
  conversation := conversation
  user := user
  role := "assistant"
  content := text
  json := some (messageObject "assistant" text).render
  model := model
  createdAt := now

/-- The reply of the assistant stored, unless it is blank; whether that went well. -/
def storeReply (conversation user : Int) (model : String) (now : Int) (text : Option String) :
    Routine (Except Store.Fault Unit) :=
  match text.filter fun t => !Text.isBlankText t with
  | none => return .ok ()
  | some t => do
    let id ← Routine.nextId
    Routine.insertMessages [replyMessage id user conversation model t now]

/-- A turn finished: the reply is stored and the figures of the conversation are brought up to date, also when the reply could not
be stored. -/
def finish (conversation user : Int) (model : String) (text : Option String) : TurnRoutine Unit := do
  let now ← always Routine.now
  let saved ← always (storeReply conversation user model now text)
  stored (Routine.refresh conversation (some model) now)
  stored (.done saved)

end InferenceGate.Chat
