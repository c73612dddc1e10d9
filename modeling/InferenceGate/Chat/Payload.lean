import InferenceGate.Json.Value
import InferenceGate.Text.Blank

/-!
# The body of a chat request

What the gateway reads of a completion request: its messages, each a role and a plain text, and the two private members
`new_chat` and `conversation_id`, which it takes out. `parseMessages` refuses the first message from the left that is not of
this shape and says which of its parts is at fault.
-/

namespace InferenceGate.Chat

open Json

/-- What is wrong with the body of a chat request. -/
inductive PayloadFault where
  | emptyMessages
  | messageNotObject
  | invalidRole
  | unsupportedContent
  | invalidNewChat
  | invalidConversationId
  deriving DecidableEq

/-- The text of a fault. -/
def PayloadFault.message : PayloadFault → String
  | .emptyMessages => "messages must be a non-empty array"
  | .messageNotObject => "every item in messages must be an object"
  | .invalidRole => "messages.role must be a non-empty string"
  | .unsupportedContent => "messages.content only supports plain text strings"
  | .invalidNewChat => "new_chat must be a boolean"
  | .invalidConversationId => "conversation_id must be a positive integer"

/-! ## Content -/

/-- The shapes of content a message may carry. -/
inductive ContentShape where
  | text | parts | object | unsupported
  deriving DecidableEq

/-- The shape of a content value. -/
def shapeOf : Value → ContentShape
  | .string _ => .text
  | .array _ => .parts
  | .object _ => .object
  | _ => .unsupported

/-- The text of a content part that is an object: its `text` when that is a string, else its `content`. -/
def partText? (ms : Members) : Option String :=
  ((ms.get? "text").bind Value.text?).or ((ms.get? "content").bind Value.text?)

mutual
/-- The bytes of all texts in a content value: of a string, of the items of an array at any depth, and of the one text of an
object. -/
def contentBytes : Value → Nat
  | .string s => s.utf8ByteSize
  | .array items => contentsBytes items
  | .object ms => ((partText? ms).map String.utf8ByteSize).getD 0
  | _ => 0

/-- The bytes of all texts in a list of content values. -/
def contentsBytes : List Value → Nat
  | [] => 0
  | v :: vs => contentBytes v + contentsBytes vs
end

/-! ## Messages -/

/-- A message of a turn: its normalized role, its text, and the object as it is forwarded and replayed. -/
structure Message where
  role : String
  content : String
  raw : Members

/-- A message of the system. -/
def Message.isSystem (m : Message) : Bool := m.role == "system"

/-- A message of the user. -/
def Message.isUser (m : Message) : Bool := m.role == "user"

/-- A role as the gateway keeps it: trimmed, with ASCII letters in lower case. -/
def normalizeRole (role : String) : String := Text.lowerAscii (Text.trim role)

/-- The normalized role of a message object, if it is a string that is not blank. -/
def roleOf? (ms : Members) : Option String :=
  (((Members.get? ms "role").bind Value.text?).map normalizeRole).filter fun role => !role.isEmpty

/-- One item of `messages`. -/
def parseMessage (item : Value) : Except PayloadFault Message :=
  match item with
  | .object ms =>
    match roleOf? ms with
    | none => .error .invalidRole
    | some role =>
      match Members.get? ms "content" with
      | some (.string content) => .ok { role, content, raw := Members.insert "role" (.string role) ms }
      | _ => .error .unsupportedContent
  | _ => .error .messageNotObject

/-- Items of `messages` in order, up to the first at fault. -/
def parseItems : List Value → Except PayloadFault (List Message)
  | [] => .ok []
  | item :: items =>
    match parseMessage item with
    | .error e => .error e
    | .ok m =>
      match parseItems items with
      | .error e => .error e
      | .ok ms => .ok (m :: ms)

/-- The messages of a payload: a non-empty array of message objects. -/
def parseMessages (payload : Members) : Except PayloadFault (List Message) :=
  match payload.get? "messages" with
  | some (.array (item :: items)) => parseItems (item :: items)
  | _ => .error .emptyMessages

/-! ## Private members -/

/-- What a request says about the conversation it belongs to. -/
structure TurnOptions where
  conversation : Option Int := none
  newChat : Bool := false
  deriving DecidableEq

/-- The turn continues the conversation named. -/
def TurnOptions.isContinuation (o : TurnOptions) : Bool := o.conversation.isSome && !o.newChat

/-- A flag: a boolean, or one of its usual spellings as a text. -/
def flag? : Value → Option Bool
  | .bool b => some b
  | .string s =>
    let t := Text.trim s
    if ["1", "t", "T", "true", "TRUE", "True"].contains t then some true
    else if ["0", "f", "F", "false", "FALSE", "False"].contains t then some false
    else none
  | _ => none

/-- A number as an id: a signed word, or a whole real number between the least signed word and `2 ^ 63`, capped at the greatest
signed word. -/
def wholeI64? (n : Number) : Option Int :=
  match n.i64? with
  | some i => some i
  | none =>
    let x := n.toReal
    if x.isWhole && minI64 ≤ x.truncate && x.truncate ≤ maxI64 + 1 then some (clampI64 x.truncate) else none

/-- A value as a signed word: a whole number, or the text of one with blanks around it. -/
def integer? : Value → Option Int
  | .number n => wholeI64? n
  | .string s => Text.i64? (Text.trim s)
  | _ => none

/-- The private members taken out of a payload. A payload at fault loses the members read up to the fault. -/
def takeOptions (payload : Members) : Except PayloadFault TurnOptions × Members :=
  let afterFlag := payload.erase "new_chat"
  match (payload.get? "new_chat").map flag? with
  | some none => (.error .invalidNewChat, afterFlag)
  | flag =>
    let newChat := (flag.bind id).getD false
    let rest := afterFlag.erase "conversation_id"
    match payload.get? "conversation_id" with
    | none => (.ok { newChat }, rest)
    | some raw =>
      match (integer? raw).filter (0 < ·) with
      | some n => (.ok { conversation := some n, newChat }, rest)
      | none => (.error .invalidConversationId, rest)

end InferenceGate.Chat
