import InferenceGate.Chat.Payload
import InferenceGate.Decimal.Reading
import InferenceGate.Total

/-!
# Estimated tokens

How many tokens a request is charged for before the backend has counted: a quarter of the bytes of its messages, rounded up,
and the reply it asks for.
-/

namespace InferenceGate.Chat

open Json

/-- The bytes of the role and the content of an item of `messages`; an item that is no object has none. -/
def itemBytes : Value → Nat
  | .object ms =>
    ((Members.get? ms "role").bind Value.text?).elim 0 String.utf8ByteSize + ((Members.get? ms "content").elim 0 contentBytes)
  | _ => 0

/-- The bytes of all messages. -/
def messageBytes (payload : Members) : Nat :=
  match payload.get? "messages" with
  | some (.array items) => total (items.map itemBytes)
  | _ => 0

/-- The estimate of the prompt: four bytes to a token. -/
def promptTokens (payload : Members) : Nat := (messageBytes payload + 3) / 4

/-- The size of a reply where neither request nor configuration names one. -/
def usualReply : Nat := 256

/-- The signed word that a `max_tokens` value names, its fraction cut and its size capped. -/
def replyWord? : Value → Option Int
  | .number n =>
    match n.i64? with
    | some i => some i
    | none => some (clampI64 n.toReal.truncate)
  | .string s =>
    let t := Text.trim s
    match Text.i64? t with
    | some i => some i
    | none => (Binary64.nearest? t).map fun x => clampI64 x.truncate
  | _ => none

/-- The size of the reply asked for, or a fallback where none is named or it is negative. -/
def maxTokens (payload : Members) (fallback : Nat) : Nat :=
  let fallback := if fallback == 0 then usualReply else fallback
  match (payload.get? "max_tokens").bind replyWord? with
  | some n => if 0 ≤ n then n.toNat else fallback
  | none => fallback

end InferenceGate.Chat
