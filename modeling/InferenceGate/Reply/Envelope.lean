import InferenceGate.Json.Reading
import InferenceGate.Reply.EventStream
import InferenceGate.Text.Blank

/-!
# Replies of the backend

A reply is one JSON document or a stream of events with a document each. A document that has the shape of an envelope is read
for the text of its choices, its model, its token counts and its error; of a stream, the texts of all its documents are joined
(`assistantText`), and the last document with counts is the one that counts (`usage`).
-/

namespace InferenceGate.Reply

open Json Document

/-- A choice of a reply: the content of its message and of its delta. -/
structure Choice where
  message : Option Value := none
  delta : Option Value := none

/-- The token counts of a reply as sent. -/
structure Counts where
  input : Option Value := none
  output : Option Value := none
  total : Option Value := none

/-- A document of a reply. -/
structure Envelope where
  model : Option Value := none
  choices : List Choice := []
  counts : Option Counts := none
  error : Option Value := none

/-- A message or delta: a record whose content may be any value. -/
def readPart? (t : Json.Tree) : Option (Option Value) :=
  (t.record? [{ name := "content" }]).bind fun r => optionalValue? r "content" (maxDepth - 4)

/-- A choice. -/
def readChoice? (t : Json.Tree) : Option Choice := do
  let r ← t.record? [{ name := "message" }, { name := "delta" }]
  let message ← r.optional? "message" readPart?
  let delta ← r.optional? "delta" readPart?
  return { message := message.join, delta := delta.join }

/-- The counts under either of their names. -/
def readCounts? (t : Json.Tree) : Option Counts := do
  let r ← t.record? [{ name := "prompt_tokens", aliases := ["input_tokens"] },
    { name := "completion_tokens", aliases := ["output_tokens"] }, { name := "total_tokens" }]
  let input ← optionalValue? r "prompt_tokens" (maxDepth - 2)
  let output ← optionalValue? r "completion_tokens" (maxDepth - 2)
  let total ← optionalValue? r "total_tokens" (maxDepth - 2)
  return { input, output, total }

/-- A document as an envelope. -/
def readEnvelope? (t : Json.Tree) : Option Envelope := do
  let r ← t.record? [{ name := "model" }, { name := "choices" }, { name := "usage" }, { name := "error" }]
  let model ← optionalValue? r "model" (maxDepth - 1)
  let choices ← r.optional? "choices" (Tree.listOf? readChoice?)
  let counts ← r.optional? "usage" readCounts?
  let error ← optionalValue? r "error" (maxDepth - 1)
  return { model, choices := choices.getD [], counts, error }

/-- The envelope that bytes spell. -/
def parseEnvelope? (bs : Bytes) : Option Envelope := (Json.read? bs).bind readEnvelope?

namespace Envelope

/-- The model named, if it is a text that is not blank. -/
def modelName? (e : Envelope) : Option String := (e.model.bind Value.text?).bind Text.trimmed?

/-- The error told: a text, or the message of an object, that is not empty. -/
def errorMessage? (e : Envelope) : Option String :=
  let told := match e.error with
    | some (.string s) => some s
    | some (.object ms) => (Members.get? ms "message").bind Value.text?
    | _ => none
  told.filter fun s => !s.isEmpty

/-- The text of a choice: of its message, then of its delta. -/
def choiceText (c : Choice) : String :=
  ((c.message.bind Value.text?).getD "") ++ ((c.delta.bind Value.text?).getD "")

/-- The text of all choices in order. -/
def text (e : Envelope) : String := String.join (e.choices.map choiceText)

end Envelope

/-- The envelopes among the events of a body. -/
def streamEnvelopes (body : Bytes) : List Envelope :=
  ((dataBlocks body).filter (· != doneMark)).filterMap parseEnvelope?

/-- The first model that an envelope names. -/
def firstModel? (es : List Envelope) : Option String := es.findSome? Envelope.modelName?

/-- The assistant's text in a body, and the model that it names: of the document if it has text, else of the events. -/
def assistantText (body : Bytes) : String × Option String :=
  let whole := parseEnvelope? body
  let text := (whole.map Envelope.text).getD ""
  let model := whole.bind Envelope.modelName?
  if !text.isEmpty then (text, model)
  else
    let events := streamEnvelopes body
    (String.join (events.map Envelope.text), (firstModel? events).or model)

/-! ## Token counts -/

/-- What a reply says of itself for the accounts. -/
structure Summary where
  input : Nat := 0
  output : Nat := 0
  total : Nat := 0
  model : Option String := none
  error : Option String := none
  deriving DecidableEq

/-- A number as a count: its whole part, at least zero and at most the greatest unsigned word. -/
def count? : Value → Option Nat
  | .number (.integer n) => some (clampU64 n)
  | .number (.real x) => some (clampU64 x.truncate)
  | _ => none

namespace Summary

/-- The model and the error of an envelope in place of earlier ones. -/
def withNames (s : Summary) (e : Envelope) : Summary :=
  { s with model := e.modelName?.or s.model, error := e.errorMessage?.or s.error }

/-- The counts of an envelope in place of earlier ones; the total is their sum where none is given. -/
def withCounts (s : Summary) (c : Counts) : Summary :=
  let input := c.input.bind count?
  let output := c.output.bind count?
  let total := match c.total.bind count?, input, output with
    | some t, _, _ => t
    | none, some i, some o => addCapped i o
    | none, _, _ => s.total
  { s with input := input.getD s.input, output := output.getD s.output, total }

end Summary

/-- Some counter is a number. -/
def Counts.hasCounter (c : Counts) : Bool :=
  (c.input.bind count?).isSome || (c.output.bind count?).isSome || (c.total.bind count?).isSome

/-- The summary with all that an envelope says. -/
def Summary.apply (s : Summary) (e : Envelope) : Summary :=
  match e.counts with
  | none => s.withNames e
  | some c => (s.withNames e).withCounts c

/-- Of the events of a stream, the last with counts, or the last if none has. -/
def decisive? (es : List Envelope) : Option Envelope :=
  (es.filter fun e => e.counts.isSome).getLast?.or (es.filter fun e => e.counts.isNone).getLast?

/-- What a body says for the accounts: the document alone if it holds a counter, else the decisive event over it. -/
def usage (body : Bytes) : Summary :=
  let whole := parseEnvelope? body
  let summary := (whole.map (({} : Summary).apply ·)).getD {}
  if (whole.bind Envelope.counts).any Counts.hasCounter then summary
  else ((decisive? (streamEnvelopes body)).map summary.apply).getD summary

end InferenceGate.Reply
