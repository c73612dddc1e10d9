import InferenceGate.Proofs.Json.RoundTrip
import InferenceGate.Proofs.Reply.Events
import InferenceGate.Reply.Envelope

/-!
# A streamed reply and a plain one

A reply may come as one document or in chunks, each an event of a stream among others that say nothing. The text read of a stream is
the contents of all its chunks in order, and the model is the first that a chunk names; one document with that text and that model
is read as the same reply.
-/

namespace InferenceGate.Reply

open Json Document

/-- The contents of the messages and deltas of a document's choices that are texts, in order. -/
def Envelope.contents (e : Envelope) : List String :=
  e.choices.flatMap fun c => [c.message, c.delta].filterMap fun content => content.bind Value.text?

/-- The text of chunks: all their contents in order. -/
def wholeText (chunks : List Envelope) : String := String.join (chunks.flatMap Envelope.contents)

/-- The first model that a chunk names and that is not blank, trimmed. -/
def firstNamed? (chunks : List Envelope) : Option String :=
  ((chunks.filterMap fun e => e.model.bind Value.text?).map Text.trim).find? fun name => name ≠ ""

/-- An event says nothing: it has no payload, or the one that ends a stream, or one that is no document of a reply. -/
def Event.Silent (e : Event) : Prop := ∀ payload, e.payload? = some payload → payload = doneMark ∨ parseEnvelope? payload = none

/-- Events carry chunks in order: each chunk is a document on the one data line of its event, and all other events are silent. -/
inductive Streams : List Envelope → List Event → Prop where
  | nil : Streams [] []
  | chunk {chunks : List Envelope} {events : List Event} {e : Event} {doc : Bytes} {chunk : Envelope} :
      e.pieces = [doc] → parseEnvelope? doc = some chunk → Streams chunks events → Streams (chunk :: chunks) (e :: events)
  | silent {chunks : List Envelope} {events : List Event} {e : Event} :
      e.Silent → Streams chunks events → Streams chunks (e :: events)

/-- A document carries a text and a model: the text is the content of the message of its one choice. -/
def Carries (doc : Bytes) (text : String) (model : Option String) : Prop :=
  ∃ e, parseEnvelope? doc = some e ∧ e.choices = [{ message := some (.string text) }] ∧ e.model = model.map .string

/-- The plain document of a reply. -/
def plainReply (text : String) (model : Option String) : Value :=
  .object (("choices", .array [.object [("message", .object [("content", .string text)])]]) ::
    (model.map fun name => ("model", .string name)).toList)

namespace StreamedAux

open Reader

variable {chunks : List Envelope} {events : List Event}

/-! ## A stream is no document -/

/-- What is cut within the end of a line is read as what is left of the bytes after it. -/
theorem feed_closing_take (e : LineEnd) (rest : Bytes) (k : Nat) : ∃ j, feed {} ((e.bytes ++ rest).take k) = feed {} (rest.take j) := by
  match e, k with
  | .feed, 0 | .returnFeed, 0 | .returnFeed, 1 => exact ⟨0, rfl⟩
  | .feed, k + 1 => exact ⟨k, rfl⟩
  | .returnFeed, k + 2 => exact ⟨k, rfl⟩

/-- No document begins with the letter of a line. -/
theorem eq_cons_of_line (l : Line) : ∃ b bs, l.text = b :: bs ∧ ∀ rest, feed {} (b :: rest) = none := by
  cases l with
  | aside head more known oneLine =>
    simp only [asideHeads, List.mem_cons, List.not_mem_nil, or_false] at known
    rcases known with rfl | rfl | rfl <;> exact ⟨_, _, rfl, fun _ => rfl⟩
  | data before piece after left isPiece right => exact ⟨_, _, rfl, fun _ => rfl⟩

/-- Before the first line that is not blank there is nothing of a document, and no document begins like that line, so that no beginning of
a stream is one. -/
theorem feed_take (events : List Event) (k : Nat) :
    feed {} ((streamBytes events).take k) = some {} ∨ feed {} ((streamBytes events).take k) = none := by
  induction events generalizing k with
  | nil =>
    rw [streamBytes, List.flatMap_nil, List.take_nil]
    exact .inl rfl
  | cons e events ih =>
    have hcons : streamBytes (e :: events) = e.bytes ++ streamBytes events := List.flatMap_cons
    rw [hcons]
    unfold Event.bytes
    cases e.lines with
    | nil =>
      obtain ⟨j, hj⟩ := feed_closing_take e.closing (streamBytes events) k
      rw [List.flatMap_nil, List.nil_append, hj]
      exact ih j
    | cons l ls =>
      obtain ⟨b, bs, hl, hnone⟩ := eq_cons_of_line l.1
      rw [List.flatMap_cons, List.append_assoc, List.append_assoc, List.append_assoc, hl]
      cases k with
      | zero => exact .inl rfl
      | succ k => exact .inr (hnone _)

/-- The bytes of events, wherever they are cut, are no document. -/
theorem parseEnvelope?_take (events : List Event) (k : Nat) : parseEnvelope? ((streamBytes events).take k) = none := by
  unfold parseEnvelope? read?
  rcases feed_take events k with h | h <;> rw [h] <;> rfl

theorem parseEnvelope?_streamBytes (events : List Event) : parseEnvelope? (streamBytes events) = none := by
  have h := parseEnvelope?_take events (streamBytes events).length
  rwa [List.take_length] at h

/-! ## The chunks of a stream -/

theorem parseEnvelope?_doneMark : parseEnvelope? doneMark = none := rfl

/-- The mark at the end of a stream is passed over like any payload that is no document. -/
theorem streamEnvelopes_eq (body : Bytes) : streamEnvelopes body = (dataBlocks body).filterMap parseEnvelope? := by
  unfold streamEnvelopes
  rw [List.filterMap_filter]
  refine congrArg (List.filterMap · _) (funext fun block => ?_)
  by_cases h : block = doneMark
  · rw [h]
    rfl
  · simp [h]

/-- What is read of the events is the chunks. The mark at the end of a stream is no document, so no chunk is taken for it. -/
theorem streamEnvelopes_of_streams (h : Streams chunks events) : streamEnvelopes (streamBytes events) = chunks := by
  unfold streamEnvelopes
  rw [dataBlocks_streamBytes]
  induction h with
  | nil => rfl
  | @chunk chunks events e doc chunk hp hd _ ih =>
    have hpayload : e.payload? = some doc := by
      unfold Event.payload? payloadOf
      rw [hp]
      simp
    have hne : doc ≠ doneMark := by
      rintro rfl
      rw [parseEnvelope?_doneMark] at hd
      exact nomatch hd
    rw [List.filterMap_cons_some hpayload, List.filter_cons, if_pos (bne_iff_ne.2 hne), List.filterMap_cons_some hd, ih]
  | @silent chunks events e hs _ ih =>
    cases hpayload : e.payload? with
    | none => rw [List.filterMap_cons_none hpayload, ih]
    | some payload =>
      rw [List.filterMap_cons_some hpayload, List.filter_cons]
      rcases hs payload hpayload with rfl | hnone
      · exact ih
      · split
        · rw [List.filterMap_cons_none hnone, ih]
        · exact ih

/-! ## Texts and models -/

theorem join_flatMap {α : Type} (f : α → List String) (l : List α) :
    String.join (l.flatMap f) = String.join (l.map fun x => String.join (f x)) := by
  induction l with
  | nil => rfl
  | cons x l ih => rw [List.flatMap_cons, String.join_append, ih, List.map_cons, String.join_cons]

/-- The text of a choice is that of its message and then that of its delta. -/
theorem choiceText_eq (c : Choice) :
    Envelope.choiceText c = String.join ([c.message, c.delta].filterMap fun content => content.bind Value.text?) := by
  unfold Envelope.choiceText
  cases hm : c.message.bind Value.text? <;> cases hd : c.delta.bind Value.text? <;> simp [hm, hd, String.join_cons]

/-- The texts of the chunks are their contents in order. -/
theorem wholeText_eq (chunks : List Envelope) : String.join (chunks.map Envelope.text) = wholeText chunks := by
  unfold wholeText
  rw [join_flatMap]
  refine congrArg String.join (List.map_congr_left fun e _ => ?_)
  unfold Envelope.text Envelope.contents
  rw [join_flatMap]
  exact congrArg String.join (List.map_congr_left fun c _ => choiceText_eq c)

/-- The first model among the chunks is the first of their names that is not blank. -/
theorem firstModel?_eq (chunks : List Envelope) : firstModel? chunks = firstNamed? chunks := by
  unfold firstModel? firstNamed?
  induction chunks with
  | nil => rfl
  | cons e chunks ih =>
    unfold Envelope.modelName?
    simp only [List.findSome?_cons, List.filterMap_cons]
    cases e.model.bind Value.text? with
    | none => exact ih
    | some name =>
      rw [List.map_cons, List.find?_cons, Option.bind_some]
      unfold Text.trimmed?
      by_cases h : Text.trim name = ""
      · simp only [h]
        exact ih
      · simp [h]

/-! ## One document -/

/-- A document that carries some text is read as that text, and its events are not looked for. -/
theorem assistantText_of_carries {doc : Bytes} {text : String} {model : Option String} (h : Carries doc text model) (ht : text ≠ "") :
    assistantText doc = (text, model.bind Text.trimmed?) := by
  obtain ⟨e, hdoc, hchoices, hmodel⟩ := h
  have htext : e.text = text := by
    unfold Envelope.text
    rw [hchoices]
    simp [Envelope.choiceText, Value.text?]
  have hname : e.modelName? = model.bind Text.trimmed? := by
    unfold Envelope.modelName?
    rw [hmodel]
    cases model <;> rfl
  unfold assistantText
  simp [hdoc, htext, hname, ht]

theorem legible_member {v : Value} (name : String) (h : Legible v) : Legible (.object [(name, v)]) := by
  refine legible_object fun m hm => ?_
  obtain rfl := List.mem_singleton.1 hm
  exact h

/-- The plain document is read back as what it was made of. -/
theorem carries_plainReply (text : String) (model : Option String) :
    Carries (Bytes.ofText (plainReply text model).render) text model := by
  have hchoice : Legible (.object [("message", .object [("content", .string text)])]) :=
    legible_member _ (legible_member _ (legible_string text))
  have hmembers : ∀ m ∈ ("choices", Value.array [.object [("message", .object [("content", .string text)])]]) ::
      (model.map fun name => ("model", Value.string name)).toList, Legible m.2 := by
    intro m hm
    rcases List.mem_cons.1 hm with rfl | hm
    · refine legible_array fun v hv => ?_
      obtain rfl := List.mem_singleton.1 hv
      exact hchoice
    · obtain ⟨name, -, rfl⟩ := Option.map_eq_some_iff.1 (Option.mem_toList.1 hm)
      exact legible_string name
  unfold Carries plainReply parseEnvelope?
  rw [read?_render_object hmembers]
  cases model <;> exact ⟨_, rfl, rfl, rfl⟩

/-- The first model named is trimmed already. -/
theorem trimmed?_firstNamed? (chunks : List Envelope) : (firstNamed? chunks).bind Text.trimmed? = firstNamed? chunks := by
  rw [← firstModel?_eq]
  unfold firstModel?
  cases h : chunks.findSome? Envelope.modelName? with
  | none => rfl
  | some name =>
    obtain ⟨e, -, he⟩ := List.exists_of_findSome?_eq_some h
    unfold Envelope.modelName? at he
    obtain ⟨s, -, hs⟩ := Option.bind_eq_some_iff.1 he
    rw [Option.bind_some]
    exact Text.trimmed?_of_trimmed? hs

end StreamedAux

open StreamedAux

/-- A streamed reply is read as the contents of all its chunks and the first model that one names, whatever stands between the chunks.
When that is some text, every document that carries it with that model is read as the same reply, and the plain one carries it. -/
theorem streamed_agrees_plain {chunks : List Envelope} {events : List Event} (h : Streams chunks events) :
    assistantText (streamBytes events) = (wholeText chunks, firstNamed? chunks) ∧
      (wholeText chunks ≠ "" → ∀ doc, Carries doc (wholeText chunks) (firstNamed? chunks) →
        assistantText doc = assistantText (streamBytes events)) ∧
      Carries (Bytes.ofText (plainReply (wholeText chunks) (firstNamed? chunks)).render) (wholeText chunks) (firstNamed? chunks) := by
  have hstream : assistantText (streamBytes events) = (wholeText chunks, firstNamed? chunks) := by
    unfold assistantText
    rw [parseEnvelope?_streamBytes, streamEnvelopes_of_streams h]
    show (String.join (chunks.map Envelope.text), (firstModel? chunks).or none) = _
    rw [wholeText_eq, firstModel?_eq, Option.or_none]
  refine ⟨hstream, fun ht doc hdoc => ?_, carries_plainReply _ _⟩
  rw [hstream, assistantText_of_carries hdoc ht, trimmed?_firstNamed?]

/-- A comment, a chunk after the name of its event, two lines that are no document together, a chunk between blanks, and the end. -/
theorem streamed_agrees_plain_two_chunks :
    ∃ (chunks : List Envelope) (events : List Event), Streams chunks events ∧
      streamBytes events = Bytes.ofText (": hello\n\n" ++
        "event: chunk\r\ndata: \x7b\"model\":\" m \",\"choices\":[\x7b\"delta\":\x7b\"content\":\"a\\n\"\x7d\x7d]\x7d\r\n\r\n" ++
        "data: no\ndata: document\n\n" ++
        "data:\t\x7b\"choices\":[\x7b\"message\":\x7b\"content\":\"你\"\x7d\x7d]\x7d \nid: 2\n\n" ++ "data: [DONE]\r\n\r\n") ∧
      assistantText (streamBytes events) = ("a\n你", some "m") := by
  let space : Bytes := [0x20]
  let first := Bytes.ofText "\x7b\"model\":\" m \",\"choices\":[\x7b\"delta\":\x7b\"content\":\"a\\n\"\x7d\x7d]\x7d"
  let second := Bytes.ofText "\x7b\"choices\":[\x7b\"message\":\x7b\"content\":\"你\"\x7d\x7d]\x7d"
  let events : List Event := [
    ⟨[(.aside (Bytes.ofText ":") (Bytes.ofText " hello") (by decide) (by decide), .feed)], .feed⟩,
    ⟨[(.aside (Bytes.ofText "event:") (Bytes.ofText " chunk") (by decide) (by decide), .returnFeed),
      (.data space first [] (by decide) ⟨by decide, ⟨_, rfl, rfl⟩, ⟨_, rfl, rfl⟩⟩ (by decide), .returnFeed)], .returnFeed⟩,
    ⟨[(.data space (Bytes.ofText "no") [] (by decide) ⟨by decide, ⟨_, rfl, rfl⟩, ⟨_, rfl, rfl⟩⟩ (by decide), .feed),
      (.data space (Bytes.ofText "document") [] (by decide) ⟨by decide, ⟨_, rfl, rfl⟩, ⟨_, rfl, rfl⟩⟩ (by decide), .feed)],
      .feed⟩,
    ⟨[(.data [0x09] second space (by decide) ⟨by decide, ⟨_, rfl, rfl⟩, ⟨_, rfl, rfl⟩⟩ (by decide), .feed),
      (.aside (Bytes.ofText "id:") (Bytes.ofText " 2") (by decide) (by decide), .feed)], .feed⟩,
    ⟨[(.data space doneMark [] (by decide) ⟨by decide, ⟨_, rfl, rfl⟩, ⟨_, rfl, rfl⟩⟩ (by decide), .returnFeed)],
      .returnFeed⟩]
  have hstreams : Streams [{ model := some (.string " m "), choices := [{ delta := some (.string "a\n") }] },
      { choices := [{ message := some (.string "你") }] }] events :=
    .silent (fun _ h => nomatch h) <| .chunk rfl rfl <| .silent (fun _ h => .inr (Option.some.inj h ▸ rfl)) <| .chunk rfl rfl <|
      .silent (fun _ h => .inl (Option.some.inj h).symm) .nil
  exact ⟨_, events, hstreams, by decide +kernel, (streamed_agrees_plain hstreams).1.trans (by decide +kernel)⟩

end InferenceGate.Reply
