import InferenceGate.Proofs.Json.Extent
import InferenceGate.Reply.Envelope

/-!
# A document is no stream

Every body is read twice, as a document and as a stream of events. A document has no line that is a data line, whatever its strings hold
and however it is laid out, so it has no events (`dataBlocks_of_read?`): a body that is a document is read as that document alone, for its
text and for the accounts (`document_alone`).
-/

namespace InferenceGate.Reply

open Json Document

namespace DocumentsAux

/-- A data line begins with its letter. -/
theorem head?_of_dataOf? {line data : Bytes} (h : dataOf? line = some data) : line.head? = some 0x64 := by
  unfold dataOf? at h
  cases hrest : Bytes.afterHead? (Bytes.ofText "data:") line with
  | none => simp [hrest] at h
  | some rest =>
    rw [Bytes.eq_append_of_afterHead? hrest]
    rfl

/-- Lines none of which is a data line make no event. -/
theorem blocksOf_eq_nil {ls : List Bytes} (h : ∀ line ∈ ls, dataOf? (Text.trimBytes line) = none) : blocksOf [] ls = [] := by
  induction ls with
  | nil => rfl
  | cons line ls ih =>
    have hline := h line List.mem_cons_self
    have hrest := ih fun l hl => h l (List.mem_cons_of_mem _ hl)
    rw [blocksOf]
    simp [hline, hrest]

end DocumentsAux

open DocumentsAux

/-- A document has no events: the letter that a data line begins with begins no token. -/
theorem dataBlocks_of_read? {body : Bytes} {t : Tree} (h : read? body = some t) : dataBlocks body = [] := by
  have hletter : ∀ b, Reader.start b 0x64 = none := fun b => rfl
  refine blocksOf_eq_nil fun line hline => ?_
  cases hdata : dataOf? (Text.trimBytes line) with
  | none => rfl
  | some data =>
    obtain ⟨b, hb⟩ := start_of_read? h hline (head?_of_dataOf? hdata)
    exact absurd (hletter b) hb

/-- A body that is one document holds no chunks of a stream. -/
theorem streamEnvelopes_of_read? {body : Bytes} {t : Tree} (h : read? body = some t) : streamEnvelopes body = [] := by
  unfold streamEnvelopes
  rw [dataBlocks_of_read? h]
  rfl

/-- A body that is a document of a reply has no events, and it is read as that document alone: the text and the model are those of the
document, and so is all that is said for the accounts, also where the document has no text or no counter. -/
theorem document_alone {body : Bytes} {e : Envelope} (h : parseEnvelope? body = some e) :
    dataBlocks body = [] ∧ assistantText body = (e.text, e.modelName?) ∧ usage body = ({} : Summary).apply e := by
  obtain ⟨t, hread, -⟩ := Option.bind_eq_some_iff.1 h
  have hevents := streamEnvelopes_of_read? hread
  refine ⟨dataBlocks_of_read? hread, ?_, ?_⟩
  · unfold assistantText
    rw [h, hevents]
    by_cases htext : e.text = ""
    · simp [htext, firstModel?]
    · simp [htext]
  · unfold usage
    rw [h, hevents]
    simp [decisive?]

/-- A document over several lines, one of which begins with a string that spells a data line: nothing is read but the document, which has
no text and no counter but names its model. -/
theorem document_alone_over_lines :
    ∃ body e, parseEnvelope? body = some e ∧
      body = Bytes.ofText ("\x7b\r\n  \"data: [DONE]\": [\n\"data: \x7b\x7d\", \"\\ndata: 1\"],\n" ++
        "\"choices\": [],\n\n\"usage\": \x7b\"total_tokens\": \"data:\"\x7d,\r\n\"model\":\n\" m \"\n\x7d\n") ∧
      dataBlocks body = [] ∧ assistantText body = ("", some "m") ∧ usage body = { model := some "m" } := by
  let e : Envelope := { model := some (.string " m "), counts := some { total := some (.string "data:") } }
  have hdoc : parseEnvelope? (Bytes.ofText ("\x7b\r\n  \"data: [DONE]\": [\n\"data: \x7b\x7d\", \"\\ndata: 1\"],\n" ++
      "\"choices\": [],\n\n\"usage\": \x7b\"total_tokens\": \"data:\"\x7d,\r\n\"model\":\n\" m \"\n\x7d\n")) = some e := rfl
  obtain ⟨hblocks, htext, husage⟩ := document_alone hdoc
  exact ⟨_, e, hdoc, rfl, hblocks, htext.trans (by decide +kernel), husage.trans (by decide +kernel)⟩

end InferenceGate.Reply
