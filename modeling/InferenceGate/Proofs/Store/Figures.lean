import InferenceGate.Proofs.Store.Effects

/-!
# Figures that agree with the messages

The figures of a conversation are accurate when its count is that of its messages and its listing shows the message that stands for
it: the newest turn, or the system message where there is no turn. Bringing them up to date makes them so (`accurate_refreshed`),
and they stay so while the messages of the conversation do.
-/

namespace InferenceGate.Store

/-- A message of some that none of them is newer than: the latest time, and of one time the greatest id. -/
def IsNewest (ms : List Message) (m : Message) : Prop :=
  m ∈ ms ∧ ∀ r ∈ ms, r.createdAt < m.createdAt ∨ (r.createdAt = m.createdAt ∧ r.id ≤ m.id)

namespace Tables

/-- The message that stands for a conversation: the newest turn, or the newest system message where there is no turn. -/
def StandsFor (s : Tables) (conversation : Int) (m : Message) : Prop :=
  IsNewest (s.turnsOf conversation) m ∨ (s.turnsOf conversation = [] ∧ IsNewest (s.systemOf conversation) m)

/-- The figures of a conversation agree with its messages. -/
structure Accurate (s : Tables) (c : Conversation) : Prop where
  count : c.messageCount = (s.messagesOf c.id).length
  shown : s.messagesOf c.id ≠ [] → ∃ m, s.StandsFor c.id m ∧
    c.preview = Text.firstChars previewLength (Text.trim m.content) ∧ c.lastMessageAt = m.createdAt

/-- No conversation has more than one system message. -/
def OneSystem (s : Tables) : Prop := ∀ conversation, (s.systemOf conversation).length ≤ 1

section Figures

open OrderAux

variable {s s' : Tables} {c : Conversation}

/-- The message that a listing shows stands for its conversation. -/
theorem standsFor_of_representative? {id : Int} {m : Message} (h : s.representative? id = some m) : s.StandsFor id m := by
  unfold representative? at h
  rw [shownBefore_eq] at h
  obtain ⟨hm, hfirst⟩ := first_of_mergeSort (leading_trans newerFirst_trans) (leading_total newerFirst_total) h
  have hsame : ∀ r ∈ s.messagesOf id, r.isSystem = m.isSystem →
      r.createdAt < m.createdAt ∨ (r.createdAt = m.createdAt ∧ r.id ≤ m.id) := by
    intro r hr he
    have hle := hfirst r hr
    rw [leading_of_eq (by rw [he])] at hle
    exact before_iff.1 hle
  cases hsys : m.isSystem with
  | false =>
    refine .inl ⟨List.mem_filter.2 ⟨hm, by simp [hsys]⟩, fun r hr => ?_⟩
    obtain ⟨hr, hturn⟩ := List.mem_filter.1 hr
    exact hsame r hr (by rw [hsys]; simpa using hturn)
  | true =>
    refine .inr ⟨List.filter_eq_nil_iff.2 fun r hr hturn => ?_, List.mem_filter.2 ⟨hm, hsys⟩, fun r hr => ?_⟩
    · have hle := hfirst r hr
      simp only [Bool.not_eq_true'] at hturn
      simp [leading, hsys, hturn] at hle
    · obtain ⟨hr, hrsys⟩ := List.mem_filter.1 hr
      exact hsame r hr (by rw [hsys, hrsys])

/-- A conversation with messages has one that stands for it. -/
theorem exists_representative? {id : Int} (h : s.messagesOf id ≠ []) : ∃ m, s.representative? id = some m := by
  cases hr : s.representative? id with
  | some m => exact ⟨m, rfl⟩
  | none =>
    unfold representative? at hr
    rw [List.head?_eq_none_iff, ← List.length_eq_zero_iff, List.length_mergeSort, List.length_eq_zero_iff] at hr
    exact absurd hr h

/-- Figures brought up to date are accurate. -/
theorem accurate_refreshed (s : Tables) (model : Option String) (now : Int) (c : Conversation) :
    s.Accurate (s.refreshed model now c) := by
  refine ⟨rfl, fun h => ?_⟩
  have hne : s.messagesOf c.id ≠ [] := h
  obtain ⟨m, hm⟩ := exists_representative? hne
  refine ⟨m, standsFor_of_representative? hm, ?_, ?_⟩
  · simp only [refreshed, hm]
  · simp only [refreshed, hm]

/-- Accurate figures stay so while the messages of their conversation do. -/
theorem Accurate.congr (h : s.Accurate c) (hm : s'.messagesOf c.id = s.messagesOf c.id) : s'.Accurate c := by
  have ht : s'.turnsOf c.id = s.turnsOf c.id := by
    unfold turnsOf
    rw [hm]
  have hs : s'.systemOf c.id = s.systemOf c.id := by
    unfold systemOf
    rw [hm]
  refine ⟨by rw [hm]; exact h.count, fun hne => ?_⟩
  obtain ⟨m, hstands, hshown⟩ := h.shown (hm ▸ hne)
  refine ⟨m, ?_, hshown⟩
  unfold StandsFor at hstands ⊢
  rw [ht, hs]
  exact hstands

/-- The figures of a new conversation, which has no messages, are accurate. -/
theorem accurate_row {n : NewConversation} (h : s.messagesOf n.id = []) : s.Accurate n.row := by
  refine ⟨?_, fun hne => absurd h hne⟩
  have hid : n.row.id = n.id := rfl
  rw [hid, h]
  rfl

/-- Messages inserted elsewhere are no messages of a conversation. -/
theorem messagesOf_append {rows : List NewMessage} {id : Int} (h : ∀ m ∈ rows, m.conversation ≠ id) :
    messagesOf { s with messages := s.messages ++ rows.map NewMessage.row } id = s.messagesOf id := by
  have hnone : (rows.map NewMessage.row).filter (·.conversation == id) = [] := by
    rw [List.filter_eq_nil_iff]
    intro r hr
    obtain ⟨m, hm, rfl⟩ := List.mem_map.1 hr
    have hconv : m.row.conversation = m.conversation := rfl
    simp [hconv, h m hm]
  unfold messagesOf
  rw [List.filter_append, hnone, List.append_nil]

/-- Turns inserted are no system messages. -/
theorem systemOf_append {rows : List NewMessage} (h : ∀ m ∈ rows, m.row.isSystem = false) (id : Int) :
    systemOf { s with messages := s.messages ++ rows.map NewMessage.row } id = s.systemOf id := by
  have hnone : (rows.map NewMessage.row).filter (fun r => r.isSystem && r.conversation == id) = [] := by
    rw [List.filter_eq_nil_iff]
    intro r hr
    obtain ⟨m, hm, rfl⟩ := List.mem_map.1 hr
    simp [h m hm]
  rw [systemOf_eq, systemOf_eq, List.filter_append, hnone, List.append_nil]

/-- Writing the system message of a conversation leaves the messages of the others as they were. -/
theorem messagesOf_upsert {m : NewMessage} {id kept : Int} (hd : DistinctIds s.messages)
    (h : s.upsertSystem m = .ok (kept, s')) (hid : m.conversation ≠ id) : s'.messagesOf id = s.messagesOf id := by
  rcases upsertSystem_rows h with ⟨-, rfl⟩ | ⟨row, hrow, rfl⟩
  · have hrows : ∀ n ∈ [m], n.conversation ≠ id := by
      intro n hn
      rw [List.mem_singleton.1 hn]
      exact hid
    exact messagesOf_append hrows
  · exact messagesOf_rewritten_of_ne hd hrow fun e => hid e.symm

/-- The ids of messages stay different when the system message is written. -/
theorem distinct_upsert {m : NewMessage} {kept : Int} (hd : DistinctIds s.messages)
    (h : s.upsertSystem m = .ok (kept, s')) : DistinctIds s'.messages := by
  rcases upsertSystem_rows h with ⟨hfresh, rfl⟩ | ⟨row, -, rfl⟩
  · have hadm : s.Admits [m] := by
      refine ⟨fun n hn r hr => ?_, List.pairwise_singleton _ _⟩
      rw [List.mem_singleton.1 hn]
      exact hfresh r hr
    exact distinct_insert hd hadm
  · exact distinct_rewritten hd

end Figures

end Tables

end InferenceGate.Store
