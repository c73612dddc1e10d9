import InferenceGate.Proofs.Store.Figures

/-!
# One system message

Writing the system message of a conversation leaves exactly one there, however many there were: the newest keeps its place, its id
and its time, and takes over what was written. Nothing else in the store changes. It is refused only where the conversation has no
system message and the id of the new one is taken (`upsertSystem_eq_error`).
-/

namespace InferenceGate.Store

open Tables

/-- A message is no system message of a conversation. -/
def Message.isElsewhere (conversation : Int) (r : Message) : Bool := !(r.isSystem && r.conversation == conversation)

/-- What tables have become when the system message of a conversation was written under an id. -/
structure Tables.SystemWritten (t t' : Tables) (m : NewMessage) (id : Int) (r : Message) : Prop where
  /-- It is the only one of the conversation, and the one that is found. -/
  only : t'.systemOf m.conversation = [r]
  found : t'.latestSystem m.conversation = some r
  /-- It has the id that was answered and says what was written. -/
  id_eq : r.id = id
  content : r.content = m.content
  json : r.json = m.json
  model : r.model = m.model
  user : r.user = m.user
  updated : r.updatedAt = m.createdAt
  /-- It stands in the place of the one that was found before, if there was one, and is new otherwise. -/
  kept : ∀ before, t.latestSystem m.conversation = some before → r.id = before.id ∧ r.createdAt = before.createdAt
  inserted : t.systemOf m.conversation = [] → r = m.row
  /-- All other messages are as they were, and so is all that is not a message. -/
  others : t'.messages.filter (Message.isElsewhere m.conversation) = t.messages.filter (Message.isElsewhere m.conversation)
  rest : t' = { t with messages := t'.messages }

namespace SystemMessageAux

variable {t t' : Tables} {m : NewMessage} {id : Int}

/-- A single message is the newest. -/
theorem newest?_singleton (r : Message) : newest? [r] = some r := by
  unfold newest?
  rw [List.mergeSort_singleton]
  rfl

/-- The single system message of a conversation is the one that is found. -/
theorem latestSystem_of_systemOf {conversation : Int} {r : Message} (h : t.systemOf conversation = [r]) :
    t.latestSystem conversation = some r := by
  unfold latestSystem
  rw [h, newest?_singleton]

/-- System messages of a conversation are not elsewhere. -/
theorem isElsewhere_of_mem {conversation : Int} {r : Message} (h : r ∈ t.systemOf conversation) :
    r.isElsewhere conversation = false := by
  obtain ⟨-, hsys, hconv⟩ := mem_systemOf.1 h
  simp [Message.isElsewhere, hsys, hconv]

/-- A system message written into a conversation that has none is inserted. -/
theorem systemWritten_inserted (hm : m.row.isSystem = true) (h : t.systemOf m.conversation = []) :
    SystemWritten t { t with messages := t.messages ++ [m.row] } m m.id m.row := by
  have hself : m.row.conversation = m.conversation := rfl
  have honly : systemOf { t with messages := t.messages ++ [m.row] } m.conversation = [m.row] := by
    rw [systemOf_eq] at h
    rw [systemOf_eq, List.filter_append, h]
    simp [hm, hself]
  refine ⟨honly, latestSystem_of_systemOf honly, rfl, rfl, rfl, rfl, rfl, rfl, fun before hb => ?_, fun _ => rfl, ?_, rfl⟩
  · unfold latestSystem at hb
    rw [newest?_eq_none.2 h] at hb
    nomatch hb
  · simp [Message.isElsewhere, hm, hself]

/-- A system message written into a conversation that has some is written over the newest of them. -/
theorem systemWritten_rewritten {kept : Message} (hd : DistinctIds t.messages) (h : t.latestSystem m.conversation = some kept) :
    SystemWritten t { t with messages := (t.messages.filter (stays kept m)).map (rewritten kept m) } m kept.id
      (Message.overwritten m kept) := by
  have hk : kept ∈ t.systemOf m.conversation := mem_of_newest? h
  have honly : systemOf { t with messages := (t.messages.filter (stays kept m)).map (rewritten kept m) } m.conversation =
      [Message.overwritten m kept] := by
    rw [systemOf_eq]
    exact systemOf_rewritten_self hd hk
  have hother : ∀ r, (rewritten kept m r).isElsewhere m.conversation = r.isElsewhere m.conversation := by
    intro r
    simp [Message.isElsewhere, Message.isSystem, rewritten_role, rewritten_conversation]
  refine ⟨honly, latestSystem_of_systemOf honly, rfl, rfl, rfl, rfl, rfl, rfl, fun before hb => ?_, fun hnone => ?_, ?_, rfl⟩
  · obtain rfl := Option.some.inj (h.symm.trans hb)
    exact ⟨rfl, rfl⟩
  · rw [hnone] at hk
    exact absurd hk List.not_mem_nil
  · exact filter_rewritten_of_not hd hk hother fun r hr => isElsewhere_of_mem hr

/-- A store that can be reached fails where the change does. -/
theorem change_eq_error {α : Type} {w : World} {g : Tables → Except Fault (α × Tables)} {f : Fault} (hw : w.reachable = true) :
    (w.change g).1 = .error f ↔ g w.tables = .error f := by
  unfold World.change
  rw [if_pos hw]
  cases g w.tables <;> simp

/-- Where the system message of a conversation is written it is the only one. -/
theorem systemWritten_of_ok (hd : DistinctIds t.messages) (hm : m.row.isSystem = true) (h : t.upsertSystem m = .ok (id, t')) :
    ∃ r, SystemWritten t t' m id r := by
  rw [upsertSystem_eq] at h
  cases hl : t.latestSystem m.conversation with
  | none =>
    rw [hl] at h
    change ((t.insertMessage m).map fun s => (m.id, s)) = _ at h
    rw [insertMessage_eq] at h
    split at h
    · nomatch h
    · obtain ⟨rfl, rfl⟩ := Prod.mk.inj (Except.ok.inj h)
      exact ⟨m.row, systemWritten_inserted hm (newest?_eq_none.1 hl)⟩
  | some kept =>
    rw [hl] at h
    obtain ⟨rfl, rfl⟩ := Prod.mk.inj (Except.ok.inj h)
    exact ⟨Message.overwritten m kept, systemWritten_rewritten hd hl⟩

/-- The system message is refused only as a new one whose id is taken. -/
theorem upsertSystem_eq_error {f : Fault} :
    t.upsertSystem m = .error f ↔
      f = .duplicateId ∧ t.systemOf m.conversation = [] ∧ ∃ r ∈ t.messages, r.id = m.id := by
  rw [upsertSystem_eq]
  cases hl : t.latestSystem m.conversation with
  | none =>
    have hnone : t.systemOf m.conversation = [] := newest?_eq_none.1 hl
    change (t.insertMessage m).map (fun s => (m.id, s)) = _ ↔ _
    rw [insertMessage_eq]
    by_cases htaken : ∃ r ∈ t.messages, r.id = m.id
    · rw [if_pos htaken]
      constructor
      · intro h
        exact ⟨(Except.error.inj h).symm, hnone, htaken⟩
      · rintro ⟨rfl, -, -⟩
        rfl
    · rw [if_neg htaken]
      exact ⟨nofun, fun h => absurd h.2.2 htaken⟩
  | some kept =>
    refine ⟨nofun, fun h => ?_⟩
    have hk := mem_of_newest? hl
    rw [h.2.1] at hk
    nomatch hk

end SystemMessageAux

open SystemMessageAux

/-- Writing the system message of a conversation, however many it has: either it fails and nothing in the store changes, or it is the
only system message of the conversation afterwards. A store that can be reached fails just where the conversation has no system
message and the id of the new one is taken. -/
theorem system_message_single {w : World} {m : NewMessage} (hd : DistinctIds w.tables.messages) (hm : m.role = "system") :
    ((∃ f, w.change (·.upsertSystem m) = (.error f, w)) ∨
      ∃ id t r, w.change (·.upsertSystem m) = (.ok id, { w with tables := t }) ∧ w.tables.SystemWritten t m id r) ∧
    (w.reachable = true → ((∃ f, (w.change (·.upsertSystem m)).1 = .error f) ↔
      w.tables.systemOf m.conversation = [] ∧ ∃ r ∈ w.tables.messages, r.id = m.id)) := by
  have hrole : m.row.isSystem = true := by
    show (m.role == "system") = true
    rw [hm]
    rfl
  refine ⟨?_, fun hw => ?_⟩
  · rcases w.change_cases (·.upsertSystem m) with ⟨id, t, ht, hc⟩ | ⟨f, hc⟩
    · obtain ⟨r, hr⟩ := systemWritten_of_ok hd hrole ht
      exact .inr ⟨id, t, r, hc, hr⟩
    · exact .inl ⟨f, hc⟩
  · simp only [change_eq_error hw, upsertSystem_eq_error, exists_eq_left]

/-- Of two system messages of one time the one with the greater id is written over and the other goes, though the new id is taken. -/
theorem system_message_single_two_of_one_time :
    let older : Message := ⟨1, 100, 7, "system", "old one", none, "", 1002, 1002⟩
    let newer : Message := ⟨2, 100, 7, "system", "old two", none, "", 1002, 1002⟩
    let turn : Message := ⟨3, 100, 7, "user", "hi", none, "", 1003, 1003⟩
    let foreign : Message := ⟨5, 200, 8, "system", "theirs", none, "", 1, 1⟩
    let w : World := { tables := { messages := [newer, older, turn, foreign] }, ids := .ofNode 0, clock := 0 }
    let m : NewMessage := ⟨3, 100, 9, "system", "be brief", none, "gpt", 2000⟩
    DistinctIds w.tables.messages ∧ m.role = "system" ∧
      ∃ t r, w.change (·.upsertSystem m) = (.ok 2, { w with tables := t }) ∧ t.systemOf 100 = [r] ∧ r.id = 2 ∧
        r.createdAt = 1002 ∧ r.content = "be brief" ∧
        t.messages.filter (Message.isElsewhere 100) = [turn, foreign] := by
  intro older newer turn foreign w m
  have hd : DistinctIds w.tables.messages := by
    unfold DistinctIds
    decide
  obtain ⟨hwrites, hfails⟩ := system_message_single (w := w) (m := m) hd rfl
  have hsystem : w.tables.systemOf m.conversation = [newer, older] := by decide
  have hsome : w.tables.systemOf m.conversation ≠ [] := by rw [hsystem]; exact List.cons_ne_nil _ _
  have hlatest : w.tables.latestSystem m.conversation = some newer := by
    unfold latestSystem newest?
    rw [hsystem, List.mergeSort_of_pairwise (by decide)]
    rfl
  rcases hwrites with ⟨f, hf⟩ | ⟨id, t, r, hc, hr⟩
  · exact absurd ((hfails rfl).1 ⟨f, by rw [hf]⟩).1 hsome
  · obtain ⟨hid, hat⟩ := hr.kept newer hlatest
    obtain rfl : id = 2 := hr.id_eq.symm.trans hid
    exact ⟨hd, rfl, t, r, hc, hr.only, hid, hat, hr.content, hr.others.trans (by decide)⟩

end InferenceGate.Store
