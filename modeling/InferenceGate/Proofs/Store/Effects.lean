import InferenceGate.Proofs.Store.Order
import InferenceGate.Store.Routine

/-!
# What the statements do to the tables

Each statement on conversations and messages in terms of the rows it leaves: an insertion appends rows, writing the system message
touches no turn and no other conversation, and bringing figures up to date changes neither messages nor ids.
-/

namespace InferenceGate.Store

open OrderAux

/-- Later times have stamps that are not less. -/
theorem stamp_le {a b : Nat} (h : a ≤ b) : stamp a ≤ stamp b := by
  unfold stamp
  omega

namespace World

variable {α : Type} {w w' : World}

/-- A change makes the tables what it gives, or leaves the world as it is. -/
theorem change_cases (w : World) (f : Tables → Except Fault (α × Tables)) :
    (∃ a t, f w.tables = .ok (a, t) ∧ w.change f = (.ok a, { w with tables := t })) ∨
      ∃ e, w.change f = (.error e, w) := by
  unfold change
  split
  · cases hf : f w.tables with
    | ok r => exact .inl ⟨r.1, r.2, rfl, rfl⟩
    | error e => exact .inr ⟨e, rfl⟩
  · exact .inr ⟨_, rfl⟩

/-- A change that is made was made in the tables, and in nothing else. -/
theorem change_ok {f : Tables → Except Fault (α × Tables)} {a : α} (h : w.change f = (.ok a, w')) :
    ∃ t, f w.tables = .ok (a, t) ∧ w' = { w with tables := t } := by
  unfold change at h
  split at h
  · split at h
    · rename_i b t hf
      obtain ⟨⟩ := h
      exact ⟨t, hf, rfl⟩
    · nomatch h
  · nomatch h

/-- The same of a change that answers nothing. -/
theorem update_ok {f : Tables → Except Fault Tables} (h : w.update f = (.ok (), w')) :
    ∃ t, f w.tables = .ok t ∧ w' = { w with tables := t } := by
  obtain ⟨t, hf, hw⟩ := change_ok h
  cases hft : f w.tables with
  | ok s =>
    rw [hft] at hf
    obtain ⟨⟩ := hf
    exact ⟨t, rfl, hw⟩
  | error e =>
    rw [hft] at hf
    nomatch hf

/-- A change that the tables take is made where the store can be reached. -/
theorem change_of_ok {f : Tables → Except Fault (α × Tables)} {a : α} {t : Tables} (hw : w.reachable = true)
    (h : f w.tables = .ok (a, t)) : w.change f = (.ok a, { w with tables := t }) := by
  unfold change
  rw [if_pos hw, h]

/-- The same of a change that answers nothing. -/
theorem update_of_ok {f : Tables → Except Fault Tables} {t : Tables} (hw : w.reachable = true) (h : f w.tables = .ok t) :
    w.update f = (.ok (), { w with tables := t }) := by
  refine change_of_ok hw ?_
  rw [h]
  rfl

/-- A store that can be reached answers a question. -/
theorem ask_of_reachable (hw : w.reachable = true) (f : Tables → α) : w.ask f = .ok (f w.tables) := by
  unfold ask
  rw [if_pos hw]

/-- A question that is answered is answered by the tables. -/
theorem ask_ok {f : Tables → α} {a : α} (h : w.ask f = .ok a) : a = f w.tables := by
  unfold ask at h
  split at h
  · exact (Except.ok.inj h).symm
  · nomatch h

end World

namespace Tables

variable {s s' : Tables}

/-! ## Inserting -/

/-- The tables have room for messages: their ids are new and different. -/
structure Admits (s : Tables) (ms : List NewMessage) : Prop where
  fresh : ∀ m ∈ ms, ∀ r ∈ s.messages, r.id ≠ m.id
  distinct : ms.Pairwise fun a b => a.id ≠ b.id

/-- One message is inserted if its id is new. -/
theorem insertMessage_eq (s : Tables) (m : NewMessage) :
    s.insertMessage m = if ∃ r ∈ s.messages, r.id = m.id then .error .duplicateId
      else .ok { s with messages := s.messages ++ [m.row] } := by
  unfold insertMessage
  simp only [List.any_eq_true, beq_iff_eq]

/-- Messages that the tables have room for are appended. -/
theorem insertMessages_of_admits {ms : List NewMessage} (h : s.Admits ms) :
    s.insertMessages ms = .ok { s with messages := s.messages ++ ms.map NewMessage.row } := by
  induction ms generalizing s with
  | nil => simp [insertMessages]
  | cons m ms ih =>
    obtain ⟨hm, hd⟩ := List.pairwise_cons.1 h.distinct
    have hnone : ¬ ∃ r ∈ s.messages, r.id = m.id := by
      rintro ⟨r, hr, he⟩
      exact h.fresh m (by simp) r hr he
    have hadm : Admits { s with messages := s.messages ++ [m.row] } ms := by
      refine ⟨?_, hd⟩
      intro m' hm' r hr
      rcases List.mem_append.1 hr with hr | hr
      · exact h.fresh m' (List.mem_cons_of_mem _ hm') r hr
      · rw [List.mem_singleton.1 hr]
        exact hm m' hm'
    rw [insertMessages, insertMessage_eq, if_neg hnone]
    simp [ih hadm]

/-- Messages that the tables have no room for are refused. -/
theorem insertMessages_of_not_admits {ms : List NewMessage} (h : ¬ s.Admits ms) :
    s.insertMessages ms = .error .duplicateId := by
  induction ms generalizing s with
  | nil => exact absurd ⟨nofun, List.Pairwise.nil⟩ h
  | cons m ms ih =>
    rw [insertMessages, insertMessage_eq]
    by_cases hm : ∃ r ∈ s.messages, r.id = m.id
    · rw [if_pos hm]
    · rw [if_neg hm]
      refine ih fun hadm => h ⟨?_, ?_⟩
      · intro m' hm' r hr he
        rcases List.mem_cons.1 hm' with rfl | hm'
        · exact hm ⟨r, hr, he⟩
        · exact hadm.fresh m' hm' r (List.mem_append_left _ hr) he
      · exact List.pairwise_cons.2 ⟨fun m' hm' => hadm.fresh m' hm' m.row (by simp), hadm.distinct⟩

/-- Messages that were inserted are the last of the table. -/
theorem insertMessages_ok {ms : List NewMessage} (h : s.insertMessages ms = .ok s') :
    s.Admits ms ∧ s' = { s with messages := s.messages ++ ms.map NewMessage.row } := by
  by_cases ha : s.Admits ms
  · rw [insertMessages_of_admits ha] at h
    exact ⟨ha, (Except.ok.inj h).symm⟩
  · rw [insertMessages_of_not_admits ha] at h
    nomatch h

/-- A conversation is created if its id is new. -/
theorem createConversation_eq (s : Tables) (c : NewConversation) :
    s.createConversation c = if ∃ r ∈ s.conversations, r.id = c.id then .error .duplicateId
      else .ok (c.row, { s with conversations := s.conversations ++ [c.row] }) := by
  unfold createConversation
  simp only [List.any_eq_true, beq_iff_eq]

/-! ## Writing the system message -/

/-- The newest of some messages is one of them. -/
theorem mem_of_newest? {ms : List Message} {m : Message} (h : newest? ms = some m) : m ∈ ms :=
  List.mem_mergeSort.1 (List.mem_of_mem_head? h)

/-- Without messages there is no newest one, and only then. -/
theorem newest?_eq_none {ms : List Message} : newest? ms = none ↔ ms = [] := by
  unfold newest?
  rw [List.head?_eq_none_iff, ← List.length_eq_zero_iff, List.length_mergeSort, List.length_eq_zero_iff]

/-- The turns of a conversation, picked in one go. -/
theorem turnsOf_eq (s : Tables) (c : Int) : s.turnsOf c = s.messages.filter fun r => !r.isSystem && r.conversation == c :=
  List.filter_filter

/-- The system messages of a conversation, picked in one go. -/
theorem systemOf_eq (s : Tables) (c : Int) : s.systemOf c = s.messages.filter fun r => r.isSystem && r.conversation == c :=
  List.filter_filter

/-- A message of the system in a conversation. -/
theorem mem_systemOf {c : Int} {r : Message} :
    r ∈ s.systemOf c ↔ r ∈ s.messages ∧ r.isSystem = true ∧ r.conversation = c := by
  simp [systemOf_eq]

/-- What writing over a system message makes of a row of the table. -/
def rewritten (kept : Message) (m : NewMessage) (r : Message) : Message :=
  if r.id == kept.id then Message.overwritten m r else r

/-- A row that stays when a system message is written over another. -/
def stays (kept : Message) (m : NewMessage) (r : Message) : Bool :=
  r.id == kept.id || !(r.conversation == m.conversation && r.isSystem)

/-- Writing the system message of a conversation inserts it, or writes over the newest one and removes the others. -/
theorem upsertSystem_eq (s : Tables) (m : NewMessage) :
    s.upsertSystem m =
      match s.latestSystem m.conversation with
      | none => (s.insertMessage m).map fun s => (m.id, s)
      | some kept =>
        .ok (kept.id, { s with messages := (s.messages.filter (stays kept m)).map (rewritten kept m) }) := rfl

theorem rewritten_id (kept : Message) (m : NewMessage) (r : Message) : (rewritten kept m r).id = r.id := by
  unfold rewritten
  split <;> rfl

theorem rewritten_createdAt (kept : Message) (m : NewMessage) (r : Message) :
    (rewritten kept m r).createdAt = r.createdAt := by
  unfold rewritten
  split <;> rfl

theorem rewritten_conversation (kept : Message) (m : NewMessage) (r : Message) :
    (rewritten kept m r).conversation = r.conversation := by
  unfold rewritten
  split <;> rfl

theorem rewritten_role (kept : Message) (m : NewMessage) (r : Message) : (rewritten kept m r).role = r.role := by
  unfold rewritten
  split <;> rfl

/-- Rows of a kind that overwriting keeps, among the rows that stay: those of the kind that were there, as they are written. -/
theorem filter_rewritten {kept : Message} {m : NewMessage} {p : Message → Bool}
    (hp : ∀ r, p (rewritten kept m r) = p r) (rows : List Message) :
    ((rows.filter (stays kept m)).map (rewritten kept m)).filter p =
      (rows.filter fun r => p r && stays kept m r).map (rewritten kept m) := by
  rw [List.filter_map, List.filter_filter]
  congr 2
  funext r
  simp [hp]

/-- Rows that stay as they are and are not written over. -/
theorem map_rewritten_of_ne {kept : Message} {m : NewMessage} {rows : List Message} (h : ∀ r ∈ rows, r.id ≠ kept.id) :
    rows.map (rewritten kept m) = rows := by
  have he : ∀ r ∈ rows, rewritten kept m r = r := fun r hr => by simp [rewritten, h r hr]
  rw [List.map_congr_left he, List.map_id']

/-- Of rows of different ids one has the id of a given one. -/
theorem filter_id_eq {rows : List Message} (h : DistinctIds rows) {kept : Message} (hk : kept ∈ rows) :
    rows.filter (fun r => r.id == kept.id) = [kept] := by
  induction rows with
  | nil => nomatch hk
  | cons r rows ih =>
    obtain ⟨hr, hd⟩ := List.pairwise_cons.1 h
    rcases List.mem_cons.1 hk with rfl | hk'
    · have hnone : rows.filter (fun r => r.id == kept.id) = [] := by
        rw [List.filter_eq_nil_iff]
        intro r hr' he
        exact hr r hr' (by simpa using Eq.symm (by simpa using he))
      simp [hnone]
    · have hne : r.id ≠ kept.id := hr kept hk'
      rw [List.filter_cons_of_neg (by simpa using hne), ih hd hk']

/-- The system message of a conversation that was written. -/
inductive Written (s : Tables) (m : NewMessage) : Message → Prop where
  | inserted : s.systemOf m.conversation = [] → Written s m m.row
  | replaced {kept : Message} : kept ∈ s.systemOf m.conversation → Written s m (Message.overwritten m kept)

/-- Rows of a kind that overwriting keeps are as they were when no system message of the conversation is of that kind. -/
theorem filter_rewritten_of_not {m : NewMessage} {kept : Message} {p : Message → Bool} (hd : DistinctIds s.messages)
    (hk : kept ∈ s.systemOf m.conversation) (hp : ∀ r, p (rewritten kept m r) = p r)
    (hn : ∀ r ∈ s.systemOf m.conversation, p r = false) :
    ((s.messages.filter (stays kept m)).map (rewritten kept m)).filter p = s.messages.filter p := by
  have hstay : (s.messages.filter fun r => p r && stays kept m r) = s.messages.filter p := by
    refine List.filter_congr fun r hr => ?_
    by_cases hsys : r ∈ s.systemOf m.conversation
    · simp [hn r hsys]
    · have hs : stays kept m r = true := by
        rw [mem_systemOf] at hsys
        by_cases hconv : r.conversation = m.conversation <;> simp_all [stays]
      rw [hs, Bool.and_true]
  rw [filter_rewritten hp, hstay]
  refine map_rewritten_of_ne fun r hr he => ?_
  obtain ⟨hmem, hpr⟩ := List.mem_filter.1 hr
  rw [eq_of_id_eq hd hmem (mem_systemOf.1 hk).1 he, hn kept hk] at hpr
  nomatch hpr

/-- Writing over a system message leaves all turns as they were. -/
theorem turnsOf_rewritten {m : NewMessage} {kept : Message} (hd : DistinctIds s.messages)
    (hk : kept ∈ s.systemOf m.conversation) (c : Int) :
    ((s.messages.filter (stays kept m)).map (rewritten kept m)).filter (fun r => !r.isSystem && r.conversation == c) =
      s.turnsOf c := by
  rw [turnsOf_eq]
  refine filter_rewritten_of_not hd hk (fun r => by simp [Message.isSystem, rewritten_role, rewritten_conversation]) ?_
  intro r hr
  simp [(mem_systemOf.1 hr).2.1]

/-- Writing over a system message leaves the messages of other conversations as they were. -/
theorem messagesOf_rewritten_of_ne {m : NewMessage} {kept : Message} (hd : DistinctIds s.messages)
    (hk : kept ∈ s.systemOf m.conversation) {c : Int} (hc : c ≠ m.conversation) :
    ((s.messages.filter (stays kept m)).map (rewritten kept m)).filter (fun r => r.conversation == c) = s.messagesOf c := by
  refine filter_rewritten_of_not hd hk (fun r => by rw [rewritten_conversation]) fun r hr => ?_
  rw [(mem_systemOf.1 hr).2.2]
  exact beq_false_of_ne fun e => hc e.symm

/-- Writing over a system message leaves those of other conversations as they were. -/
theorem systemOf_rewritten_of_ne {m : NewMessage} {kept : Message} (hd : DistinctIds s.messages)
    (hk : kept ∈ s.systemOf m.conversation) {c : Int} (hc : c ≠ m.conversation) :
    ((s.messages.filter (stays kept m)).map (rewritten kept m)).filter (fun r => r.isSystem && r.conversation == c) =
      s.systemOf c := by
  rw [← List.filter_filter, messagesOf_rewritten_of_ne hd hk hc]
  rfl

/-- Writing over a system message leaves it as the only one of its conversation. -/
theorem systemOf_rewritten_self {m : NewMessage} {kept : Message} (hd : DistinctIds s.messages)
    (hk : kept ∈ s.systemOf m.conversation) :
    ((s.messages.filter (stays kept m)).map (rewritten kept m)).filter
      (fun r => r.isSystem && r.conversation == m.conversation) = [Message.overwritten m kept] := by
  obtain ⟨hmem, hsys, hconv⟩ := mem_systemOf.1 hk
  rw [filter_rewritten (fun r => by simp [Message.isSystem, rewritten_role, rewritten_conversation])]
  have hone : (s.messages.filter fun r => (r.isSystem && r.conversation == m.conversation) && stays kept m r) =
      s.messages.filter fun r => r.id == kept.id := by
    refine List.filter_congr fun r hr => ?_
    by_cases he : r.id = kept.id
    · rw [eq_of_id_eq hd hr hmem he]
      simp [stays, hsys, hconv]
    · have hb : (r.id == kept.id) = false := by simpa using he
      cases hs : r.isSystem <;> simp [stays, hb, hs]
  rw [hone, filter_id_eq hd hmem]
  simp [rewritten]

/-- Writing the system message leaves all turns as they were, all other conversations, and one system message in its own. -/
theorem upsertSystem_ok {m : NewMessage} {id : Int} (hd : DistinctIds s.messages) (hm : m.row.isSystem = true)
    (h : s.upsertSystem m = .ok (id, s')) :
    (∀ c, s'.turnsOf c = s.turnsOf c) ∧ (∀ c, c ≠ m.conversation → s'.systemOf c = s.systemOf c) ∧
      ∃ r, Written s m r ∧ s'.systemOf m.conversation = [r] := by
  rw [upsertSystem_eq] at h
  cases hl : s.latestSystem m.conversation with
  | none =>
    have hempty : s.systemOf m.conversation = [] := newest?_eq_none.1 hl
    rw [hl] at h
    change ((s.insertMessage m).map fun s => (m.id, s)) = _ at h
    rw [insertMessage_eq] at h
    split at h
    · nomatch h
    · obtain ⟨-, rfl⟩ := Prod.mk.inj (Except.ok.inj h)
      refine ⟨fun c => ?_, fun c hc => ?_, m.row, .inserted hempty, ?_⟩
      · simp [turnsOf_eq, hm]
      · have hne : ¬ m.row.conversation = c := fun he => hc he.symm
        simp [systemOf_eq, hne]
      · have hself : m.row.conversation = m.conversation := rfl
        rw [systemOf_eq] at hempty
        rw [systemOf_eq, List.filter_append, hempty]
        simp [hm, hself]
  | some kept =>
    have hk := mem_of_newest? hl
    rw [hl] at h
    obtain ⟨-, rfl⟩ := Prod.mk.inj (Except.ok.inj h)
    refine ⟨fun c => ?_, fun c hc => ?_, _, .replaced hk, ?_⟩
    · rw [turnsOf_eq]
      exact turnsOf_rewritten hd hk c
    · rw [systemOf_eq]
      exact systemOf_rewritten_of_ne hd hk hc
    · rw [systemOf_eq]
      exact systemOf_rewritten_self hd hk

/-- The rows after writing a system message: those before with the new one at the end, or some of those before, written over. -/
theorem upsertSystem_rows {m : NewMessage} {id : Int} (h : s.upsertSystem m = .ok (id, s')) :
    (∀ r ∈ s.messages, r.id ≠ m.id) ∧ s' = { s with messages := s.messages ++ [m.row] } ∨
      ∃ kept ∈ s.systemOf m.conversation,
        s' = { s with messages := (s.messages.filter (stays kept m)).map (rewritten kept m) } := by
  rw [upsertSystem_eq] at h
  cases hl : s.latestSystem m.conversation with
  | none =>
    rw [hl] at h
    change ((s.insertMessage m).map fun s => (m.id, s)) = _ at h
    rw [insertMessage_eq] at h
    split at h
    · nomatch h
    · rename_i hn
      obtain ⟨-, rfl⟩ := Prod.mk.inj (Except.ok.inj h)
      exact .inl ⟨fun r hr he => hn ⟨r, hr, he⟩, rfl⟩
  | some kept =>
    rw [hl] at h
    obtain ⟨-, rfl⟩ := Prod.mk.inj (Except.ok.inj h)
    exact .inr ⟨kept, mem_of_newest? hl, rfl⟩

/-- The ids of messages stay different when messages are inserted. -/
theorem distinct_insert {ms : List NewMessage} (hd : DistinctIds s.messages) (h : s.Admits ms) :
    DistinctIds (s.messages ++ ms.map NewMessage.row) := by
  refine List.pairwise_append.2 ⟨hd, List.pairwise_map.2 h.distinct, fun a ha b hb => ?_⟩
  obtain ⟨m, hm, rfl⟩ := List.mem_map.1 hb
  exact h.fresh m hm a ha

/-- The ids of messages stay different when a system message is written over. -/
theorem distinct_rewritten {m : NewMessage} {kept : Message} (hd : DistinctIds s.messages) :
    DistinctIds ((s.messages.filter (stays kept m)).map (rewritten kept m)) := by
  refine List.pairwise_map.2 (List.Pairwise.imp (fun {a b} hab => ?_) (List.Pairwise.sublist List.filter_sublist hd))
  rw [rewritten_id, rewritten_id]
  exact hab

/-! ## Bringing figures up to date -/

/-- A row of the conversations when the figures of one are brought up to date. -/
def afterRefresh (s : Tables) (id : Int) (model : Option String) (time : Int) (c : Conversation) : Conversation :=
  if c.id == id then s.refreshed model time c else c

theorem afterRefresh_id (s : Tables) (id : Int) (model : Option String) (time : Int) (c : Conversation) :
    (s.afterRefresh id model time c).id = c.id := by
  unfold afterRefresh
  split <;> rfl

theorem afterRefresh_user (s : Tables) (id : Int) (model : Option String) (time : Int) (c : Conversation) :
    (s.afterRefresh id model time c).user = c.user := by
  unfold afterRefresh
  split <;> rfl

/-- Figures are brought up to date of a conversation that exists, and only its row changes. -/
theorem refresh_eq (s : Tables) (id : Int) (model : Option String) (time : Int) :
    s.refresh id model time = if ∃ c ∈ s.conversations, c.id = id then
        .ok { s with conversations := s.conversations.map (s.afterRefresh id model time) }
      else .error (.conversationMissing id) := by
  have hany : s.conversations.any (·.id == id) = true ↔ ∃ c ∈ s.conversations, c.id = id := by
    simp only [List.any_eq_true, beq_iff_eq]
  unfold refresh
  by_cases hc : ∃ c ∈ s.conversations, c.id = id
  · rw [if_pos hc, if_pos (hany.2 hc)]
    rfl
  · rw [if_neg hc, if_neg (mt hany.1 hc)]

/-- A conversation that is refreshed is there, and only its figures are set. -/
theorem refresh_ok {id : Int} {model : Option String} {time : Int} (h : s.refresh id model time = .ok s') :
    (∃ c ∈ s.conversations, c.id = id) ∧
      s' = { s with conversations := s.conversations.map (s.afterRefresh id model time) } := by
  rw [refresh_eq] at h
  split at h
  · rename_i hc
    exact ⟨hc, (Except.ok.inj h).symm⟩
  · nomatch h

/-! ## Ids below a floor -/

/-- All ids of conversations and messages are below a floor. -/
structure Below (t : Tables) (floor : Int) : Prop where
  conversations : ∀ c ∈ t.conversations, c.id < floor
  messages : ∀ m ∈ t.messages, m.id < floor

variable {t t' : Tables} {floor : Int}

theorem Below.mono {floor' : Int} (h : t.Below floor) (hf : floor ≤ floor') : t.Below floor' :=
  ⟨fun c hc => Int.lt_of_lt_of_le (h.conversations c hc) hf, fun m hm => Int.lt_of_lt_of_le (h.messages m hm) hf⟩

/-- A conversation created below a bound leaves all rows below it. -/
theorem below_create (h : t.Below floor) {c : NewConversation} {row : Conversation} (hid : c.id < floor)
    (hc : t.createConversation c = .ok (row, t')) : t'.Below floor := by
  rw [createConversation_eq] at hc
  split at hc
  · nomatch hc
  · obtain ⟨rfl, rfl⟩ := Prod.mk.inj (Except.ok.inj hc)
    refine ⟨fun d hd => ?_, h.messages⟩
    rcases List.mem_append.1 hd with hd | hd
    · exact h.conversations d hd
    · rw [List.mem_singleton.1 hd]
      exact hid

/-- Messages inserted below a bound leave all rows below it. -/
theorem below_insert (h : t.Below floor) {ms : List NewMessage} (hid : ∀ m ∈ ms, m.id < floor)
    (hi : t.insertMessages ms = .ok t') : t'.Below floor := by
  obtain ⟨-, rfl⟩ := insertMessages_ok hi
  refine ⟨h.conversations, fun r hr => ?_⟩
  rcases List.mem_append.1 hr with hr | hr
  · exact h.messages r hr
  · obtain ⟨m, hm, rfl⟩ := List.mem_map.1 hr
    exact hid m hm

/-- A system message written below a bound leaves all rows below it. -/
theorem below_upsert (h : t.Below floor) {m : NewMessage} {id : Int} (hid : m.id < floor)
    (hi : t.upsertSystem m = .ok (id, t')) : t'.Below floor := by
  rcases upsertSystem_rows hi with ⟨-, rfl⟩ | ⟨kept, -, rfl⟩
  · refine ⟨h.conversations, fun r hr => ?_⟩
    rcases List.mem_append.1 hr with hr | hr
    · exact h.messages r hr
    · rw [List.mem_singleton.1 hr]
      exact hid
  · refine ⟨h.conversations, fun r hr => ?_⟩
    obtain ⟨r', hr', rfl⟩ := List.mem_map.1 hr
    rw [rewritten_id]
    exact h.messages r' (List.mem_filter.1 hr').1

/-- A refresh leaves all rows below a bound. -/
theorem below_refresh (h : t.Below floor) {id time : Int} {model : Option String} (hr : t.refresh id model time = .ok t') :
    t'.Below floor := by
  obtain ⟨-, rfl⟩ := refresh_ok hr
  refine ⟨fun c hc => ?_, h.messages⟩
  obtain ⟨d, hd, rfl⟩ := List.mem_map.1 hc
  rw [afterRefresh_id]
  exact h.conversations d hd

end Tables

end InferenceGate.Store
