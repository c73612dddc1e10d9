import InferenceGate.Proofs.Chat.Turns

/-!
# The log of a conversation

What a conversation is, apart from how it is stored: a slot for the system message and a list of what was said (`Log`). `Replays`
relates the tables to such logs: read back and in the order of the table, the rows of every conversation are its log. Each
statement that a turn makes keeps the relation, with the log changed as the turn says.
-/

namespace InferenceGate.Chat

open Json Store

/-- The system message of a conversation, if it has one, and what the user and the assistant said, oldest first. -/
structure Log where
  system : Option Value := none
  entries : List Value := []

/-- The system message of a turn as it is sent. -/
def ownSystem? (current : List Message) : Option Value := (systemOf? current).map fun m => Value.object m.raw

/-- What the user says in a turn, as it is sent. -/
def ownWords (current : List Message) : List Value := (current.filter Message.isUser).map fun m => Value.object m.raw

namespace Log

/-- The log after a turn: its system message takes the slot, and what the user says is added. -/
def turn (current : List Message) (l : Log) : Log := ⟨(ownSystem? current).or l.system, l.entries ++ ownWords current⟩

/-- The log after a reply, unless it is blank. -/
def reply (text : Option String) (l : Log) : Log :=
  { l with entries := l.entries ++ ((replyText? text).map (messageObject "assistant")).toList }

/-- The newest entries of a log. -/
def newest (n : Nat) (l : Log) : List Value := l.entries.drop (l.entries.length - n)

/-- What a turn that continues a conversation should send: its own system message or else that of the slot, the newest entries, and
what the user says. -/
def sent (maxHistory : Nat) (current : List Message) (l : Log) : List Value :=
  ((ownSystem? current).or l.system).toList ++ l.newest maxHistory ++ ownWords current

end Log

/-- Logs with that of one conversation changed. -/
def amend (logs : Int → Log) (conversation : Int) (f : Log → Log) : Int → Log :=
  fun c => if c = conversation then f (logs c) else logs c

/-- The text written for a value is read as the value. -/
def ReadsBack (v : Value) : Prop := parseText? v.render = some v

namespace LogAux

/-! ## Replaying a row -/

/-- The text of an object is not blank. -/
theorem isBlankText_render (ms : Members) : Text.isBlankText (Value.object ms).render = false := by
  unfold Value.render Text.isBlankText
  simp only [String.toList_append, List.all_append]
  rfl

/-- A row that holds the text of an object which reads back is replayed as the object. -/
theorem replay_eq {m : Store.Message} {ms : Members} (hj : m.json = some (Value.object ms).render)
    (hr : ReadsBack (.object ms)) : replay m = .object ms := by
  unfold ReadsBack at hr
  unfold replay
  simp [hj, Option.filter, isBlankText_render, hr]

/-- A message of a turn is replayed as it was sent. -/
theorem replay_rowOf {user conversation now id : Int} {model : String} {m : Message} (hr : ReadsBack (.object m.raw)) :
    replay (rowOf user conversation model now id m).row = .object m.raw :=
  replay_eq rfl hr

/-- So are all messages of a turn. -/
theorem map_replay_rows {user conversation now : Int} {model : String} {ids : List Int} {ms : List Message}
    (hl : ids.length = ms.length) (hr : ∀ m ∈ ms, ReadsBack (.object m.raw)) :
    ((List.zipWith (rowOf user conversation model now) ids ms).map NewMessage.row).map replay =
      ms.map fun m => Value.object m.raw := by
  induction ms generalizing ids with
  | nil =>
    rw [List.length_nil, List.length_eq_zero_iff] at hl
    subst hl
    rfl
  | cons m ms ih =>
    cases ids with
    | nil => nomatch hl
    | cons id ids =>
      have ih := ih (Nat.succ.inj hl) fun m' hm' => hr m' (List.mem_cons_of_mem _ hm')
      simp only [List.zipWith_cons_cons, List.map_cons, ih, replay_rowOf (hr m (by simp))]

/-! ## Rows of a turn -/

/-- What rows that a turn appends have in common: one conversation, one time, and ids that go up within bounds. -/
structure Appended (conversation now low high : Int) (rows : List NewMessage) : Prop where
  conversation_eq : ∀ m ∈ rows, m.conversation = conversation
  createdAt_eq : ∀ m ∈ rows, m.createdAt = now
  ascending : rows.Pairwise fun a b => a.id < b.id
  bounded : ∀ m ∈ rows, low ≤ m.id ∧ m.id < high
  turns : ∀ m ∈ rows, m.row.isSystem = false

/-- A row of a turn is of one of its messages, with one of the ids drawn. -/
theorem mem_rows {user conversation now : Int} {model : String} {ids : List Int} {ms : List Message} {r : NewMessage}
    (h : r ∈ List.zipWith (rowOf user conversation model now) ids ms) :
    ∃ id ∈ ids, ∃ m ∈ ms, r = rowOf user conversation model now id m := by
  induction ids generalizing ms with
  | nil => simp at h
  | cons id ids ih =>
    cases ms with
    | nil => simp at h
    | cons m ms =>
      rcases List.mem_cons.1 h with rfl | h
      · exact ⟨id, by simp, m, by simp, rfl⟩
      · obtain ⟨id', hid, m', hm, rfl⟩ := ih h
        exact ⟨id', List.mem_cons_of_mem _ hid, m', List.mem_cons_of_mem _ hm, rfl⟩

/-- The rows of a turn have ids that go up. -/
theorem pairwise_rows {user conversation now : Int} {model : String} {ids : List Int} (hp : ids.Pairwise (· < ·))
    (ms : List Message) : (List.zipWith (rowOf user conversation model now) ids ms).Pairwise fun a b => a.id < b.id := by
  induction ids generalizing ms with
  | nil => simp
  | cons id ids ih =>
    obtain ⟨h1, h2⟩ := List.pairwise_cons.1 hp
    cases ms with
    | nil => simp
    | cons m ms =>
      refine List.pairwise_cons.2 ⟨fun r hr => ?_, ih h2 ms⟩
      obtain ⟨id', hid, m', -, rfl⟩ := mem_rows hr
      exact h1 id' hid

/-- What the user says in a turn is appended as rows of turns. -/
theorem appended_rows {user conversation now low high : Int} {model : String} {ids : List Int} {current : List Message}
    (hp : ids.Pairwise (· < ·)) (hb : ∀ id ∈ ids, low ≤ id ∧ id < high) :
    Appended conversation now low high
      (List.zipWith (rowOf user conversation model now) ids (current.filter Message.isUser)) := by
  refine ⟨?_, ?_, pairwise_rows hp _, ?_, ?_⟩ <;> intro r hr <;> obtain ⟨id, hid, m, hm, rfl⟩ := mem_rows hr
  · rfl
  · rfl
  · exact hb id hid
  · have hu : m.role = "user" := by simpa [Message.isUser] using (List.mem_filter.1 hm).2
    simp [NewMessage.row, Store.Message.isSystem, rowOf, hu]

end LogAux

open LogAux

/-- Rows that stand in order, with ids below a floor and times up to a latest one, each in a conversation that there is. -/
structure Placed (t : Tables) (floor latest : Int) : Prop where
  ordered : Ordered t.messages
  below : t.Below floor
  upTo : ∀ m ∈ t.messages, m.createdAt ≤ latest
  known : ∀ m ∈ t.messages, ∃ c ∈ t.conversations, c.id = m.conversation

namespace Placed

variable {t : Tables} {floor floor' latest : Int}

/-- Rows of one conversation and the latest time, appended with ids that go up from the floor. -/
theorem append (h : Placed t floor latest) {conversation : Int} {rows : List Store.Message}
    (hp : rows.Pairwise fun a b => a.id < b.id)
    (hr : ∀ m ∈ rows, m.conversation = conversation ∧ m.createdAt = latest ∧ floor ≤ m.id ∧ m.id < floor') (hf : floor ≤ floor')
    (hk : ∃ c ∈ t.conversations, c.id = conversation) : Placed { t with messages := t.messages ++ rows } floor' latest := by
  refine ⟨?_, ⟨(h.below.mono hf).conversations, ?_⟩, ?_, ?_⟩
  · refine List.pairwise_append.2 ⟨h.ordered, ?_, ?_⟩
    · refine List.Pairwise.imp_of_mem (fun {a b} hra hrb hab => ⟨hab, Int.le_of_eq ?_⟩) hp
      rw [(hr a hra).2.1, (hr b hrb).2.1]
    · intro a hta b hrb
      have h1 := h.below.messages a hta
      have h2 := h.upTo a hta
      have h3 := hr b hrb
      omega
  · intro m hm
    rcases List.mem_append.1 hm with hm | hm
    · exact (h.below.mono hf).messages m hm
    · exact (hr m hm).2.2.2
  · intro m hm
    rcases List.mem_append.1 hm with hm | hm
    · exact h.upTo m hm
    · exact Int.le_of_eq (hr m hm).2.1
  · intro m hm
    rcases List.mem_append.1 hm with hm | hm
    · exact h.known m hm
    · rw [(hr m hm).1]
      exact hk

/-- A system message written over another stands where that one stood. -/
theorem overwrite (h : Placed t floor latest) (hf : floor ≤ floor') (kept : Store.Message) (m : NewMessage) :
    Placed { t with messages := (t.messages.filter (Tables.stays kept m)).map (Tables.rewritten kept m) } floor' latest := by
  have hrow : ∀ a ∈ (t.messages.filter (Tables.stays kept m)).map (Tables.rewritten kept m), ∃ b ∈ t.messages,
      a.id = b.id ∧ a.createdAt = b.createdAt ∧ a.conversation = b.conversation := by
    intro a ha
    obtain ⟨b, hb, rfl⟩ := List.mem_map.1 ha
    exact ⟨b, (List.mem_filter.1 hb).1, Tables.rewritten_id _ _ _, Tables.rewritten_createdAt _ _ _,
      Tables.rewritten_conversation _ _ _⟩
  refine ⟨?_, ⟨(h.below.mono hf).conversations, ?_⟩, ?_, ?_⟩
  · refine List.pairwise_map.2 (List.Pairwise.imp (fun {a b} hab => ?_) (h.ordered.sublist List.filter_sublist))
    rw [Tables.rewritten_id, Tables.rewritten_id, Tables.rewritten_createdAt, Tables.rewritten_createdAt]
    exact hab
  · intro a ha
    obtain ⟨b, hb, he, -, -⟩ := hrow a ha
    have := h.below.messages b hb
    omega
  · intro a ha
    obtain ⟨b, hb, -, he, -⟩ := hrow a ha
    have := h.upTo b hb
    omega
  · intro a ha
    obtain ⟨b, hb, -, -, he⟩ := hrow a ha
    rw [he]
    exact h.known b hb

end Placed

/-- The tables hold the logs: the rows stand as they should, and those of every conversation, read back, are its log. -/
structure Replays (t : Tables) (floor latest : Int) (logs : Int → Log) : Prop extends Placed t floor latest where
  entries : ∀ c, (t.turnsOf c).map replay = (logs c).entries
  system : ∀ c, (t.systemOf c).map replay = (logs c).system.toList

namespace Replays

variable {t t' : Tables} {floor latest : Int} {logs : Int → Log}

/-- Empty tables hold empty logs. -/
theorem empty (floor latest : Int) : Replays {} floor latest fun _ => {} :=
  ⟨⟨.nil, ⟨nofun, nofun⟩, nofun, nofun⟩, fun _ => rfl, fun _ => rfl⟩

/-- The bounds may be wider. -/
theorem mono (h : Replays t floor latest logs) {floor' latest' : Int} (hf : floor ≤ floor') (hl : latest ≤ latest') :
    Replays t floor' latest' logs :=
  { h with
    below := h.below.mono hf
    upTo := fun m hm => Int.le_trans (h.upTo m hm) hl }

/-- A conversation created under an id that is not below the floor. -/
theorem create (h : Replays t floor latest logs) {c : NewConversation} {row : Conversation} {floor' : Int}
    (hc : floor ≤ c.id ∧ c.id < floor') (ht : t.createConversation c = .ok (row, t')) : Replays t' floor' latest logs := by
  have hb := Tables.below_create (h.below.mono (by omega)) hc.2 ht
  rw [Tables.createConversation_eq] at ht
  split at ht
  · nomatch ht
  · obtain ⟨-, rfl⟩ := Prod.mk.inj (Except.ok.inj ht)
    refine { h with below := hb, known := fun m hm => ?_ }
    obtain ⟨c', hc', he⟩ := h.known m hm
    exact ⟨c', List.mem_append_left _ hc', he⟩

/-- Figures brought up to date. -/
theorem refresh (h : Replays t floor latest logs) {id time : Int} {model : Option String}
    (ht : t.refresh id model time = .ok t') : Replays t' floor latest logs := by
  have hb := Tables.below_refresh h.below ht
  obtain ⟨-, rfl⟩ := Tables.refresh_ok ht
  refine { h with below := hb, known := fun m hm => ?_ }
  obtain ⟨c, hc, he⟩ := h.known m hm
  exact ⟨_, List.mem_map_of_mem hc, (Tables.afterRefresh_id _ _ _ _ c).trans he⟩

/-- Rows of turns that are appended to the table are added to the log of their conversation. -/
theorem append (h : Replays t floor latest logs) {conversation floor' : Int} {rows : List NewMessage}
    (ha : Appended conversation latest floor floor' rows) (hf : floor ≤ floor')
    (hk : ∃ c ∈ t.conversations, c.id = conversation) :
    Replays { t with messages := t.messages ++ rows.map NewMessage.row } floor' latest
      (amend logs conversation fun l => { l with entries := l.entries ++ (rows.map NewMessage.row).map replay }) := by
  have hrow : ∀ m ∈ rows.map NewMessage.row, (m.conversation = conversation ∧ m.createdAt = latest ∧
      floor ≤ m.id ∧ m.id < floor') ∧ m.isSystem = false := by
    intro m hm
    obtain ⟨r, hr, rfl⟩ := List.mem_map.1 hm
    exact ⟨⟨ha.conversation_eq r hr, ha.createdAt_eq r hr, (ha.bounded r hr).1, (ha.bounded r hr).2⟩, ha.turns r hr⟩
  have hp := h.toPlaced.append (List.pairwise_map.2 ha.ascending) (fun m hm => (hrow m hm).1) hf hk
  refine { hp with entries := fun c => ?_, system := fun c => ?_ }
  · rw [Tables.turnsOf_eq, List.filter_append, List.map_append, ← Tables.turnsOf_eq, h.entries c]
    unfold amend
    by_cases hc : c = conversation
    · subst hc
      rw [if_pos rfl, List.filter_eq_self.2]
      intro m hm
      simp [hrow m hm]
    · rw [if_neg hc, List.filter_eq_nil_iff.2, List.map_nil, List.append_nil]
      intro m hm
      simp [(hrow m hm).1.1, Ne.symm hc]
  · have hnone : (rows.map NewMessage.row).filter (fun r => r.isSystem && r.conversation == c) = [] := by
      rw [List.filter_eq_nil_iff]
      intro m hm
      simp [hrow m hm]
    rw [Tables.systemOf_eq, List.filter_append, hnone, List.append_nil, ← Tables.systemOf_eq, h.system c]
    unfold amend
    split <;> rfl

/-- A system message written takes the slot of its conversation. -/
theorem write (h : Replays t floor latest logs) {m : NewMessage} {id floor' : Int} (hm : m.row.isSystem = true)
    (hc : m.createdAt = latest) (hb : floor ≤ m.id ∧ m.id < floor') (hk : ∃ c ∈ t.conversations, c.id = m.conversation)
    {v : Value} (hv : ∀ r : Store.Message, r.json = m.json → replay r = v)
    (ht : t.upsertSystem m = .ok (id, t')) :
    Replays t' floor' latest (amend logs m.conversation fun l => { l with system := some v }) := by
  obtain ⟨hturns, hother, r, hr, hself⟩ := Tables.upsertSystem_ok h.ordered.distinct hm ht
  have hrv : replay r = v := by
    cases hr with
    | inserted => exact hv _ rfl
    | replaced => exact hv _ rfl
  have hf : floor ≤ floor' := by omega
  have hp : Placed t' floor' latest := by
    rcases Tables.upsertSystem_rows ht with ⟨-, rfl⟩ | ⟨kept, -, rfl⟩
    · refine h.toPlaced.append (List.pairwise_singleton _ _) (fun r hr => ?_) hf hk
      rw [List.mem_singleton.1 hr]
      exact ⟨rfl, hc, hb.1, hb.2⟩
    · exact h.toPlaced.overwrite hf kept m
  refine { hp with entries := fun c => ?_, system := fun c => ?_ }
  · rw [hturns c, h.entries c]
    unfold amend
    split <;> rfl
  · unfold amend
    by_cases he : c = m.conversation
    · subst he
      rw [if_pos rfl, hself, List.map_singleton, hrv]
      rfl
    · rw [if_neg he, hother c he]
      exact h.system c

end Replays

end InferenceGate.Chat
