import InferenceGate.Proofs.Store.Figures
import InferenceGate.Proofs.Store.Steps

/-!
# What a call owes its conversations

A call that stores messages in a conversation owes it to bring its figures up to date. `Duty` is what a call has come to know and what
it owes; `Routine.Dutiful` says of a routine that, as long as the store answers without a fault, it stores messages only in
conversations that it knows, system messages only by writing the one place for them, and ends with what a condition allows. What a
dutiful step makes of regular tables is regular, and leaves each conversation with accurate figures, as it was, or owed
(`Step.settles`).
-/

namespace InferenceGate.Store

/-- What a call has come to know and what it owes: the conversations it has found or created, and those whose figures it has still to
bring up to date. -/
structure Duty where
  known : List Int := []
  owed : List Int := []

/-- What is known stays known. -/
def Duty.Le (d d' : Duty) : Prop := ∀ c ∈ d.known, c ∈ d'.known

/-- A call that owes nothing to any conversation but one. -/
def Duty.OwesOnly (d : Duty) (conversation : Int) : Prop := ∀ c ∈ d.owed, c = conversation

namespace Step

/-- A step that stores messages in known conversations alone, those of the system in the one place for them. -/
def Dutiful (d : Duty) : Step → Prop
  | .insertMessages ms => ∀ m ∈ ms, m.conversation ∈ d.known ∧ m.row.isSystem = false
  | .upsertSystem m => m.conversation ∈ d.known ∧ m.row.isSystem = true
  | _ => True

/-- What a call knows and owes after a step. -/
def duty (d : Duty) : (s : Step) → s.Answer → Duty
  | .createConversation _, .ok c => { d with known := (c : Conversation).id :: d.known }
  | .findConversation id _, .ok (some _) => { d with known := id :: d.known }
  | .insertMessages ms, _ => { d with owed := ms.map NewMessage.conversation ++ d.owed }
  | .upsertSystem m, _ => { d with owed := m.conversation :: d.owed }
  | .refresh id _ _, _ => { d with owed := d.owed.filter (· != id) }
  | _, _ => d

/-- What is known stays known with every step. -/
theorem le_duty (d : Duty) (s : Step) (answer : s.Answer) : d.Le (s.duty d answer) := by
  intro c hc
  unfold duty
  split
  · exact List.mem_cons_of_mem _ hc
  · exact List.mem_cons_of_mem _ hc
  all_goals exact hc

end Step

namespace Routine

variable {α β : Type}

/-- Every step that a routine can come to without a fault is dutiful, and what it ends with satisfies a condition. -/
def Dutiful : Duty → Routine α → (Duty → α → Prop) → Prop
  | d, .done a, post => post d a
  | d, .step s next, post => s.Dutiful d ∧ ∀ answer, s.Succeeds answer → Dutiful (s.duty d answer) (next answer) post

/-- Two routines in sequence are dutiful when the first is and then the second. -/
theorem Dutiful.bind {d : Duty} {r : Routine α} {f : α → Routine β} {mid : Duty → α → Prop} {post : Duty → β → Prop}
    (h : Dutiful d r mid) (hf : ∀ d' a, d.Le d' → mid d' a → Dutiful d' (f a) post) : Dutiful d (r.bind f) post := by
  induction r generalizing d with
  | done a => exact hf d a (fun _ hc => hc) h
  | step s next ih =>
    refine ⟨h.1, fun answer hs => ih answer (h.2 answer hs) fun d' a hle => hf d' a fun c hc => ?_⟩
    exact hle c (s.le_duty d answer c hc)

end Routine

/-! ## What a step settles -/

namespace Tables

/-- A conversation that exists. -/
def Has (t : Tables) (conversation : Int) : Prop := ∃ c ∈ t.conversations, c.id = conversation

/-- Regular tables: messages have different ids, at most one in each conversation is of the system, and their conversations exist. -/
structure Regular (t : Tables) : Prop where
  distinct : DistinctIds t.messages
  single : t.OneSystem
  homed : ∀ m ∈ t.messages, t.Has m.conversation

/-- A call whose known conversations exist. -/
def Knows (t : Tables) (d : Duty) : Prop := ∀ c ∈ d.known, t.Has c

/-- What a step of a call keeps, from the tables and the duty before it to those after it. Each conversation has accurate figures, or is
owed by the call, or is as it was, with the messages it had and owed if it was. -/
structure Settles (d d' : Duty) (t t' : Tables) : Prop where
  regular : t'.Regular
  kept : ∀ c, t.Has c → t'.Has c
  knows : t'.Knows d'
  figures : ∀ c ∈ t'.conversations, t'.Accurate c ∨ c.id ∈ d'.owed ∨
    (c ∈ t.conversations ∧ t'.messagesOf c.id = t.messagesOf c.id ∧ (c.id ∈ d.owed → c.id ∈ d'.owed))

namespace SettlesAux

variable {d : Duty} {t t' : Tables}

/-- A step that writes nothing and learns what is there. -/
theorem settles_read {known : List Int} (hr : t.Regular) (hk : ∀ c ∈ known, t.Has c) :
    Settles d { d with known := known } t t :=
  ⟨hr, fun _ h => h, hk, fun _ hc => .inr (.inr ⟨hc, rfl, id⟩)⟩

/-- A conversation created has no messages yet. -/
theorem settles_create {c : NewConversation} {row : Conversation} (hr : t.Regular) (hk : t.Knows d)
    (h : t.createConversation c = .ok (row, t')) : Settles d { d with known := row.id :: d.known } t t' := by
  rw [createConversation_eq] at h
  split at h
  · nomatch h
  · rename_i hnew
    obtain ⟨rfl, rfl⟩ := Prod.mk.inj (Except.ok.inj h)
    have hkept : ∀ id, t.Has id → Has { t with conversations := t.conversations ++ [c.row] } id := by
      rintro id ⟨r, hmem, hid⟩
      exact ⟨r, List.mem_append_left _ hmem, hid⟩
    refine ⟨⟨hr.distinct, hr.single, fun m hm => hkept _ (hr.homed m hm)⟩, hkept, fun id hid => ?_, fun r hmem => ?_⟩
    · rcases List.mem_cons.1 hid with rfl | hid
      · exact ⟨c.row, by simp, rfl⟩
      · exact hkept id (hk id hid)
    · rcases List.mem_append.1 hmem with hmem | hmem
      · exact .inr (.inr ⟨hmem, rfl, id⟩)
      · -- a message of the new conversation would be of one that existed
        rw [List.mem_singleton.1 hmem]
        refine .inl (accurate_row (List.filter_eq_nil_iff.2 fun m hm hconv => hnew ?_))
        obtain ⟨r, hr', hid⟩ := hr.homed m hm
        exact ⟨r, hr', hid.trans (by simpa using hconv)⟩

/-- Messages inserted in known conversations are owed to them. -/
theorem settles_insert {ms : List NewMessage} (hr : t.Regular) (hk : t.Knows d)
    (hd : ∀ m ∈ ms, m.conversation ∈ d.known ∧ m.row.isSystem = false) (h : t.insertMessages ms = .ok t') :
    Settles d { d with owed := ms.map NewMessage.conversation ++ d.owed } t t' := by
  obtain ⟨hadm, rfl⟩ := insertMessages_ok h
  refine ⟨⟨distinct_insert hr.distinct hadm, fun id => ?_, fun r hmem => ?_⟩, fun _ h => h, hk, fun c hc => ?_⟩
  · rw [systemOf_append (fun m hm => (hd m hm).2) id]
    exact hr.single id
  · rcases List.mem_append.1 hmem with hmem | hmem
    · exact hr.homed r hmem
    · obtain ⟨m, hm, rfl⟩ := List.mem_map.1 hmem
      exact hk _ (hd m hm).1
  · by_cases howed : c.id ∈ ms.map NewMessage.conversation
    · exact .inr (.inl (List.mem_append_left _ howed))
    · refine .inr (.inr ⟨hc, messagesOf_append fun m hm he => howed ?_, List.mem_append_right _⟩)
      exact List.mem_map.2 ⟨m, hm, he⟩

/-- A system message written is owed to its conversation, which then has that one alone. -/
theorem settles_upsert {m : NewMessage} {id : Int} (hr : t.Regular) (hk : t.Knows d)
    (hd : m.conversation ∈ d.known ∧ m.row.isSystem = true) (h : t.upsertSystem m = .ok (id, t')) :
    Settles d { d with owed := m.conversation :: d.owed } t t' := by
  obtain ⟨-, hothers, row, -, hown⟩ := upsertSystem_ok hr.distinct hd.2 h
  have hsingle : t'.OneSystem := by
    intro c
    by_cases hc : c = m.conversation
    · rw [hc, hown]
      exact Nat.le_refl 1
    · rw [hothers c hc]
      exact hr.single c
  have hmessages : ∀ c, c ≠ m.conversation → t'.messagesOf c = t.messagesOf c :=
    fun c hc => messagesOf_upsert hr.distinct h fun e => hc e.symm
  have hconvs : t'.conversations = t.conversations ∧ ∀ r ∈ t'.messages, t.Has r.conversation := by
    rcases upsertSystem_rows h with ⟨-, rfl⟩ | ⟨kept, -, rfl⟩
    · refine ⟨rfl, fun r hmem => ?_⟩
      rcases List.mem_append.1 hmem with hmem | hmem
      · exact hr.homed r hmem
      · rw [List.mem_singleton.1 hmem]
        exact hk _ hd.1
    · refine ⟨rfl, fun r hmem => ?_⟩
      obtain ⟨r', hr', rfl⟩ := List.mem_map.1 hmem
      rw [rewritten_conversation]
      exact hr.homed r' (List.mem_filter.1 hr').1
  have hkept : ∀ c, t.Has c → t'.Has c := by
    intro c hc
    unfold Has
    rw [hconvs.1]
    exact hc
  refine ⟨⟨distinct_upsert hr.distinct h, hsingle, fun r hmem => hkept _ (hconvs.2 r hmem)⟩, hkept,
    fun c hc => hkept c (hk c hc), fun c hc => ?_⟩
  by_cases hid : c.id = m.conversation
  · exact .inr (.inl (hid ▸ List.mem_cons_self))
  · exact .inr (.inr ⟨hconvs.1 ▸ hc, hmessages c.id hid, List.mem_cons_of_mem _⟩)

/-- Figures brought up to date are owed no more. -/
theorem settles_refresh {id time : Int} {model : Option String} (hr : t.Regular) (hk : t.Knows d)
    (h : t.refresh id model time = .ok t') : Settles d { d with owed := d.owed.filter (· != id) } t t' := by
  obtain ⟨-, rfl⟩ := refresh_ok h
  have hkept : ∀ c, t.Has c → Has { t with conversations := t.conversations.map (t.afterRefresh id model time) } c := by
    rintro c ⟨r, hmem, hid⟩
    exact ⟨_, List.mem_map_of_mem hmem, (afterRefresh_id t id model time r).trans hid⟩
  refine ⟨⟨hr.distinct, hr.single, fun m hm => hkept _ (hr.homed m hm)⟩, hkept, fun c hc => hkept c (hk c hc), fun c hc => ?_⟩
  obtain ⟨r, hmem, rfl⟩ := List.mem_map.1 hc
  by_cases hid : r.id = id
  · have he : t.afterRefresh id model time r = t.refreshed model time r := by simp [afterRefresh, hid]
    rw [he]
    exact .inl ((accurate_refreshed t model time r).congr rfl)
  · have he : t.afterRefresh id model time r = r := by simp [afterRefresh, hid]
    rw [he]
    exact .inr (.inr ⟨hmem, rfl, fun howed => List.mem_filter.2 ⟨howed, by simpa using hid⟩⟩)

end SettlesAux

end Tables

open Tables SettlesAux

/-- A dutiful step that is answered without a fault settles. -/
theorem Step.settles {s : Step} {answer : s.Answer} {d : Duty} {t t' : Tables} (hr : t.Regular) (hk : t.Knows d)
    (hd : s.Dutiful d) (h : s.Makes t t' answer) : Settles d (s.duty d answer) t t' := by
  cases s with
  | now | nextId =>
    obtain rfl := h
    exact settles_read hr hk
  | createConversation c =>
    obtain ⟨row, rfl, h⟩ := h
    exact settles_create hr hk h
  | findConversation id user =>
    obtain ⟨rfl, rfl⟩ := h
    cases hf : t'.findConversation id user with
    | none => exact settles_read hr hk
    | some c =>
      refine settles_read hr fun c' hc' => ?_
      rcases List.mem_cons.1 hc' with rfl | hc'
      · have hid := List.find?_some hf
        simp only [Bool.and_eq_true, beq_iff_eq] at hid
        exact ⟨c, List.mem_of_find?_eq_some hf, hid.1⟩
      · exact hk c' hc'
  | insertMessages ms => exact settles_insert hr hk hd h.2
  | upsertSystem m =>
    obtain ⟨id, rfl, h⟩ := h
    exact settles_upsert hr hk hd h
  | latestSystem c | recentTurns c n =>
    obtain ⟨rfl, rfl⟩ := h
    exact settles_read hr hk
  | refresh id model time => exact settles_refresh hr hk h.2

end InferenceGate.Store