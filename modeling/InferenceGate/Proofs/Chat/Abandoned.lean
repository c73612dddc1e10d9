import InferenceGate.Proofs.Chat.Turns
import InferenceGate.Proofs.Store.Steps

/-!
# Turns that are abandoned

A turn that cannot be prepared leaves the tables as they were, unless the store fails at one of its writes after the first: each write
is a statement of its own, and those made before the fault stay (`Abandoned`). So a conversation that was opened for a turn whose
messages are then refused remains, without messages.
-/

namespace InferenceGate.Chat

open Json Store Ids

/-- The statements that store a turn, in their order, under the ids drawn for its system message and for those of the user. -/
def turnWrites (user conversation : Int) (model : String) (now : Int) (current : List Message) (lead said : List Int) : List Step :=
  (List.zipWith (rowOf user conversation model now) lead (systemOf? current).toList).map Step.upsertSystem ++
    [.insertMessages (List.zipWith (rowOf user conversation model now) said (current.filter Message.isUser)),
      .refresh conversation (some model) now]

/-- The writes of a turn that a payload asks for: those that store it, in the conversation that it continues or after one is created
for it. -/
inductive Planned (user : Int) (payload : Members) : List Step → Prop where
  | continuing {current : List Message} {options : TurnOptions} {conversation now : Int} {lead said : List Int} :
      parseMessages payload = .ok current → (takeOptions payload).1 = .ok options →
      (options.conversation.filter fun _ => options.isContinuation) = some conversation →
      lead.length = (systemOf? current).toList.length → said.length = (current.filter Message.isUser).length →
      Planned user payload (turnWrites user conversation (modelOf payload) now current lead said)
  | opening {current : List Message} {options : TurnOptions} {id createdAt now : Int} {lead said : List Int} :
      parseMessages payload = .ok current → (takeOptions payload).1 = .ok options →
      (options.conversation.filter fun _ => options.isContinuation) = none →
      lead.length = (systemOf? current).toList.length → said.length = (current.filter Message.isUser).length →
      Planned user payload
        (.createConversation { id, user, title := title current, model := modelOf payload, createdAt } ::
          turnWrites user id (modelOf payload) now current lead said)

/-- A routine of a turn may end on tables with an answer and others. -/
def Comes {α : Type} (t : Tables) (r : TurnRoutine α) (answer : Except TurnFault α) (t' : Tables) : Prop :=
  Routine.MayEnd t (ExceptT.run r) answer t'

/-- What a turn that cannot be prepared leaves: the tables as they were, or what some of its writes made of them, in their order, when
the store failed at the next. -/
inductive Abandoned (user : Int) (payload : Members) (t : Tables) : TurnFault → Tables → Prop where
  | untouched (f : TurnFault) : Abandoned user payload t f t
  | between {made rest : List Step} {s : Step} {e : Store.Fault} {t' : Tables} : Planned user payload (made ++ s :: rest) →
      made ≠ [] → Step.Made made t t' → s.MayFail e t' → Abandoned user payload t (.store e) t'

/-- Writes carried out: all of them, or those before one that the store failed at. -/
inductive Carried {α : Type} (writes : List Step) (t : Tables) : Except TurnFault α → Tables → Prop where
  | all {a : α} {t' : Tables} : Step.Made writes t t' → Carried writes t (.ok a) t'
  | some {made rest : List Step} {s : Step} {e : Store.Fault} {t' : Tables} : writes = made ++ s :: rest → Step.Made made t t' →
      s.MayFail e t' → Carried writes t (.error (.store e)) t'

namespace AbandonedAux

variable {α β : Type} {t t' : Tables}

/-! ## The ways to build a turn -/

theorem comes_pure {a : α} {answer : Except TurnFault α} (h : Comes t (pure a) answer t') : answer = .ok a ∧ t' = t :=
  Routine.mayEnd_done h

theorem comes_throw {f : TurnFault} {answer : Except TurnFault α} (h : Comes t (throw f) answer t') :
    answer = .error f ∧ t' = t :=
  Routine.mayEnd_done h

/-- Two routines in sequence come to the fault of the first, or to what the second comes to. -/
theorem comes_bind {r : TurnRoutine α} {f : α → TurnRoutine β} {answer : Except TurnFault β} (h : Comes t (r >>= f) answer t') :
    (∃ e, Comes t r (.error e) t' ∧ answer = .error e) ∨ ∃ a t₁, Comes t r (.ok a) t₁ ∧ Comes t₁ (f a) answer t' := by
  obtain ⟨first, t₁, h₁, h₂⟩ := Routine.mayEnd_bind h
  cases first with
  | ok a => exact .inr ⟨a, t₁, h₁, h₂⟩
  | error e =>
    obtain ⟨rfl, rfl⟩ := Routine.mayEnd_done h₂
    exact .inl ⟨e, h₁, rfl⟩

/-- A routine that cannot fail comes to what one of its runs comes to. -/
theorem comes_always {r : Routine α} {answer : Except TurnFault α} (h : Comes t (always r) answer t') :
    ∃ a, answer = .ok a ∧ Routine.MayEnd t r a t' := by
  obtain ⟨a, t₁, h₁, h₂⟩ := Routine.mayEnd_bind h
  obtain ⟨rfl, rfl⟩ := Routine.mayEnd_done h₂
  exact ⟨a, rfl, h₁⟩

/-- An answer of the store is carried on, its fault as the fault of a turn. -/
theorem comes_stored {r : Routine (Except Store.Fault α)} {answer : Except TurnFault α} (h : Comes t (stored r) answer t') :
    ∃ b, Routine.MayEnd t r b t' ∧ answer = b.mapError .store := by
  obtain ⟨b, t₁, h₁, h₂⟩ := Routine.mayEnd_bind h
  obtain ⟨rfl, rfl⟩ := Routine.mayEnd_done h₂
  exact ⟨b, h₁, rfl⟩

/-! ## Writes one after the other -/

/-- The routine of a single write carries it out, or the store fails at it. -/
theorem carried_stored {r : Routine (Except Store.Fault α)} {s : Step} {answer : Except TurnFault α}
    (hr : ∀ {b}, Routine.MayEnd t r b t' → (∃ a done, b = .ok a ∧ s.Makes t t' done) ∨ ∃ e, b = .error e ∧ s.MayFail e t ∧ t' = t)
    (h : Comes t (stored r) answer t') : Carried [s] t answer t' := by
  obtain ⟨b, hb, rfl⟩ := comes_stored h
  rcases hr hb with ⟨a, done, rfl, hw⟩ | ⟨e, rfl, hw, rfl⟩
  · exact .all ⟨done, t', hw, rfl⟩
  · exact .some (List.nil_append [s]).symm rfl hw

/-- Further writes do not matter once one has failed. -/
theorem carried_before {writes : List Step} {e : TurnFault} (h : Carried writes t (.error e : Except TurnFault α) t')
    (later : List Step) : Carried (writes ++ later) t (.error e : Except TurnFault β) t' := by
  cases h with
  | some hw hm hf => exact .some (by rw [hw, List.append_assoc]; rfl) hm hf

/-- Writes after others that were all made. -/
theorem carried_after {first writes : List Step} {a : α} {t₁ : Tables} {answer : Except TurnFault β}
    (h₁ : Carried first t (.ok a : Except TurnFault α) t₁) (h : Carried writes t₁ answer t') :
    Carried (first ++ writes) t answer t' := by
  cases h₁ with
  | all h₁ =>
    cases h with
    | all h => exact .all (Step.made_append h₁ h)
    | some hw hm hf => exact .some (by rw [hw, List.append_assoc]) (Step.made_append h₁ hm) hf

/-- A turn that carries out some writes and then, unless one of them failed, does what carries out others. -/
theorem carried_bind {r : TurnRoutine α} {f : α → TurnRoutine β} {answer : Except TurnFault β} {first writes : List Step}
    (h : Comes t (r >>= f) answer t') (hr : ∀ {b t'}, Comes t r b t' → Carried first t b t')
    (hf : ∀ {a t₁}, Comes t₁ (f a) answer t' → Carried writes t₁ answer t') : Carried (first ++ writes) t answer t' := by
  rcases comes_bind h with ⟨e, h₁, rfl⟩ | ⟨a, t₁, h₁, h₂⟩
  · exact carried_before (hr h₁) writes
  · exact carried_after (hr h₁) (hf h₂)

variable {user conversation now : Int} {model : String} {current : List Message}

theorem carried_insert {ms : List NewMessage} {answer : Except TurnFault Unit}
    (h : Comes t (stored (Routine.insertMessages ms)) answer t') : Carried [.insertMessages ms] t answer t' :=
  carried_stored (fun hb => (Routine.mayEnd_take hb).imp_left fun hm => ⟨(), _, hm.1, hm⟩) h

theorem carried_refresh {name : Option String} {answer : Except TurnFault Unit}
    (h : Comes t (stored (Routine.refresh conversation name now)) answer t') :
    Carried [.refresh conversation name now] t answer t' :=
  carried_stored (fun hb => (Routine.mayEnd_take hb).imp_left fun hm => ⟨(), _, hm.1, hm⟩) h

theorem carried_upsert {m : NewMessage} {answer : Except TurnFault Int} (h : Comes t (stored (Routine.upsertSystem m)) answer t') :
    Carried [.upsertSystem m] t answer t' :=
  carried_stored (fun hb => (Routine.mayEnd_take hb).imp_left fun ⟨id, hok, hm⟩ => ⟨id, _, hok, id, hok, hm⟩) h

/-- Of rows of which there is at most one, that one is written. -/
theorem carried_writeSystem {rows : List NewMessage} {answer : Except TurnFault Unit} (hone : rows.length ≤ 1)
    (h : Comes t (writeSystem rows) answer t') : Carried (rows.map .upsertSystem) t answer t' := by
  match rows, hone with
  | [], _ =>
    obtain ⟨rfl, rfl⟩ := comes_pure h
    exact .all rfl
  | [m], _ =>
    show Carried ([.upsertSystem m] ++ []) t answer t'
    refine carried_bind h carried_upsert fun h => ?_
    obtain ⟨rfl, rfl⟩ := comes_pure h
    exact .all rfl

/-! ## Preparing -/

/-- A part that cannot fail and writes nothing is passed over. -/
theorem comes_past {r : TurnRoutine α} {f : α → TurnRoutine β} {answer : Except TurnFault β} {p : α → Prop}
    (h : Comes t (r >>= f) answer t') (hr : ∀ {b t'}, Comes t r b t' → ∃ a, b = .ok a ∧ p a ∧ t' = t) :
    ∃ a, p a ∧ Comes t (f a) answer t' := by
  rcases comes_bind h with ⟨e, h₁, -⟩ | ⟨a, t₁, h₁, h₂⟩
  · obtain ⟨a, ha, -⟩ := hr h₁
    nomatch ha
  · obtain ⟨a', ha, hp, rfl⟩ := hr h₁
    obtain rfl := Except.ok.inj ha
    exact ⟨a, hp, h₂⟩

/-- A reading of the clock or an id is such a part. -/
theorem comes_idle {r : Routine α} {answer : Except TurnFault α} (hr : ∀ {a}, Routine.MayEnd t r a t' → t' = t)
    (h : Comes t (always r) answer t') : ∃ a, answer = .ok a ∧ True ∧ t' = t := by
  obtain ⟨a, rfl, ha⟩ := comes_always h
  exact ⟨a, rfl, trivial, hr ha⟩

/-- Ids are drawn for messages, and nothing is written. -/
theorem comes_newMessages {ms : List Message} {answer : Except TurnFault (List NewMessage)}
    (h : Comes t (newMessages user conversation model now ms) answer t') :
    ∃ rows, answer = .ok rows ∧
      (∃ ids, ids.length = ms.length ∧ rows = List.zipWith (rowOf user conversation model now) ids ms) ∧ t' = t := by
  induction ms generalizing t answer t' with
  | nil =>
    obtain ⟨rfl, rfl⟩ := comes_pure h
    exact ⟨_, rfl, ⟨[], rfl, rfl⟩, rfl⟩
  | cons m ms ih =>
    have hrow : ∀ {b t'}, Comes t (newMessage user conversation model now m) b t' →
        ∃ row, b = .ok row ∧ (∃ id, row = rowOf user conversation model now id m) ∧ t' = t := by
      intro b t' h
      obtain ⟨id, -, h⟩ := comes_past h (comes_idle (Routine.mayEnd_read fun h => h))
      obtain ⟨rfl, rfl⟩ := comes_pure h
      exact ⟨_, rfl, ⟨id, rfl⟩, rfl⟩
    obtain ⟨row, ⟨id, rfl⟩, h⟩ := comes_past h hrow
    obtain ⟨rows, ⟨ids, hl, rfl⟩, h⟩ := comes_past h ih
    obtain ⟨rfl, rfl⟩ := comes_pure h
    exact ⟨_, rfl, ⟨id :: ids, by simp [hl], rfl⟩, rfl⟩

/-- Storing a turn carries out its writes. -/
theorem comes_storeTurn {answer : Except TurnFault Unit} (h : Comes t (storeTurn user conversation model current) answer t') :
    ∃ now lead said, lead.length = (systemOf? current).toList.length ∧ said.length = (current.filter Message.isUser).length ∧
      Carried (turnWrites user conversation model now current lead said) t answer t' := by
  obtain ⟨now, -, h⟩ := comes_past h (comes_idle (Routine.mayEnd_read fun h => h))
  obtain ⟨_, ⟨lead, hlead, rfl⟩, h⟩ := comes_past h comes_newMessages
  obtain ⟨_, ⟨said, hsaid, rfl⟩, h⟩ := comes_past h comes_newMessages
  refine ⟨now, lead, said, hlead, hsaid, carried_bind h (carried_writeSystem ?_) fun h => ?_⟩
  · rw [List.length_zipWith, hlead, Nat.min_self]
    cases systemOf? current with
    | none => exact Nat.zero_le 1
    | some m => exact Nat.le_refl 1
  · exact carried_bind h carried_insert carried_refresh

/-- A conversation is opened under the id that the turn goes on with, or nothing is written. -/
theorem comes_openConversation {answer : Except TurnFault Int} (h : Comes t (openConversation user model current) answer t') :
    (∃ f, answer = .error f ∧ t' = t) ∨ ∃ id createdAt, answer = .ok id ∧
      Step.Made [.createConversation { id, user, title := title current, model, createdAt }] t t' := by
  obtain ⟨id, -, h⟩ := comes_past h (comes_idle (Routine.mayEnd_read fun h => h))
  obtain ⟨createdAt, -, h⟩ := comes_past h (comes_idle (Routine.mayEnd_read fun h => h))
  rcases comes_bind h with ⟨f, h₁, rfl⟩ | ⟨c, t₁, h₁, h₂⟩
  · obtain ⟨b, hb, he⟩ := comes_stored h₁
    rcases Routine.mayEnd_take hb with ⟨row, rfl, -⟩ | ⟨e, -, -, ht⟩
    · nomatch he
    · exact .inl ⟨f, rfl, ht⟩
  · obtain ⟨rfl, rfl⟩ := comes_pure h₂
    obtain ⟨b, hb, he⟩ := comes_stored h₁
    rcases Routine.mayEnd_take hb with ⟨row, rfl, hm⟩ | ⟨e, rfl, -⟩
    · obtain rfl := Except.ok.inj he
      have hid : c.id = id := by
        rw [Tables.createConversation_eq] at hm
        split at hm
        · nomatch hm
        · rw [← (Prod.mk.inj (Except.ok.inj hm)).1]
          rfl
      exact .inr ⟨id, createdAt, by rw [hid], _, t', ⟨c, rfl, hm⟩, rfl⟩
    · nomatch he

/-- Two parts that write nothing. -/
theorem comes_unchanged {r : TurnRoutine α} {f : α → TurnRoutine β} {answer : Except TurnFault β} (h : Comes t (r >>= f) answer t')
    (hr : ∀ {b t'}, Comes t r b t' → t' = t) (hf : ∀ {a}, Comes t (f a) answer t' → t' = t) : t' = t := by
  rcases comes_bind h with ⟨e, h₁, -⟩ | ⟨a, t₁, h₁, h₂⟩
  · exact hr h₁
  · obtain rfl := hr h₁
    exact hf h₂

/-- A question to the store writes nothing. -/
theorem comes_asked {r : Routine (Except Store.Fault α)} {answer : Except TurnFault α}
    (hr : ∀ {b}, Routine.MayEnd t r b t' → t' = t) (h : Comes t (stored r) answer t') : t' = t := by
  obtain ⟨b, hb, -⟩ := comes_stored h
  exact hr hb

/-- Checking a turn that continues a conversation writes nothing. -/
theorem comes_checkContinuation {answer : Except TurnFault Unit}
    (h : Comes t (checkContinuation user conversation current) answer t') : t' = t := by
  have hshape : ∀ {t₁}, Comes t₁ (if !continues current then throw TurnFault.continuationShape else pure ()) answer t' → t' = t₁ := by
    intro t₁ h
    split at h
    · exact (comes_throw h).2
    · exact (comes_pure h).2
  refine comes_unchanged h (comes_asked (Routine.mayEnd_read And.right)) fun {found} h => ?_
  cases found with
  | none => exact comes_unchanged h (fun h => (comes_throw h).2) hshape
  | some c => exact hshape h

/-- A turn continued, on what is read of its conversation, changes nothing. -/
theorem comes_continued {maxHistory : Nat} {answer : Except TurnFault (List Value)}
    (h : Comes t (continued maxHistory conversation current) answer t') : t' = t := by
  refine comes_unchanged h (comes_asked (Routine.mayEnd_read And.right)) fun h => ?_
  exact comes_unchanged h (comes_asked (Routine.mayEnd_read And.right)) fun h => (comes_pure h).2

/-- Of planned writes, none was made or one after the first failed. -/
theorem abandoned_of_carried {payload : Members} {writes : List Step} {f : TurnFault} (hp : Planned user payload writes)
    (h : Carried writes t (.error f : Except TurnFault α) t') : Abandoned user payload t f t' := by
  cases h with
  | @some made rest s e _ hw hm hf =>
    cases made with
    | nil =>
      obtain rfl := hm
      exact .untouched _
    | cons first made => exact .between (hw ▸ hp) (List.cons_ne_nil first made) hm hf

/-- A turn whose payload was read leaves what a failed turn may leave. -/
theorem abandoned_prepareRead {maxHistory : Nat} {payload rest : Members} {options : TurnOptions} {f : TurnFault}
    (hm : parseMessages payload = .ok current) (ho : (takeOptions payload).1 = .ok options)
    (h : Comes t (prepareRead maxHistory user rest (modelOf payload) current options) (.error f) t') :
    Abandoned user payload t f t' := by
  unfold prepareRead at h
  cases hc : options.conversation.filter fun _ => options.isContinuation with
  | some conversation =>
    rw [hc] at h
    rcases comes_bind h with ⟨e, h₁, -⟩ | ⟨_, t₁, h₁, k₁⟩
    · obtain rfl := comes_checkContinuation h₁
      exact .untouched f
    obtain rfl := comes_checkContinuation h₁
    rcases comes_bind k₁ with ⟨e, h₂, -⟩ | ⟨messages, t₂, h₂, k₂⟩
    · obtain rfl := comes_continued h₂
      exact .untouched f
    obtain rfl := comes_continued h₂
    rcases comes_bind k₂ with ⟨e, h₃, he⟩ | ⟨_, t₃, -, k₃⟩
    · obtain rfl := Except.error.inj he
      obtain ⟨now, lead, said, hlead, hsaid, hcarried⟩ := comes_storeTurn h₃
      exact abandoned_of_carried (.continuing hm ho hc hlead hsaid) hcarried
    · nomatch (comes_pure k₃).1
  | none =>
    rw [hc] at h
    rcases comes_bind h with ⟨e, h₁, -⟩ | ⟨conversation, t₁, h₁, k₁⟩
    · rcases comes_openConversation h₁ with ⟨_, -, rfl⟩ | ⟨id, createdAt, hid, -⟩
      · exact .untouched f
      · nomatch hid
    rcases comes_openConversation h₁ with ⟨e, he, -⟩ | ⟨id, createdAt, hid, hopened⟩
    · nomatch he
    obtain rfl := Except.ok.inj hid
    rcases comes_bind k₁ with ⟨e, h₂, he⟩ | ⟨_, t₂, -, k₂⟩
    · obtain rfl := Except.error.inj he
      obtain ⟨now, lead, said, hlead, hsaid, hcarried⟩ := comes_storeTurn h₂
      have hfirst : Carried [_] t (.ok conversation : Except TurnFault Int) t₁ := .all hopened
      exact abandoned_of_carried (.opening hm ho hc hlead hsaid) (carried_after hfirst hcarried)
    · nomatch (comes_pure k₂).1

end AbandonedAux

open AbandonedAux

/-- What a turn that cannot be prepared leaves. -/
theorem abandoned_prepare {maxHistory : Nat} {user : Int} {payload : Members} {t t' : Tables} {f : TurnFault}
    (h : Comes t (prepare maxHistory user payload) (.error f) t') : Abandoned user payload t f t' := by
  unfold prepare at h
  split at h
  · obtain rfl := (comes_throw h).2
    exact .untouched f
  · rename_i current hm
    split at h
    · obtain rfl := (comes_throw h).2
      exact .untouched f
    · rename_i options rest ho
      exact abandoned_prepareRead hm (by rw [ho]) h

/-- A fault that is not of the store leaves the tables as they were. -/
theorem Abandoned.unchanged {user : Int} {payload : Members} {t t' : Tables} {f : TurnFault} (h : Abandoned user payload t f t')
    (hf : ∀ e, f ≠ .store e) : t' = t := by
  cases h with
  | untouched => rfl
  | between => exact absurd rfl (hf _)

/-- A turn at fault in its payload, its shape or its conversation leaves the tables as they were. A fault of the store does so too,
unless it is at a write after the first: then the writes before it stay, each as a whole, and no others are made. -/
theorem failed_prepare_leaves {maxHistory : Nat} {user : Int} {payload : Members} {t t' : Tables} {f : TurnFault}
    (h : Comes t (prepare maxHistory user payload) (.error f) t') :
    ((∀ e, f ≠ .store e) → t' = t) ∧
      ∀ e, f = .store e → t' = t ∨ ∃ made s rest, Planned user payload (made ++ s :: rest) ∧ made ≠ [] ∧
        Step.Made made t t' ∧ s.MayFail e t' := by
  refine ⟨(abandoned_prepare h).unchanged, fun e' he => ?_⟩
  cases abandoned_prepare h with
  | untouched => exact .inl rfl
  | @between made rest s e _ hp hne hm hf =>
    rw [← TurnFault.store.inj he]
    exact .inr ⟨made, s, rest, hp, hne, hm, hf⟩

/-! ## A message of another gateway -/

namespace AbandonedAux

/-- A turn that greets. -/
def hello : Members := [("messages", .array [messageObject "user" "hi"]), ("model", .string "m")]

/-- A message that another gateway stored, under the id that this one draws second. -/
def foreign : Store.Message where
  id := 512389598928703489
  conversation := 7
  user := 9
  role := "user"
  content := "theirs"
  json := none
  model := "m"
  createdAt := 1700000000123
  updatedAt := 1700000000123

/-- A store that the gateway shares with another. -/
def shared : World := { tables := { messages := [foreign] }, ids := .ofNode 1, clock := 1700000000123 }

/-- The turn prepared there. -/
def refused : Outcome (Except TurnFault Prepared) := (prepare 20 1 hello).run.runOn (.standing 1700000000123) shared

/-- The fault of a turn. -/
def fault? {α : Type} : Except TurnFault α → Option TurnFault
  | .ok _ => none
  | .error f => some f

theorem comes_refused : Comes shared.tables (prepare 20 1 hello) (.error (.store .duplicateId)) refused.world.tables := by
  have hrun : Comes shared.tables (prepare 20 1 hello) refused.answer refused.world.tables := Routine.mayEnd_runOn _ _ shared
  have hf : fault? refused.answer = some (.store .duplicateId) := by decide +kernel
  cases ha : refused.answer with
  | ok turn =>
    rw [ha] at hf
    nomatch hf
  | error f =>
    rw [ha] at hf hrun
    obtain rfl : f = _ := Option.some.inj hf
    exact hrun

/-- The conversation that was opened for the turn stays. -/
theorem conversations_refused : refused.world.tables.conversations.length = 1 := by decide +kernel

end AbandonedAux

/-- The messages of a turn are refused for an id that another gateway has used: the conversation opened for it has been created, and
nothing else of what was planned. -/
theorem failed_prepare_leaves_second_id :
    ∃ made s rest, Planned 1 hello (made ++ s :: rest) ∧ made ≠ [] ∧ Step.Made made shared.tables refused.world.tables ∧
      s.MayFail .duplicateId refused.world.tables := by
  rcases (failed_prepare_leaves comes_refused).2 .duplicateId rfl with ht | h
  · have hlen := conversations_refused
    rw [ht] at hlen
    nomatch hlen
  · exact h

/-- A failed turn may leave a conversation behind. -/
theorem not_traceless_second_id :
    ¬ ∀ (t t' : Tables) (maxHistory : Nat) (user : Int) (payload : Members) (f : TurnFault),
      Comes t (prepare maxHistory user payload) (.error f) t' → t'.conversations = t.conversations ∧ t'.messages = t.messages := by
  intro h
  have hlen := conversations_refused
  rw [(h _ _ _ _ _ _ comes_refused).1] at hlen
  nomatch hlen

end InferenceGate.Chat
