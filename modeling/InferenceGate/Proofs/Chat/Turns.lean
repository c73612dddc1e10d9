import InferenceGate.Proofs.Chat.Runs
import InferenceGate.Proofs.Ids.Order
import InferenceGate.Proofs.Store.Effects

/-!
# What a turn does when it goes well

For each routine of a turn, what is known of a run that ends well: the ids it drew, the statements that were made in the tables one
after the other, and what it answers.
-/

namespace InferenceGate.Chat

open Json Store Ids

/-- The row that a message of a turn is stored as. -/
def rowOf (user conversation : Int) (model : String) (now : Int) (id : Int) (m : Message) : NewMessage where
  id := id
  conversation := conversation
  user := user
  role := m.role
  content := m.content
  json := some (Value.object m.raw).render
  model := model
  createdAt := now

section Turns

variable {user conversation now : Int} {model : String} {current : List Message} {clock : Clock} {w : World}

/-! ## Single steps -/

/-- A turn takes its time from one reading of the clock. -/
theorem ends_now {o : Outcome Int} : Ends (always Routine.now) clock w o ↔ o = ⟨stamp (clock 0), w, clock.after 1⟩ := by
  rw [ends_always]
  exact eq_comm

/-- A turn draws an id as the generator gives it. -/
theorem ends_nextId {o : Outcome Int} :
    Ends (always Routine.nextId) clock w o ↔
      o = ⟨(w.ids.next clock).id, { w with ids := (w.ids.next clock).generator }, clock.after (w.ids.next clock).readings⟩ := by
  rw [ends_always]
  exact eq_comm

/-- A change that ends well was made in the tables, and took no reading of the clock. -/
theorem ends_change {α : Type} {r : Routine (Except Store.Fault α)} {f : Tables → Except Store.Fault (α × Tables)}
    {o : Outcome α} (hr : r.runOn clock w = .unread clock (w.change f)) (h : Ends (stored r) clock w o) :
    ∃ t, f w.tables = .ok (o.answer, t) ∧ o.world = { w with tables := t } ∧ o.clock = clock := by
  rw [ends_stored, hr] at h
  obtain ⟨h1, h2, h3⟩ := Outcome.mk.inj h
  obtain ⟨t, hf, hw⟩ := World.change_ok (Prod.ext h1 h2)
  exact ⟨t, hf, hw, h3.symm⟩

/-- The same of a change that answers nothing. -/
theorem ends_update {r : Routine (Except Store.Fault Unit)} {f : Tables → Except Store.Fault Tables} {o : Outcome Unit}
    (hr : r.runOn clock w = .unread clock (w.update f)) (h : Ends (stored r) clock w o) :
    ∃ t, f w.tables = .ok t ∧ o.world = { w with tables := t } ∧ o.clock = clock := by
  rw [ends_stored, hr] at h
  obtain ⟨h1, h2, h3⟩ := Outcome.mk.inj h
  obtain ⟨t, hf, hw⟩ := World.update_ok (Prod.ext h1 h2)
  exact ⟨t, hf, hw, h3.symm⟩

/-- Messages that are inserted, be they none. -/
theorem ends_insertMessages {ms : List NewMessage} {o : Outcome Unit}
    (h : Ends (stored (Routine.insertMessages ms)) clock w o) :
    ∃ t, w.tables.insertMessages ms = .ok t ∧ o.world = { w with tables := t } ∧ o.clock = clock := by
  cases ms with
  | nil =>
    rw [ends_stored] at h
    obtain ⟨h1, h2, h3⟩ := Outcome.mk.inj h
    exact ⟨w.tables, rfl, h2.symm, h3.symm⟩
  | cons m ms => exact ends_update (f := fun t => t.insertMessages (m :: ms)) rfl h

/-- A question that ends well is answered by the tables and changes nothing. -/
theorem ends_ask {α : Type} {r : Routine (Except Store.Fault α)} {f : Tables → α} {o : Outcome α}
    (hr : r.runOn clock w = ⟨w.ask f, w, clock⟩) (h : Ends (stored r) clock w o) : o = ⟨f w.tables, w, clock⟩ := by
  rw [ends_stored, hr] at h
  obtain ⟨a, w', clock'⟩ := o
  obtain ⟨h1, rfl, rfl⟩ := Outcome.mk.inj h
  have ha : a = f w.tables := World.ask_ok h1
  rw [ha]

/-- The newest turns that are asked for, be they none. -/
theorem ends_recentTurns {n : Nat} {o : Outcome (List Store.Message)}
    (h : Ends (stored (Routine.recentTurns conversation n)) clock w o) :
    o = ⟨w.tables.recentTurns conversation n, w, clock⟩ := by
  cases n with
  | zero =>
    have hr : (Routine.recentTurns conversation 0).runOn clock w = ⟨.ok (w.tables.recentTurns conversation 0), w, clock⟩ := rfl
    rw [ends_stored, hr] at h
    obtain ⟨a, w', clock'⟩ := o
    obtain ⟨h1, rfl, rfl⟩ := Outcome.mk.inj h
    have ha : _ = a := Except.ok.inj h1
    rw [ha]
  | succ n => exact ends_ask (f := fun t => t.recentTurns conversation (n + 1)) rfl h

/-! ## Storing a turn -/

/-- The rows of messages, with the ids drawn for them in their order. -/
theorem ends_newMessages {ms : List Message} {o : Outcome (List NewMessage)}
    (h : Ends (newMessages user conversation model now ms) clock w o) :
    ∃ ids, ids.length = ms.length ∧ o.answer = List.zipWith (rowOf user conversation model now) ids ms ∧
      Generator.Draws w.ids clock ids o.world.ids o.clock ∧ o.world = { w with ids := o.world.ids } := by
  induction ms generalizing clock w o with
  | nil =>
    have := ends_pure.1 h
    subst this
    exact ⟨[], rfl, rfl, .none _ _, rfl⟩
  | cons m ms ih =>
    obtain ⟨o₁, h₁, h⟩ := ends_bind.1 h
    obtain ⟨o₂, h₂, h⟩ := ends_bind.1 h
    have := ends_pure.1 h
    subst this
    obtain ⟨o₀, h₀, h₁⟩ := ends_bind.1 h₁
    have := ends_nextId.1 h₀
    subst this
    have := ends_pure.1 h₁
    subst this
    obtain ⟨ids, hl, ha, hd, hw⟩ := ih h₂
    refine ⟨(w.ids.next clock).id :: ids, by simp [hl], by simp [ha, rowOf], .next hd, ?_⟩
    show o₂.world = { w with ids := o₂.world.ids }
    rw [hw]

/-- The system message of a turn, if it has one, written in the tables. -/
def WritesSystem (rows : List NewMessage) (t t' : Tables) : Prop :=
  match rows with
  | [] => t' = t
  | m :: _ => ∃ id, t.upsertSystem m = .ok (id, t')

/-- A system message that is written is written or rewritten, and nothing else is changed. -/
theorem ends_writeSystem {rows : List NewMessage} {o : Outcome Unit} (h : Ends (writeSystem rows) clock w o) :
    ∃ t, WritesSystem rows w.tables t ∧ o.world = { w with tables := t } ∧ o.clock = clock := by
  cases rows with
  | nil =>
    have := ends_pure.1 h
    subst this
    exact ⟨w.tables, rfl, rfl, rfl⟩
  | cons m rows =>
    obtain ⟨o₁, h₁, h⟩ := ends_bind.1 h
    have := ends_pure.1 h
    subst this
    obtain ⟨t, ht, hw, hc⟩ := ends_change rfl h₁
    exact ⟨t, ⟨_, ht⟩, hw, hc⟩

/-- What storing a turn at a time with some ids makes of the tables: its system message is written, the messages of the user are
appended, and the figures of the conversation are brought up to date. -/
structure TurnSaved (user conversation : Int) (model : String) (now : Int) (current : List Message) (lead said : List Int)
    (t t' : Tables) : Prop where
  lead_length : lead.length = (systemOf? current).toList.length
  said_length : said.length = (current.filter Message.isUser).length
  steps : ∃ t₁ t₂,
    WritesSystem (List.zipWith (rowOf user conversation model now) lead (systemOf? current).toList) t t₁ ∧
    t₁.insertMessages (List.zipWith (rowOf user conversation model now) said (current.filter Message.isUser)) = .ok t₂ ∧
    t₂.refresh conversation (some model) now = .ok t'

/-- A turn that is stored has saved its rows under ids drawn one after the other. -/
theorem ends_storeTurn {o : Outcome Unit} (h : Ends (storeTurn user conversation model current) clock w o) :
    ∃ lead said t, TurnSaved user conversation model (stamp (clock 0)) current lead said w.tables t ∧
      Generator.Draws w.ids (clock.after 1) (lead ++ said) o.world.ids o.clock ∧
      o.world = { w with tables := t, ids := o.world.ids } := by
  obtain ⟨o₀, h₀, h⟩ := ends_bind.1 h
  have := ends_now.1 h₀
  subst this
  obtain ⟨o₁, h₁, h⟩ := ends_bind.1 h
  obtain ⟨lead, hl, ha, hd, hw⟩ := ends_newMessages h₁
  obtain ⟨o₂, h₂, h⟩ := ends_bind.1 h
  obtain ⟨said, hl', ha', hd', hw'⟩ := ends_newMessages h₂
  obtain ⟨o₃, h₃, h⟩ := ends_bind.1 h
  obtain ⟨t₁, ht₁, hw₁, hc₁⟩ := ends_writeSystem h₃
  obtain ⟨o₄, h₄, h⟩ := ends_bind.1 h
  obtain ⟨t₂, ht₂, hw₂, hc₂⟩ := ends_insertMessages h₄
  obtain ⟨t₃, ht₃, hw₃, hc₃⟩ := ends_update rfl h
  rw [ha] at ht₁
  rw [ha'] at ht₂
  have e₂ : o₂.world = { w with ids := o₂.world.ids } := by rw [hw', hw]
  have et : o₂.world.tables = w.tables := by rw [e₂]
  rw [hw₁] at ht₂ hw₂
  rw [hw₂] at ht₃ hw₃
  rw [et] at ht₁
  refine ⟨lead, said, t₃, ⟨hl, hl', t₁, t₂, ht₁, ht₂, ht₃⟩, ?_, ?_⟩
  · rw [hw₃, hc₃, hc₂, hc₁]
    exact hd.trans hd'
  · rw [hw₃, e₂]

/-! ## Preparing -/

/-- Options that are read leave the payload without the private members. -/
theorem takeOptions_ok {payload rest : Members} {options : TurnOptions} (h : takeOptions payload = (.ok options, rest)) :
    rest = (payload.erase "new_chat").erase "conversation_id" := by
  unfold takeOptions at h
  simp only at h
  split at h
  · nomatch (Prod.mk.inj h).1
  · split at h
    · exact (Prod.mk.inj h).2.symm
    · split at h
      · exact (Prod.mk.inj h).2.symm
      · nomatch (Prod.mk.inj h).1

/-- A prepared turn that continues a conversation: it is the user's, and the body holds what the tables hold of it. -/
structure Continues (maxHistory : Nat) (user conversation : Int) (payload : Members) (model : String) (current : List Message)
    (clock : Clock) (w : World) (o : Outcome Prepared) : Prop where
  shape : continues current = true
  owned : ∃ c, w.tables.findConversation conversation user = some c
  answer : o.answer =
    { payload := payload.insert "messages" (.array (merge (w.tables.latestSystem conversation)
        (w.tables.recentTurns conversation maxHistory) current)), conversation, isNew := false, model }
  saved : ∃ lead said t, TurnSaved user conversation model (stamp (clock 0)) current lead said w.tables t ∧
    Generator.Draws w.ids (clock.after 1) (lead ++ said) o.world.ids o.clock ∧
    o.world = { w with tables := t, ids := o.world.ids }

/-- The row of the conversation that a turn opens under the next id. -/
def opened (user : Int) (model : String) (current : List Message) (clock : Clock) (w : World) : NewConversation where
  id := (w.ids.next clock).id
  user := user
  title := title current
  model := model
  createdAt := stamp (clock.after (w.ids.next clock).readings 0)

/-- What is left of the clock when a turn has opened its conversation. -/
def clockOpened (clock : Clock) (w : World) : Clock := (clock.after (w.ids.next clock).readings).after 1

/-- A prepared turn that opens a conversation. -/
structure Opens (user : Int) (payload : Members) (model : String) (current : List Message) (clock : Clock) (w : World)
    (o : Outcome Prepared) : Prop where
  answer : o.answer =
    { payload := payload.insert "messages" (.array (current.map fun m => Value.object m.raw))
      conversation := (w.ids.next clock).id, isNew := true, model }
  saved : ∃ row t₀, w.tables.createConversation (opened user model current clock w) = .ok (row, t₀) ∧
    ∃ lead said t, TurnSaved user (w.ids.next clock).id model (stamp (clockOpened clock w 0)) current lead said t₀ t ∧
      Generator.Draws (w.ids.next clock).generator ((clockOpened clock w).after 1) (lead ++ said) o.world.ids o.clock ∧
      o.world = { w with tables := t, ids := o.world.ids }

/-- A conversation that is opened is created under the id drawn for it. -/
theorem ends_openConversation {o : Outcome Int} (h : Ends (openConversation user model current) clock w o) :
    ∃ row t, w.tables.createConversation (opened user model current clock w) = .ok (row, t) ∧
      o = ⟨(w.ids.next clock).id, { w with tables := t, ids := (w.ids.next clock).generator }, clockOpened clock w⟩ := by
  obtain ⟨o₁, h₁, h⟩ := ends_bind.1 h
  have := ends_nextId.1 h₁
  subst this
  obtain ⟨o₂, h₂, h⟩ := ends_bind.1 h
  have := ends_now.1 h₂
  subst this
  obtain ⟨o₃, h₃, h⟩ := ends_bind.1 h
  have := ends_pure.1 h
  subst this
  obtain ⟨t, ht, hw, hc⟩ := ends_change (f := fun t => t.createConversation (opened user model current clock w)) rfl h₃
  refine ⟨o₃.answer, t, ht, ?_⟩
  have hid : o₃.answer.id = (w.ids.next clock).id := by
    change w.tables.createConversation (opened user model current clock w) = .ok (o₃.answer, t) at ht
    rw [Tables.createConversation_eq] at ht
    split at ht
    · nomatch ht
    · rw [← (Prod.mk.inj (Except.ok.inj ht)).1]
      rfl
  rw [hid, hw, hc]
  rfl

/-- A continuation that is checked is well shaped, and its conversation is there. -/
theorem ends_checkContinuation {o : Outcome Unit} (h : Ends (checkContinuation user conversation current) clock w o) :
    continues current = true ∧ (∃ c, w.tables.findConversation conversation user = some c) ∧ o = ⟨(), w, clock⟩ := by
  obtain ⟨o₁, h₁, h⟩ := ends_bind.1 h
  have := ends_ask (f := fun t => t.findConversation conversation user) rfl h₁
  subst this
  cases hf : w.tables.findConversation conversation user with
  | none =>
    simp only [hf, Option.isNone_none, if_true] at h
    obtain ⟨_, h, -⟩ := ends_bind.1 h
    exact absurd h not_ends_throw
  | some c =>
    cases hc : continues current with
    | false =>
      simp only [hf, hc, Option.isNone_some, Bool.not_false, Bool.false_eq_true, if_false, if_true] at h
      exact absurd h not_ends_throw
    | true =>
      simp only [hf, hc, Option.isNone_some, Bool.not_true, Bool.false_eq_true, if_false] at h
      exact ⟨rfl, ⟨c, rfl⟩, ends_pure.1 h⟩

/-- What a turn that continues a conversation is sent with is read of the tables. -/
theorem ends_continued {maxHistory : Nat} {o : Outcome (List Value)}
    (h : Ends (continued maxHistory conversation current) clock w o) :
    o = ⟨merge (w.tables.latestSystem conversation) (w.tables.recentTurns conversation maxHistory) current, w, clock⟩ := by
  obtain ⟨o₁, h₁, h⟩ := ends_bind.1 h
  have := ends_ask (f := fun t => t.latestSystem conversation) rfl h₁
  subst this
  obtain ⟨o₂, h₂, h⟩ := ends_bind.1 h
  have := ends_recentTurns h₂
  subst this
  exact ends_pure.1 h

/-- A prepared turn: its messages and options are read, and it continues a conversation or opens one. -/
theorem ends_prepare {maxHistory : Nat} {payload : Members} {o : Outcome Prepared}
    (h : Ends (prepare maxHistory user payload) clock w o) :
    ∃ current options, parseMessages payload = .ok current ∧ (takeOptions payload).1 = .ok options ∧
      match options.conversation.filter fun _ => options.isContinuation with
      | some conversation => Continues maxHistory user conversation ((payload.erase "new_chat").erase "conversation_id")
          (modelOf payload) current clock w o
      | none => Opens user ((payload.erase "new_chat").erase "conversation_id") (modelOf payload) current clock w o := by
  unfold prepare at h
  split at h
  · exact absurd h not_ends_throw
  · rename_i current hm
    split at h
    · exact absurd h not_ends_throw
    · rename_i options rest ho
      refine ⟨current, options, hm, by rw [ho], ?_⟩
      rw [takeOptions_ok ho] at h
      unfold prepareRead at h
      cases hc : options.conversation.filter fun _ => options.isContinuation with
      | some conversation =>
        rw [hc] at h
        obtain ⟨o₁, h₁, h⟩ := ends_bind.1 h
        obtain ⟨hs, hf, he⟩ := ends_checkContinuation h₁
        subst he
        obtain ⟨o₂, h₂, h⟩ := ends_bind.1 h
        have := ends_continued h₂
        subst this
        obtain ⟨o₃, h₃, h⟩ := ends_bind.1 h
        have := ends_pure.1 h
        subst this
        exact ⟨hs, hf, rfl, ends_storeTurn h₃⟩
      | none =>
        rw [hc] at h
        obtain ⟨o₁, h₁, h⟩ := ends_bind.1 h
        obtain ⟨row, t₀, ht, he⟩ := ends_openConversation h₁
        subst he
        obtain ⟨o₂, h₂, h⟩ := ends_bind.1 h
        have := ends_pure.1 h
        subst this
        exact ⟨rfl, row, t₀, ht, ends_storeTurn h₂⟩

/-! ## Finishing -/

/-- The text of a reply that is stored: one that is not blank. -/
def replyText? (text : Option String) : Option String := text.filter fun t => !Text.isBlankText t

/-- What finishing a turn makes of the tables, with an id for the reply if there is one. -/
inductive ReplySaved (user conversation : Int) (model : String) (now : Int) (text : Option String) :
    List Int → Tables → Tables → Prop where
  | silent {t t' : Tables} : replyText? text = none → t.refresh conversation (some model) now = .ok t' →
      ReplySaved user conversation model now text [] t t'
  | reply {t t₁ t' : Tables} {id : Int} {said : String} : replyText? text = some said →
      t.insertMessages [replyMessage id user conversation model said now] = .ok t₁ →
      t₁.refresh conversation (some model) now = .ok t' → ReplySaved user conversation model now text [id] t t'

/-- A reply that is blank is not stored. -/
theorem runOn_storeReply_none {text : Option String} (h : replyText? text = none) :
    (storeReply conversation user model now text).runOn clock w = ⟨.ok (), w, clock⟩ := by
  unfold replyText? at h
  unfold storeReply
  rw [h]
  rfl

/-- Another reply is inserted under the next id. -/
theorem runOn_storeReply_some {text : Option String} {said : String} (h : replyText? text = some said) :
    (storeReply conversation user model now text).runOn clock w =
      .unread (clock.after (w.ids.next clock).readings)
        (World.update { w with ids := (w.ids.next clock).generator }
          (·.insertMessages [replyMessage (w.ids.next clock).id user conversation model said now])) := by
  unfold replyText? at h
  unfold storeReply
  rw [h]
  rfl

/-- A turn finished without a fault. -/
theorem ends_finish {text : Option String} {o : Outcome Unit} (h : Ends (finish conversation user model text) clock w o) :
    ∃ ids t, ReplySaved user conversation model (stamp (clock 0)) text ids w.tables t ∧
      Generator.Draws w.ids (clock.after 1) ids o.world.ids o.clock ∧ o.world = { w with tables := t, ids := o.world.ids } := by
  obtain ⟨o₁, h₁, h⟩ := ends_bind.1 h
  have := ends_now.1 h₁
  subst this
  obtain ⟨o₂, h₂, h⟩ := ends_bind.1 h
  have h₂ := ends_always.1 h₂
  obtain ⟨o₃, h₃, h⟩ := ends_bind.1 h
  obtain ⟨hsaved, hw₃, hc₃⟩ := Outcome.mk.inj (ends_stored.1 h)
  obtain ⟨t, ht, hw, hc⟩ := ends_update (f := fun t => t.refresh conversation (some model) (stamp (clock 0))) rfl h₃
  rw [← hw₃, ← hc₃, hw, hc]
  cases hr : replyText? text with
  | none =>
    rw [runOn_storeReply_none hr] at h₂
    subst h₂
    exact ⟨[], t, .silent hr ht, .none _ _, rfl⟩
  | some said =>
    rw [runOn_storeReply_some hr] at h₂
    subst h₂
    obtain ⟨t₁, ht₁, hw₁⟩ := World.update_ok (Prod.ext hsaved rfl)
    unfold Outcome.unread at ht ⊢
    simp only [hw₁] at ht ⊢
    exact ⟨[(w.ids.next (clock.after 1)).id], t, .reply hr ht₁ ht, .single _ _, rfl⟩

end Turns

end InferenceGate.Chat
