import InferenceGate.Proofs.Chat.Log
import InferenceGate.Proofs.Store.Numbered

/-!
# There is room for every turn

In a store whose rows are numbered by the generator, the rows of a turn get ids that no row has. So while the store can be reached and
ids last, a conversation is opened and a turn is stored without a fault.
-/

namespace InferenceGate.Chat

open Json Store Ids LogAux

section Room

variable {user conversation now : Int} {model : String} {current : List Message} {clock : Clock} {w : World}

/-! ## Single steps -/

/-- A question to a store that can be reached is answered. -/
theorem ends_of_ask {α : Type} {r : Routine (Except Store.Fault α)} {f : Tables → α} (hr : r.runOn clock w = ⟨w.ask f, w, clock⟩)
    (hw : w.reachable = true) : Ends (stored r) clock w ⟨f w.tables, w, clock⟩ := by
  rw [ends_stored, hr]
  unfold World.ask
  rw [if_pos hw]

/-- A change that the tables allow is made in a store that can be reached. -/
theorem ends_of_change {α : Type} {r : Routine (Except Store.Fault α)} {f : Tables → Except Store.Fault (α × Tables)} {a : α}
    {t : Tables} (hr : r.runOn clock w = .unread clock (w.change f)) (hw : w.reachable = true) (h : f w.tables = .ok (a, t)) :
    Ends (stored r) clock w ⟨a, { w with tables := t }, clock⟩ := by
  rw [ends_stored, hr, World.change_of_ok hw h]
  rfl

/-- The same of a change that answers nothing. -/
theorem ends_of_update {r : Routine (Except Store.Fault Unit)} {f : Tables → Except Store.Fault Tables} {t : Tables}
    (hr : r.runOn clock w = .unread clock (w.update f)) (hw : w.reachable = true) (h : f w.tables = .ok t) :
    Ends (stored r) clock w ⟨(), { w with tables := t }, clock⟩ := by
  refine ends_of_change hr hw ?_
  rw [h]
  rfl

/-- The newest turns are read, be they none. -/
theorem ends_of_recentTurns (n : Nat) (hw : w.reachable = true) :
    Ends (stored (Routine.recentTurns conversation n)) clock w ⟨w.tables.recentTurns conversation n, w, clock⟩ := by
  cases n with
  | zero => exact ends_stored.2 rfl
  | succ n => exact ends_of_ask (f := fun t => t.recentTurns conversation (n + 1)) rfl hw

/-- Messages that the tables have room for are inserted, be they none. -/
theorem ends_of_insertMessages {ms : List NewMessage} (clock : Clock) (hw : w.reachable = true) (h : w.tables.Admits ms) :
    Ends (stored (Routine.insertMessages ms)) clock w
      ⟨(), { w with tables := { w.tables with messages := w.tables.messages ++ ms.map NewMessage.row } }, clock⟩ := by
  cases ms with
  | nil =>
    rw [List.map_nil, List.append_nil]
    exact ends_stored.2 rfl
  | cons m ms => exact ends_of_update (f := fun t => t.insertMessages (m :: ms)) rfl hw (Tables.insertMessages_of_admits h)

/-- Rows are numbered for messages, whatever they are. -/
theorem exists_ends_newMessages (user conversation : Int) (model : String) (now : Int) (ms : List Message) (clock : Clock) (w : World) :
    ∃ o, Ends (newMessages user conversation model now ms) clock w o := by
  induction ms generalizing clock w with
  | nil => exact ⟨_, ends_pure.2 rfl⟩
  | cons m ms ih =>
    obtain ⟨o, ho⟩ := ih (clock.after (w.ids.next clock).readings) { w with ids := (w.ids.next clock).generator }
    have hrow : Ends (newMessage user conversation model now m) clock w
        ⟨rowOf user conversation model now (w.ids.next clock).id m, { w with ids := (w.ids.next clock).generator },
          clock.after (w.ids.next clock).readings⟩ :=
      ends_bind.2 ⟨_, ends_nextId.2 rfl, ends_pure.2 rfl⟩
    exact ⟨_, ends_bind.2 ⟨_, hrow, ends_bind.2 ⟨o, ho, ends_pure.2 rfl⟩⟩⟩

/-- What is in range when all is done was so when the first part was. -/
theorem inRange_of_bind {α β : Type} {r : TurnRoutine α} {f : α → TurnRoutine β} (h : w.ids.WellFormed)
    (hr : ((ExceptT.run (r >>= f)).runOn clock w).world.ids.InRange) : ((ExceptT.run r).runOn clock w).world.ids.InRange := by
  rw [runOn_bind_eq] at hr
  exact (Routine.ahead_runOn _ _ (Routine.ahead_runOn _ clock h).wellFormed).inRange hr

/-! ## Storing a turn -/

/-- Writing a system message under a new id cannot fail. -/
theorem exists_upsertSystem {t : Tables} {m : NewMessage} (h : ∀ r ∈ t.messages, r.id ≠ m.id) :
    ∃ id t', t.upsertSystem m = .ok (id, t') := by
  rw [Tables.upsertSystem_eq]
  cases t.latestSystem m.conversation with
  | some kept => exact ⟨_, _, rfl⟩
  | none =>
    have hnone : ¬ ∃ r ∈ t.messages, r.id = m.id := fun ⟨r, hr, he⟩ => h r hr he
    rw [Tables.insertMessage_eq, if_neg hnone]
    exact ⟨_, _, rfl⟩

/-- The system message of a turn is written under an id that is not below the floor of the rows; the rows are then below any floor that
is past the id, and the conversations are as they were. -/
theorem ends_of_writeSystem {rows : List NewMessage} {floor floor' : Int} (clock : Clock) (hw : w.reachable = true)
    (hb : w.tables.Below floor) (hle : floor ≤ floor') (hid : ∀ row ∈ rows, floor ≤ row.id ∧ row.id < floor') :
    ∃ t, Ends (writeSystem rows) clock w ⟨(), { w with tables := t }, clock⟩ ∧ t.Below floor' ∧
      t.conversations = w.tables.conversations := by
  cases rows with
  | nil => exact ⟨w.tables, ends_pure.2 rfl, hb.mono hle, rfl⟩
  | cons m rows =>
    obtain ⟨hge, hlt⟩ := hid m List.mem_cons_self
    obtain ⟨id, t, ht⟩ := exists_upsertSystem fun r hr => Int.ne_of_lt (Int.lt_of_lt_of_le (hb.messages r hr) hge)
    refine ⟨t, ends_bind.2 ⟨_, ends_of_change rfl hw ht, ends_pure.2 rfl⟩, Tables.below_upsert (hb.mono hle) hlt ht, ?_⟩
    rcases Tables.upsertSystem_rows ht with ⟨-, rfl⟩ | ⟨kept, -, rfl⟩ <;> rfl

/-- Rows with different ids, none below a floor, have room in tables below it. -/
theorem admits_of_below {t : Tables} {floor : Int} {ms : List NewMessage} (hb : t.Below floor) (hge : ∀ m ∈ ms, floor ≤ m.id)
    (hd : ms.Pairwise fun a b => a.id ≠ b.id) : t.Admits ms :=
  ⟨fun m hm r hr => Int.ne_of_lt (Int.lt_of_lt_of_le (hb.messages r hr) (hge m hm)), hd⟩

/-- The writes of a turn go well when its rows have ids above those of all rows, the system message the least of them. -/
theorem exists_ends_writes {system users : List NewMessage} {floor floor' : Int} (model : String) (now : Int) (clock : Clock)
    (hw : w.reachable = true) (hc : ∃ c ∈ w.tables.conversations, c.id = conversation) (hb : w.tables.Below floor) (hle : floor ≤ floor')
    (hs : ∀ row ∈ system, floor ≤ row.id ∧ row.id < floor') (hu : ∀ row ∈ users, floor' ≤ row.id)
    (hd : users.Pairwise fun a b => a.id ≠ b.id) :
    ∃ o, Ends (do
      writeSystem system
      stored (Routine.insertMessages users)
      stored (Routine.refresh conversation (some model) now)) clock w o := by
  obtain ⟨t, h₁, hb', hconv⟩ := ends_of_writeSystem clock hw hb hle hs
  have h₂ := ends_of_insertMessages (w := { w with tables := t }) clock hw (admits_of_below hb' hu hd)
  rw [← hconv] at hc
  have h₃ : Tables.refresh { t with messages := t.messages ++ users.map NewMessage.row } conversation (some model) now = .ok _ :=
    (Tables.refresh_eq _ _ _ _).trans (if_pos hc)
  exact ⟨_, ends_bind.2 ⟨_, h₁, ends_bind.2 ⟨_, h₂, ends_of_update rfl hw h₃⟩⟩⟩

/-- A turn in a conversation that exists is stored. The ids are drawn before anything is written, so they are in range whatever the writes
come to. -/
theorem exists_ends_storeTurn (hn : w.Numbered) (hw : w.reachable = true) (hc : ∃ c ∈ w.tables.conversations, c.id = conversation)
    (hr : ((ExceptT.run (storeTurn user conversation model current)).runOn clock w).world.ids.InRange) :
    ∃ o, Ends (storeTurn user conversation model current) clock w o := by
  have h₀ : Ends (always Routine.now) clock w ⟨stamp (clock 0), w, clock.after 1⟩ := ends_now.2 rfl
  obtain ⟨o₁, h₁⟩ := exists_ends_newMessages user conversation model (stamp (clock 0)) (systemOf? current).toList (clock.after 1) w
  obtain ⟨lead, -, ha₁, hd₁, hw₁⟩ := ends_newMessages h₁
  obtain ⟨o₂, h₂⟩ := exists_ends_newMessages user conversation model (stamp (clock 0)) (current.filter Message.isUser) o₁.clock o₁.world
  obtain ⟨said, -, ha₂, hd₂, hw₂⟩ := ends_newMessages h₂
  obtain ⟨hwf₁, -⟩ := hd₁.wellFormed hn.wellFormed
  obtain ⟨hwf₂, hle₂⟩ := hd₂.wellFormed hwf₁
  have hr₂ : o₂.world.ids.InRange := by
    unfold storeTurn at hr
    rw [runOn_bind_of_ends h₀, runOn_bind_of_ends h₁, runOn_bind_of_ends h₂] at hr
    exact (Routine.ahead_runOn _ _ hwf₂).inRange hr
  have hr₁ : o₁.world.ids.InRange := Nat.lt_of_le_of_lt hle₂ hr₂
  obtain ⟨hf₁, -, hb₁⟩ := hd₁.ascending hn.wellFormed hr₁
  obtain ⟨-, hp₂, hb₂⟩ := hd₂.ascending hwf₁ hr₂
  have ht : o₂.world.tables = w.tables := by rw [hw₂, hw₁]
  have hreach : o₂.world.reachable = true := by
    rw [hw₂, hw₁]
    exact hw
  have hbelow : w.tables.Below w.ids.floor := hn.below (Nat.lt_of_le_of_lt (hd₁.wellFormed hn.wellFormed).2 hr₁)
  have hlead : ∀ row ∈ o₁.answer, w.ids.floor ≤ row.id ∧ row.id < o₁.world.ids.floor := by
    intro row hrow
    rw [ha₁] at hrow
    obtain ⟨id, hid, m, -, rfl⟩ := mem_rows hrow
    exact hb₁ id hid
  have hsaid : ∀ row ∈ o₂.answer, o₁.world.ids.floor ≤ row.id := by
    intro row hrow
    rw [ha₂] at hrow
    obtain ⟨id, hid, m, -, rfl⟩ := mem_rows hrow
    exact (hb₂ id hid).1
  have hdistinct : o₂.answer.Pairwise fun a b => a.id ≠ b.id := by
    rw [ha₂]
    exact (pairwise_rows hp₂ _).imp Int.ne_of_lt
  rw [← ht] at hc hbelow
  obtain ⟨o₃, h₃⟩ := exists_ends_writes model (stamp (clock 0)) o₂.clock hreach hc hbelow hf₁ hlead hsaid hdistinct
  exact ⟨o₃, ends_bind.2 ⟨_, h₀, ends_bind.2 ⟨o₁, h₁, ends_bind.2 ⟨o₂, h₂, h₃⟩⟩⟩⟩

/-! ## Opening a conversation -/

/-- A conversation is opened under the next id, and the rows are numbered by the generator as before. -/
theorem exists_ends_openConversation (user : Int) (model : String) (current : List Message) (hn : w.Numbered)
    (hw : w.reachable = true) (hr : (w.ids.next clock).generator.InRange) :
    ∃ t, Ends (openConversation user model current) clock w
        ⟨(w.ids.next clock).id, { w with tables := t, ids := (w.ids.next clock).generator }, clockOpened clock w⟩ ∧
      World.Numbered { w with tables := t, ids := (w.ids.next clock).generator } ∧
      ∃ c ∈ t.conversations, c.id = (w.ids.next clock).id := by
  have hb := hn.below (hn.wellFormed.inRange_of_next hr)
  have hnone : ¬ ∃ c ∈ w.tables.conversations, c.id = (w.ids.next clock).id := by
    rintro ⟨c, hc, he⟩
    exact Int.ne_of_lt (Int.lt_of_lt_of_le (hb.conversations c hc) (hn.wellFormed.floor_le_id hr)) he
  have hcreate : w.tables.createConversation (opened user model current clock w) =
      .ok ((opened user model current clock w).row,
        { w.tables with conversations := w.tables.conversations ++ [(opened user model current clock w).row] }) :=
    (Tables.createConversation_eq _ _).trans (if_neg hnone)
  have h₃ : Ends (stored (Routine.createConversation (opened user model current clock w))) (clockOpened clock w)
      { w with ids := (w.ids.next clock).generator } _ :=
    ends_of_change (f := fun t => t.createConversation (opened user model current clock w)) rfl hw hcreate
  refine ⟨_, ends_bind.2 ⟨_, ends_nextId.2 rfl, ends_bind.2 ⟨_, ends_now.2 rfl, ends_bind.2 ⟨_, h₃, ends_pure.2 rfl⟩⟩⟩, ?_,
    (opened user model current clock w).row, List.mem_append_right _ (List.mem_singleton_self _), rfl⟩
  refine ⟨hn.wellFormed.next clock, fun _ => Tables.below_create (hb.mono (hn.wellFormed.floor_le hr)) ?_ hcreate⟩
  exact hn.wellFormed.id_lt_floor hr

end Room

end InferenceGate.Chat
