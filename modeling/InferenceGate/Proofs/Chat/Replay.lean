import InferenceGate.Proofs.Chat.Log
import InferenceGate.Proofs.Json.Equality
import InferenceGate.Proofs.Json.Members

/-!
# A continuation replays the log

A history is a run of turns that are prepared and finished, of any users and in any order, with the log of every conversation kept
beside the tables (`History`). In a history the tables hold the logs, so what a turn that continues a conversation sends is told by
the log alone: `continuation_replays_log`.
-/

namespace InferenceGate.Chat

open Json Store Ids LogAux

/-- A world and what is left of the clock, with the log of every conversation. -/
structure Scene where
  world : World
  clock : Clock
  logs : Int → Log

/-- A run of turns that go well, from empty tables, on a clock that never runs back; what is stored reads back. -/
inductive History (maxHistory : Nat) : Scene → Prop where
  | start {w : World} {clock : Clock} {node : Nat} : w.tables = {} → w.ids = .ofNode node → clock.Steady →
      History maxHistory ⟨w, clock, fun _ => {}⟩
  | prepared {s : Scene} {user : Int} {payload : Members} {current : List Message} {o : Outcome Prepared} :
      History maxHistory s → parseMessages payload = .ok current → (∀ m ∈ current, ReadsBack (.object m.raw)) →
      Ends (prepare maxHistory user payload) s.clock s.world o →
      History maxHistory ⟨o.world, o.clock, amend s.logs o.answer.conversation (Log.turn current)⟩
  | finished {s : Scene} {conversation user : Int} {model : String} {text : Option String} {o : Outcome Unit} :
      History maxHistory s → (∀ said, replyText? text = some said → ReadsBack (messageObject "assistant" said)) →
      Ends (finish conversation user model text) s.clock s.world o →
      History maxHistory ⟨o.world, o.clock, amend s.logs conversation (Log.reply text)⟩

namespace ReplayAux

variable {user conversation : Int} {model : String} {current : List Message} {t t' : Tables} {floor floor' latest : Int}
  {logs : Int → Log}

/-! ## Logs -/

/-- Two changes of one log in a row. -/
theorem amend_amend (logs : Int → Log) (c : Int) (f g : Log → Log) :
    amend (amend logs c f) c g = amend logs c fun l => g (f l) := by
  funext c'
  unfold amend
  split <;> rfl

/-- A change that changes nothing. -/
theorem amend_self (logs : Int → Log) (c : Int) : amend logs c (fun l => l) = logs := by
  funext c'
  unfold amend
  split <;> rfl

/-! ## One turn -/

/-- Writing a system message leaves the conversations as they are. -/
theorem conversations_of_writesSystem {rows : List NewMessage} (h : WritesSystem rows t t') :
    t'.conversations = t.conversations := by
  cases rows with
  | nil =>
    change t' = t at h
    rw [h]
  | cons m rows =>
    obtain ⟨id, h⟩ := h
    rcases Tables.upsertSystem_rows h with ⟨-, rfl⟩ | ⟨kept, -, rfl⟩ <;> rfl

/-- The system message of a turn is a message of the turn, of the system. -/
theorem systemOf?_spec {m : Message} (h : systemOf? current = some m) : m ∈ current ∧ m.role = "system" := by
  unfold systemOf? at h
  refine ⟨List.mem_reverse.1 (List.mem_of_find?_eq_some h), ?_⟩
  simpa [Message.isSystem] using List.find?_some h

/-- The system message of a turn, written under ids that go up from the floor: the slot is taken, and the floor is past the ids. -/
theorem Replays.lead (h : Replays t floor latest logs) {lead : List Int} {t₁ : Tables}
    (hl : lead.length = (systemOf? current).toList.length)
    (hw : WritesSystem (List.zipWith (rowOf user conversation model latest) lead (systemOf? current).toList) t t₁)
    (hb : ∀ id ∈ lead, floor ≤ id ∧ id < floor') (hk : ∃ c ∈ t.conversations, c.id = conversation)
    (hr : ∀ m ∈ current, ReadsBack (.object m.raw)) :
    ∃ mid, (mid = floor ∨ ∃ id ∈ lead, mid = id + 1) ∧
      Replays t₁ mid latest (amend logs conversation fun l => { l with system := (ownSystem? current).or l.system }) := by
  unfold ownSystem?
  cases hs : systemOf? current with
  | none =>
    rw [hs, Option.toList_none, List.zipWith_nil_right] at hw
    change t₁ = t at hw
    subst hw
    refine ⟨floor, .inl rfl, ?_⟩
    have hid : amend logs conversation (fun l => { l with system := (none : Option Value).or l.system }) = logs :=
      amend_self logs conversation
    rw [Option.map_none, hid]
    exact h
  | some m =>
    obtain ⟨hm, hrole⟩ := systemOf?_spec hs
    rw [hs] at hl hw
    obtain ⟨id, rfl⟩ := List.length_eq_one_iff.1 hl
    obtain ⟨id', hw⟩ := hw
    have hid := hb id (by simp)
    refine ⟨id + 1, .inr ⟨id, by simp, rfl⟩, ?_⟩
    have hsys : (rowOf user conversation model latest id m).row.isSystem = true := by
      simp [NewMessage.row, Store.Message.isSystem, rowOf, hrole]
    exact h.write hsys rfl ⟨hid.1, Int.lt_succ id⟩ hk (fun r hj => replay_eq hj (hr m hm)) hw

/-- A turn that is stored is a turn of the log. -/
theorem Replays.turn (h : Replays t floor latest logs) {lead said : List Int}
    (hs : TurnSaved user conversation model latest current lead said t t') (hp : (lead ++ said).Pairwise (· < ·))
    (hb : ∀ id ∈ lead ++ said, floor ≤ id ∧ id < floor') (hf : floor ≤ floor')
    (hk : ∃ c ∈ t.conversations, c.id = conversation) (hr : ∀ m ∈ current, ReadsBack (.object m.raw)) :
    Replays t' floor' latest (amend logs conversation (Log.turn current)) := by
  obtain ⟨hl, hl', t₁, t₂, hw, hi, href⟩ := hs
  obtain ⟨-, hp', hlt⟩ := List.pairwise_append.1 hp
  obtain ⟨mid, hmid, h₁⟩ := Replays.lead h hl hw (fun id hid => hb id (List.mem_append_left _ hid)) hk hr
  have hmid' : mid ≤ floor' := by
    rcases hmid with rfl | ⟨id, hid, rfl⟩
    · exact hf
    · have := hb id (List.mem_append_left _ hid)
      omega
  have hbound : ∀ id ∈ said, mid ≤ id ∧ id < floor' := by
    intro id hid
    have h1 := hb id (List.mem_append_right _ hid)
    refine ⟨?_, h1.2⟩
    rcases hmid with rfl | ⟨id', hid', rfl⟩
    · exact h1.1
    · exact hlt id' hid' id hid
  obtain ⟨-, rfl⟩ := Tables.insertMessages_ok hi
  rw [← conversations_of_writesSystem hw] at hk
  have ha : Appended conversation latest mid floor'
      (List.zipWith (rowOf user conversation model latest) said (current.filter Message.isUser)) := appended_rows hp' hbound
  have h₂ := h₁.append ha hmid' hk
  rw [map_replay_rows hl' (fun m hm => hr m (List.mem_filter.1 hm).1), amend_amend] at h₂
  exact h₂.refresh href

/-- A reply that is stored is a reply in the log. -/
theorem Replays.reply (h : Replays t floor latest logs) {text : Option String} {ids : List Int}
    (hs : ReplySaved user conversation model latest text ids t t') (hb : ∀ id ∈ ids, floor ≤ id ∧ id < floor')
    (hf : floor ≤ floor') (hr : ∀ said, replyText? text = some said → ReadsBack (messageObject "assistant" said)) :
    Replays t' floor' latest (amend logs conversation (Log.reply text)) := by
  cases hs with
  | silent hn href =>
    have hlog : Log.reply text = fun l => l := by
      funext l
      unfold Log.reply
      rw [hn]
      simp
    rw [hlog, amend_self]
    exact (h.mono hf (Int.le_refl _)).refresh href
  | @reply _ _ _ id said hn hi href =>
    obtain ⟨-, rfl⟩ := Tables.insertMessages_ok hi
    have hid := hb id (by simp)
    have ha : Appended conversation latest floor floor' [replyMessage id user conversation model said latest] := by
      refine ⟨?_, ?_, List.pairwise_singleton _ _, ?_, ?_⟩ <;> intro m hm <;> rw [List.mem_singleton.1 hm]
      · rfl
      · rfl
      · exact hid
      · rfl
    have h₁ := h.append ha hf (Tables.refresh_ok href).1
    have hrep : replay (replyMessage id user conversation model said latest).row = messageObject "assistant" said :=
      replay_eq rfl (hr said hn)
    rw [List.map_singleton, List.map_singleton, hrep] at h₁
    have hlog : Log.reply text = fun l => { l with entries := l.entries ++ [messageObject "assistant" said] } := by
      funext l
      unfold Log.reply
      rw [hn]
      rfl
    rw [hlog]
    exact h₁.refresh href

/-! ## A whole history -/

/-- A clock that goes on, a generator in order, and tables that hold the logs while ids last. -/
structure Faithful (s : Scene) : Prop where
  steady : s.clock.Steady
  wellFormed : s.world.ids.WellFormed
  replays : s.world.ids.InRange → Replays s.world.tables s.world.ids.floor (stamp (s.clock 0)) s.logs

/-- What is stored at the next reading of the clock, under ids drawn after it, keeps tables and logs together. -/
theorem Faithful.store {w w' : World} {clock clock' : Clock} {logs' : Int → Log} {ids : List Int}
    (h : Faithful ⟨w, clock, logs⟩) (hd : Generator.Draws w.ids (clock.after 1) ids w'.ids clock')
    (hw : w' = { w with tables := t, ids := w'.ids })
    (hs : ∀ floor', Replays w.tables w.ids.floor (stamp (clock 0)) logs → w.ids.floor ≤ floor' → ids.Pairwise (· < ·) →
      (∀ id ∈ ids, w.ids.floor ≤ id ∧ id < floor') → Replays t floor' (stamp (clock 0)) logs') :
    Faithful ⟨w', clock', logs'⟩ := by
  obtain ⟨n, rfl⟩ := hd.clock_eq
  have hlater : clock 0 ≤ (clock.after 1).after n 0 := Nat.le_trans (h.steady.le_after 1) ((h.steady.after 1).le_after n)
  obtain ⟨hwf, hle⟩ := hd.wellFormed h.wellFormed
  refine ⟨(h.steady.after 1).after n, hwf, fun hin => ?_⟩
  obtain ⟨hf, hp, hb⟩ := hd.ascending h.wellFormed hin
  have hrep := hs _ (h.replays (Nat.lt_of_le_of_lt hle hin)) hf hp hb
  have ht : w'.tables = t := by rw [hw]
  rw [← ht] at hrep
  exact hrep.mono (Int.le_refl _) (stamp_le hlater)

/-- Opening a conversation under the next id leaves the logs as they are. -/
theorem Faithful.open {w : World} {clock : Clock} {row : Conversation} (h : Faithful ⟨w, clock, logs⟩)
    (ht : w.tables.createConversation (opened user model current clock w) = .ok (row, t)) :
    Faithful ⟨{ w with tables := t, ids := (w.ids.next clock).generator }, clockOpened clock w, logs⟩ := by
  have hsteady := (h.steady.after (w.ids.next clock).readings).after 1
  have hlater : clock 0 ≤ clockOpened clock w 0 :=
    Nat.le_trans (h.steady.le_after _) ((h.steady.after (w.ids.next clock).readings).le_after 1)
  refine ⟨hsteady, h.wellFormed.next clock, fun hin => ?_⟩
  have hrep := h.replays (h.wellFormed.inRange_of_next hin)
  exact (hrep.create ⟨h.wellFormed.floor_le_id hin, h.wellFormed.id_lt_floor hin⟩ ht).mono (Int.le_refl _) (stamp_le hlater)

/-- Every scene of a history is so. -/
theorem History.faithful {maxHistory : Nat} {s : Scene} (h : History maxHistory s) : Faithful s := by
  induction h with
  | @start w clock node ht hids hsteady =>
    refine ⟨hsteady, hids ▸ Generator.wellFormed_ofNode node, fun _ => ?_⟩
    rw [show (Scene.mk w clock fun _ => {}).world.tables = {} from ht]
    exact Replays.empty _ _
  | @prepared s user payload current o _ hm hr he ih =>
    obtain ⟨current', options, hm', -, hcase⟩ := ends_prepare he
    obtain rfl : current = current' := Except.ok.inj (hm.symm.trans hm')
    split at hcase
    · rename_i conversation _
      obtain ⟨-, ⟨c, hc⟩, ha, lead, said, t, hs, hd, hw⟩ := hcase
      have hcid := List.find?_some hc
      simp only [Bool.and_eq_true, beq_iff_eq] at hcid
      rw [ha]
      exact ih.store hd hw fun _ hrep hf hp hb =>
        Replays.turn hrep hs hp hb hf ⟨c, List.mem_of_find?_eq_some hc, hcid.1⟩ hr
    · obtain ⟨ha, row, t₀, ht₀, lead, said, t, hs, hd, hw⟩ := hcase
      have hrow : ∃ c ∈ t₀.conversations, c.id = (s.world.ids.next s.clock).id := by
        rw [Tables.createConversation_eq] at ht₀
        split at ht₀
        · nomatch ht₀
        · obtain ⟨-, rfl⟩ := Prod.mk.inj (Except.ok.inj ht₀)
          exact ⟨_, List.mem_append_right _ (List.mem_singleton_self _), rfl⟩
      rw [ha]
      exact (Faithful.open ih ht₀).store hd hw fun _ hrep hf hp hb => Replays.turn hrep hs hp hb hf hrow hr
  | @finished s conversation user model text o _ hr he ih =>
    obtain ⟨ids, t, hs, hd, hw⟩ := ends_finish he
    exact ih.store hd hw fun _ hrep hf _ hb => Replays.reply hrep hs hb hf hr

/-- What a system message in the slot is replayed as: the last of the rows there is. -/
theorem latestSystem_replay {s : Tables} {system : Option Value} (h : (s.systemOf conversation).map replay = system.toList) :
    (s.latestSystem conversation).map replay = system := by
  unfold Tables.latestSystem Tables.newest?
  cases system with
  | none =>
    rw [Option.toList_none, List.map_eq_nil_iff] at h
    simp [h]
  | some v =>
    cases hs : s.systemOf conversation with
    | nil =>
      rw [hs] at h
      nomatch h
    | cons m ms =>
      rw [hs] at h
      cases ms with
      | nil => simpa using h
      | cons m' ms => nomatch (List.cons.inj h).2

/-- A turn of the right shape has a system message and words of the user, and nothing else. -/
theorem filter_not_isSystem (h : continues current = true) :
    (current.filter fun m => !m.isSystem) = current.filter Message.isUser := by
  refine List.filter_congr fun m hm => ?_
  have hor : m.isSystem = true ∨ m.isUser = true := by
    unfold continues at h
    split at h
    · rw [List.mem_singleton.1 hm]
      exact .inr h
    · rw [Bool.and_eq_true] at h
      simp only [List.mem_cons, List.not_mem_nil, or_false] at hm
      rcases hm with rfl | rfl
      · exact .inl h.1
      · exact .inr h.2
    · nomatch h
  unfold Message.isSystem Message.isUser at hor ⊢
  rw [beq_iff_eq, beq_iff_eq] at hor
  rcases hor with hr | hr <;> rw [hr] <;> decide

/-- What is merged for a continuation is told by the log. -/
theorem merge_eq {s : Tables} {n : Nat} (h : Replays s floor latest logs) (hc : continues current = true) :
    merge (s.latestSystem conversation) (s.recentTurns conversation n) current =
      (logs conversation).sent n current := by
  have hturns : ((s.recentTurns conversation n).filter fun m => !m.isSystem) = s.recentTurns conversation n := by
    refine List.filter_eq_self.2 fun m hm => ?_
    rw [Tables.recentTurns_eq h.ordered] at hm
    exact (List.mem_filter.1 (List.mem_of_mem_drop hm)).2
  have hnewest : (s.recentTurns conversation n).map replay = (logs conversation).newest n := by
    unfold Log.newest
    rw [Tables.recentTurns_eq h.ordered, List.map_drop, h.entries conversation, ← h.entries conversation, List.length_map]
  unfold merge Log.sent
  simp only [hturns, hnewest, filter_not_isSystem hc]
  rw [← latestSystem_replay (h.system conversation)]
  unfold ownSystem? ownWords
  cases systemOf? current <;> cases s.latestSystem conversation <;> rfl

end ReplayAux

open ReplayAux

/-- Replay refinement: in every history, while ids last, a turn that continues a conversation is sent with the body it came with,
without the private members, and with the messages that the log of the conversation tells. -/
theorem continuation_replays_log {maxHistory : Nat} {s : Scene} {user : Int} {payload : Members} {options : TurnOptions}
    {o : Outcome Prepared} (h : History maxHistory s) (hids : s.world.ids.InRange)
    (ho : (takeOptions payload).1 = .ok options) (hc : options.isContinuation = true)
    (hp : Ends (prepare maxHistory user payload) s.clock s.world o) :
    ∃ current, parseMessages payload = .ok current ∧ options.conversation = some o.answer.conversation ∧
      o.answer.isNew = false ∧
      let sent := Value.array ((s.logs o.answer.conversation).sent maxHistory current)
      o.answer.payload = ((payload.erase "new_chat").erase "conversation_id").insert "messages" sent ∧
      ∀ name, o.answer.payload.get? name =
        if name = "messages" then some sent
        else if name = "new_chat" ∨ name = "conversation_id" then none
        else payload.get? name := by
  obtain ⟨current, options', hm, ho', hcase⟩ := ends_prepare hp
  obtain rfl : options = options' := Except.ok.inj (ho.symm.trans ho')
  cases hconv : options.conversation with
  | none =>
    unfold TurnOptions.isContinuation at hc
    rw [hconv] at hc
    nomatch hc
  | some conversation =>
    rw [hconv] at hcase
    simp only [Option.filter, hc] at hcase
    obtain ⟨hshape, -, ha, -⟩ := hcase
    have hrep := (History.faithful h).replays hids
    rw [merge_eq hrep hshape] at ha
    rw [ha]
    refine ⟨current, hm, rfl, rfl, rfl, fun name => ?_⟩
    rw [Members.get?_insert, Members.get?_erase, Members.get?_erase]
    by_cases h1 : name = "new_chat"
    · simp [h1]
    · simp [h1]

namespace ReplayAux

/-- A first turn that asks a question. -/
def question : Members := [("messages", .array [messageObject "user" "q"])]

/-- A second turn, in the conversation that the first one opens. -/
def followUp : Members := [("conversation_id", .ofInt 4194304), ("messages", .array [messageObject "user" "r"])]

/-- A clock that stands a millisecond after the first. -/
def early : Clock := .standing (epoch + 1)

/-- A world with empty tables. -/
def vacant : World := { ids := .ofNode 0, clock := 0 }

/-- The first turn prepared on empty tables. -/
def questioned : Outcome (Except TurnFault Prepared) := (ExceptT.run (prepare 1 7 question)).runOn early vacant

/-- The first turn finished. -/
def answered : Outcome (Except TurnFault Unit) :=
  (ExceptT.run (finish 4194304 7 "m" (some "a"))).runOn questioned.clock questioned.world

/-- The second turn prepared. -/
def followedUp : Outcome (Except TurnFault Prepared) := (ExceptT.run (prepare 1 7 followUp)).runOn answered.clock answered.world

/-- A routine whose answer is no fault ends well. -/
theorem ends_of_isOk {α : Type} {r : TurnRoutine α} {clock : Clock} {w : World} {o : Outcome (Except TurnFault α)}
    (ho : (ExceptT.run r).runOn clock w = o) (h : o.answer.isOk = true) :
    ∃ a, o.answer = .ok a ∧ Ends r clock w ⟨a, o.world, o.clock⟩ := by
  unfold Ends
  rw [ho]
  obtain ⟨answer, w', clock'⟩ := o
  cases answer with
  | ok a => exact ⟨a, rfl, rfl⟩
  | error e => nomatch h

end ReplayAux

/-- With one entry of history, a second turn is sent after the reply to the first alone. -/
theorem continuation_replays_log_second_turn :
    ∃ (s : Scene) (o : Outcome Prepared), History 1 s ∧ Ends (prepare 1 7 followUp) s.clock s.world o ∧
      o.answer.payload.get? "messages" = some (.array [messageObject "assistant" "a", messageObject "user" "r"]) := by
  obtain ⟨p, hpa, hp⟩ := ends_of_isOk (o := questioned) rfl (by decide +kernel)
  obtain ⟨u, -, hu⟩ := ends_of_isOk (o := answered) rfl (by decide +kernel)
  obtain ⟨p', -, hp'⟩ := ends_of_isOk (o := followedUp) rfl (by decide +kernel)
  have hconv : p.conversation = 4194304 := by
    have hc : questioned.answer.toOption.map Prepared.conversation = some 4194304 := by decide +kernel
    rw [hpa] at hc
    exact Option.some.inj hc
  have hq : ReadsBack (messageObject "user" "q") := by
    unfold ReadsBack
    decide +kernel
  have ha : ReadsBack (messageObject "assistant" "a") := by
    unfold ReadsBack
    decide +kernel
  have hm : parseMessages question = .ok [⟨"user", "q", [("content", .string "q"), ("role", .string "user")]⟩] := rfl
  have hm' : parseMessages followUp = .ok [⟨"user", "r", [("content", .string "r"), ("role", .string "user")]⟩] := rfl
  have h₀ : History 1 ⟨vacant, early, fun _ => {}⟩ := .start rfl rfl fun _ _ _ => Nat.le_refl _
  have h₁ := History.prepared h₀ hm (fun m hm => by rw [List.mem_singleton.1 hm]; exact hq) hp
  have h₂ := History.finished h₁ (fun said hs => by rw [← Option.some.inj hs]; exact ha) hu
  have hids : answered.world.ids.InRange := by
    unfold Generator.InRange
    decide +kernel
  obtain ⟨current, hcur, hconv', -, -, hget⟩ := continuation_replays_log h₂ hids rfl rfl hp'
  refine ⟨_, _, h₂, hp', ?_⟩
  obtain rfl := Except.ok.inj (hm'.symm.trans hcur)
  rw [hget, if_pos rfl, ← Option.some.inj hconv']
  simp only [amend, hconv]
  rfl

end InferenceGate.Chat
