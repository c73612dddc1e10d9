import InferenceGate.Proofs.Chat.Abandoned
import InferenceGate.Proofs.Chat.Isolation
import InferenceGate.Proofs.Chat.Replay
import InferenceGate.Proofs.Chat.Room
import InferenceGate.Proofs.Chat.SideBySide
import InferenceGate.Proofs.Store.Books

/-!
# Which turns are accepted

A turn is prepared exactly when its payload reads, and the conversation that it asks to continue, if it does, is its user's and the
turn has the shape of a continuation (`Acceptable`); otherwise the answer is the first of these conditions that fails
(`FirstFault`). The store has no say in it: in every state that calls on one generator come to (`Desk.Reached`), the rows of a turn
find room in the tables.
-/

namespace InferenceGate.Chat

open Json Store Ids

/-! ## The conditions of a turn -/

/-- The flag for a new conversation is absent or reads as a flag. -/
def FlagReads (payload : Members) : Prop := ∀ v, payload.get? "new_chat" = some v → ∃ b, flag? v = some b

/-- The number of a conversation is absent or reads as a positive whole number. -/
def NumberReads (payload : Members) : Prop := ∀ v, payload.get? "conversation_id" = some v → ∃ n, integer? v = some n ∧ 0 < n

/-- A payload names a conversation and does not ask for a new one. -/
def AsksFor (payload : Members) (conversation : Int) : Prop :=
  (payload.get? "conversation_id").bind integer? = some conversation ∧ (payload.get? "new_chat").bind flag? ≠ some true

/-- A conversation exists and is a user's. -/
def IsOf (t : Tables) (user conversation : Int) : Prop := ∃ c ∈ t.conversations, c.id = conversation ∧ c.user = user

/-- A message of the user, or one of the system and then one of the user. -/
def WellShaped (current : List Message) : Prop :=
  current.map Message.role = ["user"] ∨ current.map Message.role = ["system", "user"]

/-- All conditions of a turn. -/
structure Acceptable (t : Tables) (user : Int) (payload : Members) : Prop where
  messages : ∃ current, parseMessages payload = .ok current
  flag : FlagReads payload
  number : NumberReads payload
  owned : ∀ conversation, AsksFor payload conversation → IsOf t user conversation
  shape : ∀ conversation current, AsksFor payload conversation → parseMessages payload = .ok current → WellShaped current

/-- The first condition of a turn that fails: those on its messages, its flag and its number, that the conversation is the user's, and
the shape of the turn. -/
inductive FirstFault (t : Tables) (user : Int) (payload : Members) : TurnFault → Prop where
  | messages {f : PayloadFault} : parseMessages payload = .error f → FirstFault t user payload (.payload f)
  | flag {current : List Message} : parseMessages payload = .ok current → ¬ FlagReads payload →
      FirstFault t user payload (.payload .invalidNewChat)
  | number {current : List Message} : parseMessages payload = .ok current → FlagReads payload → ¬ NumberReads payload →
      FirstFault t user payload (.payload .invalidConversationId)
  | missing {current : List Message} {conversation : Int} : parseMessages payload = .ok current → FlagReads payload →
      NumberReads payload → AsksFor payload conversation → ¬ IsOf t user conversation →
      FirstFault t user payload .conversationNotFound
  | shape {current : List Message} {conversation : Int} : parseMessages payload = .ok current → FlagReads payload →
      NumberReads payload → AsksFor payload conversation → IsOf t user conversation → ¬ WellShaped current →
      FirstFault t user payload .continuationShape

namespace AcceptanceAux

variable {t : Tables} {user : Int} {payload : Members} {maxHistory : Nat} {clock : Clock} {w : World}

/-- A turn that is not acceptable has a first fault. -/
theorem acceptable_or_firstFault (t : Tables) (user : Int) (payload : Members) :
    Acceptable t user payload ∨ ∃ f, FirstFault t user payload f := by
  cases hm : parseMessages payload with
  | error f => exact .inr ⟨_, .messages hm⟩
  | ok current =>
    by_cases hf : FlagReads payload
    · by_cases hn : NumberReads payload
      · by_cases ho : ∀ conversation, AsksFor payload conversation → IsOf t user conversation
        · by_cases hs : ∀ conversation, AsksFor payload conversation → WellShaped current
          · refine .inl ⟨⟨current, hm⟩, hf, hn, ho, fun conversation current' hc hm' => ?_⟩
            obtain rfl := Except.ok.inj (hm.symm.trans hm')
            exact hs conversation hc
          · obtain ⟨conversation, hs⟩ := Classical.not_forall.1 hs
            obtain ⟨hc, hs⟩ := Classical.not_imp.1 hs
            exact .inr ⟨_, .shape hm hf hn hc (ho conversation hc) hs⟩
        · obtain ⟨conversation, ho⟩ := Classical.not_forall.1 ho
          obtain ⟨hc, ho⟩ := Classical.not_imp.1 ho
          exact .inr ⟨_, .missing hm hf hn hc ho⟩
      · exact .inr ⟨_, .number hm hf hn⟩
    · exact .inr ⟨_, .flag hm hf⟩

/-! ## Reading the private members -/

/-- A flag that does not read is there and is none. -/
theorem exists_of_not_flagReads (h : ¬ FlagReads payload) : (payload.get? "new_chat").map flag? = some none := by
  obtain ⟨v, h⟩ := Classical.not_forall.1 h
  obtain ⟨hv, hb⟩ := Classical.not_imp.1 h
  rw [hv, Option.map_some, Option.eq_none_iff_forall_ne_some.2 fun b he => hb ⟨b, he⟩]

/-- A flag that reads is absent or a flag. -/
theorem map_flag_of_flagReads (h : FlagReads payload) : (payload.get? "new_chat").map flag? ≠ some none := by
  intro hnone
  obtain ⟨v, hv, hf⟩ := Option.map_eq_some_iff.1 hnone
  obtain ⟨b, hb⟩ := h v hv
  rw [hf] at hb
  nomatch hb

/-- A flag that does not read is the fault of the private members. -/
theorem takeOptions_of_not_flagReads (h : ¬ FlagReads payload) : (takeOptions payload).1 = .error .invalidNewChat := by
  unfold takeOptions
  simp only [exists_of_not_flagReads h]

/-- After a flag that reads, a number that does not is the fault of the private members. -/
theorem takeOptions_of_not_numberReads (hf : FlagReads payload) (h : ¬ NumberReads payload) :
    (takeOptions payload).1 = .error .invalidConversationId := by
  obtain ⟨v, h⟩ := Classical.not_forall.1 h
  obtain ⟨hv, hb⟩ := Classical.not_imp.1 h
  have hnone : (integer? v).filter (0 < ·) = none := by
    rw [Option.filter_eq_none_iff]
    exact fun n hn hpos => hb ⟨n, hn, of_decide_eq_true hpos⟩
  unfold takeOptions
  simp only [hv, hnone]
  split
  · rename_i hflag
    exact absurd hflag (map_flag_of_flagReads hf)
  · rfl

/-- What the flag comes to. -/
theorem bind_map_flag (payload : Members) : ((payload.get? "new_chat").map flag?).bind id = (payload.get? "new_chat").bind flag? := by
  cases payload.get? "new_chat" <;> rfl

/-- A conversation is continued when it is named and no new one is asked for. -/
theorem filter_isContinuation (number : Option Int) (flag : Option Bool) (conversation : Int) :
    let options : TurnOptions := { conversation := number, newChat := flag.getD false }
    (options.conversation.filter fun _ => options.isContinuation) = some conversation ↔ number = some conversation ∧ flag ≠ some true := by
  cases number with
  | none => simp
  | some n => cases flag <;> simp [TurnOptions.isContinuation]

/-- Private members that read are what they read as. -/
theorem takeOptions_eq_ok (hf : FlagReads payload) (hn : NumberReads payload) :
    (takeOptions payload).1 = .ok { conversation := (payload.get? "conversation_id").bind integer?,
                                    newChat := ((payload.get? "new_chat").bind flag?).getD false } := by
  unfold takeOptions
  rw [← bind_map_flag]
  simp only
  split
  · rename_i hflag
    exact absurd hflag (map_flag_of_flagReads hf)
  · cases hv : payload.get? "conversation_id" with
    | none => rfl
    | some v =>
      obtain ⟨n, hint, hpos⟩ := hn v hv
      simp only [hint, Option.filter, decide_eq_true hpos, Option.bind_some, if_true]

/-- Private members that read say which conversation is to be continued, if one is. -/
theorem takeOptions_of_reads (hf : FlagReads payload) (hn : NumberReads payload) :
    ∃ options, (takeOptions payload).1 = .ok options ∧
      ∀ conversation, (options.conversation.filter fun _ => options.isContinuation) = some conversation ↔
        AsksFor payload conversation :=
  ⟨_, takeOptions_eq_ok hf hn, filter_isContinuation _ _⟩

/-! ## Checking a continuation -/

/-- A conversation is found for a user when it is his. -/
theorem findConversation_isSome {conversation : Int} : (t.findConversation conversation user).isSome = true ↔ IsOf t user conversation := by
  unfold Tables.findConversation IsOf
  simp only [List.find?_isSome, Bool.and_eq_true, beq_iff_eq]

/-- The shape of a continuation is told by the roles. -/
theorem continues_iff {current : List Message} : continues current = true ↔ WellShaped current := by
  unfold WellShaped
  match current with
  | [] => simp [continues]
  | [m] => simp [continues, Message.isUser]
  | [m, m'] => simp [continues, Message.isSystem, Message.isUser]
  | _ :: _ :: _ :: _ => simp [continues]

variable {conversation : Int} {current : List Message}

/-- The conversation is looked up. -/
theorem ends_findConversation (hw : w.reachable = true) :
    Ends (stored (Routine.findConversation conversation user)) clock w ⟨w.tables.findConversation conversation user, w, clock⟩ :=
  ends_of_ask (f := fun t => t.findConversation conversation user) rfl hw

/-- A conversation that is not the user's is not found, whatever the shape of the turn. -/
theorem answer_checkContinuation_of_not_isOf (hw : w.reachable = true) (h : ¬ IsOf w.tables user conversation) :
    ((ExceptT.run (checkContinuation user conversation current)).runOn clock w).answer = .error .conversationNotFound := by
  have hnone : (w.tables.findConversation conversation user).isNone = true := by
    rw [← findConversation_isSome] at h
    simpa using h
  unfold checkContinuation
  rw [runOn_bind_of_ends (ends_findConversation hw)]
  simp only [hnone, if_true]
  rfl

/-- A turn of another shape is at fault when the conversation is the user's. -/
theorem answer_checkContinuation_of_not_wellShaped (hw : w.reachable = true) (h : IsOf w.tables user conversation)
    (hs : ¬ WellShaped current) :
    ((ExceptT.run (checkContinuation user conversation current)).runOn clock w).answer = .error .continuationShape := by
  obtain ⟨c, hc⟩ := Option.isSome_iff_exists.1 (findConversation_isSome.2 h)
  have hcont : continues current = false := by
    rw [← continues_iff] at hs
    simpa using hs
  unfold checkContinuation
  rw [runOn_bind_of_ends (ends_findConversation hw)]
  simp only [hc, hcont, Option.isNone_some, Bool.not_false, if_true]
  rfl

/-- A turn that may continue its conversation passes. -/
theorem ends_of_checkContinuation (clock : Clock) (hw : w.reachable = true) (h : IsOf w.tables user conversation)
    (hs : WellShaped current) :
    Ends (checkContinuation user conversation current) clock w ⟨(), w, clock⟩ := by
  obtain ⟨c, hc⟩ := Option.isSome_iff_exists.1 (findConversation_isSome.2 h)
  refine ends_bind.2 ⟨_, ends_findConversation hw, ?_⟩
  simp only [hc, continues_iff.2 hs, Option.isNone_some, Bool.not_true]
  exact ends_pure.2 rfl

/-! ## Preparing -/

/-- A payload whose private members are at fault is no turn. -/
theorem prepare_eq_throw {f : PayloadFault} (hm : parseMessages payload = .ok current) (ho : (takeOptions payload).1 = .error f) :
    prepare maxHistory user payload = throw (.payload f) := by
  unfold prepare
  rw [hm]
  cases hto : takeOptions payload with
  | mk read rest =>
    rw [hto] at ho
    rw [show read = _ from ho]

/-- A payload that reads is prepared without its private members. -/
theorem prepare_eq_prepareRead {options : TurnOptions} (hm : parseMessages payload = .ok current)
    (ho : (takeOptions payload).1 = .ok options) :
    prepare maxHistory user payload =
      prepareRead maxHistory user (takeOptions payload).2 (modelOf payload) current options := by
  unfold prepare
  rw [hm]
  cases hto : takeOptions payload with
  | mk read rest =>
    rw [hto] at ho
    rw [show read = _ from ho]

/-- The answer to a turn that fails a condition is the fault of the first that it fails. -/
theorem answer_of_firstFault (hw : w.reachable = true) {f : TurnFault} (h : FirstFault w.tables user payload f) :
    ((ExceptT.run (prepare maxHistory user payload)).runOn clock w).answer = .error f := by
  cases h with
  | messages hm =>
    unfold prepare
    rw [hm]
    rfl
  | flag hm hf =>
    rw [prepare_eq_throw hm (takeOptions_of_not_flagReads hf)]
    rfl
  | number hm hf hn =>
    rw [prepare_eq_throw hm (takeOptions_of_not_numberReads hf hn)]
    rfl
  | missing hm hf hn hc ho =>
    obtain ⟨options, hto, hcont⟩ := takeOptions_of_reads hf hn
    rw [prepare_eq_prepareRead hm hto]
    unfold prepareRead
    rw [(hcont _).2 hc]
    exact answer_bind_of_fault (answer_checkContinuation_of_not_isOf hw ho)
  | shape hm hf hn hc ho hs =>
    obtain ⟨options, hto, hcont⟩ := takeOptions_of_reads hf hn
    rw [prepare_eq_prepareRead hm hto]
    unfold prepareRead
    rw [(hcont _).2 hc]
    exact answer_bind_of_fault (answer_checkContinuation_of_not_wellShaped hw ho hs)

/-- What a continuation is sent with is read of a store that can be reached. -/
theorem exists_ends_continued (maxHistory : Nat) (conversation : Int) (current : List Message) (clock : Clock)
    (hw : w.reachable = true) :
    ∃ messages, Ends (continued maxHistory conversation current) clock w ⟨messages, w, clock⟩ :=
  ⟨_, ends_bind.2 ⟨_, ends_of_ask (f := fun t => t.latestSystem conversation) rfl hw,
    ends_bind.2 ⟨_, ends_of_recentTurns maxHistory hw, ends_pure.2 rfl⟩⟩⟩

/-- An acceptable turn is prepared, in a store whose rows are numbered by the generator. -/
theorem exists_ends_prepare (hn : w.Numbered) (hw : w.reachable = true) (h : Acceptable w.tables user payload)
    (hr : ((ExceptT.run (prepare maxHistory user payload)).runOn clock w).world.ids.InRange) :
    ∃ o, Ends (prepare maxHistory user payload) clock w o := by
  obtain ⟨current, hm⟩ := h.messages
  obtain ⟨options, hto, hcont⟩ := takeOptions_of_reads h.flag h.number
  rw [prepare_eq_prepareRead hm hto] at hr ⊢
  unfold prepareRead at hr ⊢
  cases hc : options.conversation.filter fun _ => options.isContinuation with
  | some conversation =>
    have hasks := (hcont conversation).1 hc
    have hof := h.owned conversation hasks
    have h₁ := ends_of_checkContinuation clock hw hof (h.shape conversation current hasks hm)
    obtain ⟨messages, h₂⟩ := exists_ends_continued maxHistory conversation current clock hw
    simp only [hc] at hr ⊢
    rw [runOn_bind_of_ends h₁, runOn_bind_of_ends h₂] at hr
    obtain ⟨c, hmem, hid, -⟩ := hof
    obtain ⟨o₃, h₃⟩ := exists_ends_storeTurn hn hw ⟨c, hmem, hid⟩ (inRange_of_bind hn.wellFormed hr)
    exact ⟨_, ends_bind.2 ⟨_, h₁, ends_bind.2 ⟨_, h₂, ends_bind.2 ⟨o₃, h₃, ends_pure.2 rfl⟩⟩⟩⟩
  | none =>
    simp only [hc] at hr ⊢
    have hnext : (w.ids.next clock).generator.InRange :=
      inRange_of_bind (r := always Routine.nextId) hn.wellFormed (inRange_of_bind hn.wellFormed hr)
    obtain ⟨t, h₁, hn₁, hex⟩ := exists_ends_openConversation user (modelOf payload) current hn hw hnext
    rw [runOn_bind_of_ends h₁] at hr
    obtain ⟨o₂, h₂⟩ := exists_ends_storeTurn hn₁ hw hex (inRange_of_bind hn₁.wellFormed hr)
    exact ⟨_, ends_bind.2 ⟨_, h₁, ends_bind.2 ⟨o₂, h₂, ends_pure.2 rfl⟩⟩⟩

end AcceptanceAux

/-! ## Calls on one generator -/

/-- A store with its generator, and the calls under way. -/
structure Desk where
  world : World
  tasks : List Task := []

namespace Desk

/-- What may happen next: a turn is begun, or one is finished in whatever conversation; a call takes a step, or is done or dropped; an id
is drawn for something else; or something happens that leaves conversations, messages and the generator as they are. -/
inductive Next (maxHistory : Nat) : Desk → Desk → Prop where
  | prepare (d : Desk) (user : Int) (payload : Members) :
      Next maxHistory d { d with tasks := .prepare maxHistory user payload :: d.tasks }
  | finish (d : Desk) (conversation user : Int) (model : String) (text : Option String) :
      Next maxHistory d { d with tasks := .finish conversation user model text :: d.tasks }
  | step {d : Desk} {before after : List Task} {user : Int} {s : Step} {next : s.Answer → Routine (Option Int)} (clock : Clock) :
      d.tasks = before ++ ⟨user, .step s next⟩ :: after →
      Next maxHistory d ⟨(s.takeOn clock d.world).world, before ++ ⟨user, next (s.takeOn clock d.world).answer⟩ :: after⟩
  | leave {d : Desk} {before after : List Task} {task : Task} : d.tasks = before ++ task :: after →
      Next maxHistory d { d with tasks := before ++ after }
  | draw (d : Desk) (clock : Clock) : Next maxHistory d { d with world := (d.world.nextIdOn clock).world }
  | elsewhere {d : Desk} {w : World} : d.world.tables.SameTurns w.tables → w.ids = d.world.ids →
      Next maxHistory d { d with world := w }

/-- The states that calls come to from an empty store. -/
inductive Reached (maxHistory : Nat) : Desk → Prop where
  | fresh (node clock : Nat) : Reached maxHistory ⟨{ ids := .ofNode node, clock }, []⟩
  | next {d d' : Desk} : Reached maxHistory d → Next maxHistory d d' → Reached maxHistory d'

/-- The rows are numbered by the generator, and every call under way is lawful with ids that were issued. -/
structure Orderly (d : Desk) : Prop where
  world : d.world.Numbered
  tasks : ∀ k ∈ d.tasks, ∃ p post, p.Issued d.world ∧ Routine.Lawful k.user p k.rest post

end Desk

namespace DeskAux

variable {d d' : Desk} {w : World} {maxHistory : Nat}

/-- The permit of a call that has drawn no id. -/
theorem issued_of_drawn {p : Permit} (h : p.drawn = []) : p.Issued w := by
  intro _ id hid
  rw [h] at hid
  nomatch hid

/-- A call more. -/
theorem orderly_begin {k : Task} {p : Permit} (post : Permit → Option Int → Prop) (h : d.Orderly) (hp : p.drawn = [])
    (hl : Routine.Lawful k.user p k.rest post) : Desk.Orderly { d with tasks := k :: d.tasks } := by
  refine ⟨h.world, fun k' hk => ?_⟩
  rcases List.mem_cons.1 hk with rfl | hk
  · exact ⟨p, post, issued_of_drawn hp, hl⟩
  · exact h.tasks k' hk

/-- Another world whose generator has not gone back. -/
theorem orderly_onward (h : d.Orderly) (hn : w.Numbered) (ha : d.world.ids.Ahead w.ids) : Desk.Orderly { d with world := w } := by
  refine ⟨hn, fun k hk => ?_⟩
  obtain ⟨p, post, hp, hl⟩ := h.tasks k hk
  exact ⟨p, post, hp.onward ha, hl⟩

/-- A call that takes a step. -/
theorem orderly_step {before after : List Task} {user : Int} {s : Step} {next : s.Answer → Routine (Option Int)} (clock : Clock)
    (h : d.Orderly) (ht : d.tasks = before ++ ⟨user, .step s next⟩ :: after) :
    Desk.Orderly ⟨(s.takeOn clock d.world).world, before ++ ⟨user, next (s.takeOn clock d.world).answer⟩ :: after⟩ := by
  have hwf := h.world.wellFormed
  obtain ⟨p, post, hp, hl⟩ := h.tasks _ (ht ▸ TrafficAux.mem_around.2 (.inl rfl))
  refine ⟨Step.numbered_takeOn clock h.world hp hl.1, fun k hk => ?_⟩
  rcases TrafficAux.mem_around.1 hk with rfl | hk
  · exact ⟨_, post, Step.issued_learned clock hwf hp, hl.2 _⟩
  · obtain ⟨p', post', hp', hl'⟩ := h.tasks k (GatewayAux.mem_of_left ht hk)
    exact ⟨p', post', hp'.onward (s.ahead_takeOn clock hwf), hl'⟩

/-- Whatever happens next, the rows are numbered by the generator. -/
theorem orderly_next (h : d.Orderly) (hn : Desk.Next maxHistory d d') : d'.Orderly := by
  cases hn with
  | prepare user payload =>
    exact orderly_begin (p := {}) (fun _ _ => True) h rfl
      (Routine.Lawful.bind (lawful_prepare maxHistory payload) fun _ _ _ _ => trivial)
  | finish conversation user model text =>
    exact orderly_begin (p := { owned := [conversation] }) (fun _ _ => True) h rfl
      (Routine.Lawful.bind (lawful_finish (List.mem_singleton_self _) model text) fun _ _ _ _ => trivial)
  | step clock ht => exact orderly_step clock h ht
  | leave ht => exact ⟨h.world, fun k hk => h.tasks k (GatewayAux.mem_of_left ht hk)⟩
  | draw clock =>
    have ha := Generator.Ahead.next h.world.wellFormed clock
    exact orderly_onward h (h.world.onward ha fun hb _ => hb) ha
  | @elsewhere w hs hi =>
    have ha : d.world.ids.Ahead w.ids := by
      rw [hi]
      exact .refl h.world.wellFormed
    refine orderly_onward h (h.world.onward ha fun hb _ => ⟨?_, ?_⟩) ha
    · rw [hs.conversations]
      exact hb.conversations
    · rw [hs.messages]
      exact hb.messages

/-- A change of other tables happens elsewhere. -/
theorem next_update {f : Tables → Except Store.Fault Tables}
    (hf : ∀ t, f d.world.tables = .ok t → t.conversations = d.world.tables.conversations ∧ t.messages = d.world.tables.messages) :
    Desk.Next maxHistory d { d with world := (d.world.update f).2 } := by
  rcases d.world.update_cases f with ⟨t, ht, hu⟩ | ⟨e, hu⟩
  · rw [hu]
    exact .elsewhere ⟨(hf t ht).1, (hf t ht).2⟩ rfl
  · rw [hu]
    exact .elsewhere (.refl _) rfl

end DeskAux

open AcceptanceAux DeskAux GatewayAux

/-- What a gateway comes to, its calls come to. -/
theorem Reached.desk {maxHistory : Nat} {g : Gateway} (h : Reached maxHistory g) : Desk.Reached maxHistory ⟨g.world, g.tasks⟩ := by
  induction h with
  | fresh node clock => exact .fresh node clock
  | @next g g' _ hn ih =>
    refine .next ih ?_
    cases hn with
    | prepare user payload => exact .prepare ⟨g.world, g.tasks⟩ user payload
    | finish model text hr => exact .finish ⟨g.world, g.tasks⟩ _ _ model text
    | step clock ht => exact .step clock ht
    | done ht => exact .leave ht
    | drop ht => exact .leave ht
    | usage row => exact next_update fun t ht => insertUsage_same ht
    | chat row => exact next_update fun t ht => insertChat_same ht
    | draw clock => exact .draw ⟨g.world, g.tasks⟩ clock
    | reach reachable clock => exact .elsewhere (.refl _) rfl

/-- In every state that calls come to, the rows are numbered by the generator. -/
theorem Desk.Reached.orderly {maxHistory : Nat} {d : Desk} (h : Desk.Reached maxHistory d) : d.Orderly := by
  induction h with
  | fresh node clock => exact ⟨⟨Generator.wellFormed_ofNode node, fun _ => ⟨nofun, nofun⟩⟩, nofun⟩
  | next _ hn ih => exact orderly_next ih hn

/-- In every state that calls on one generator come to, a turn is prepared exactly when it is acceptable, and otherwise the answer is its
first fault, while the store can be reached and ids last. The store is never the one at fault. -/
theorem prepared_iff_acceptable {maxHistory : Nat} {d : Desk} (h : d.Reached maxHistory) (hw : d.world.reachable = true)
    (user : Int) (payload : Members) (clock : Clock)
    (hr : ((ExceptT.run (prepare maxHistory user payload)).runOn clock d.world).world.ids.InRange) :
    let answer := ((ExceptT.run (prepare maxHistory user payload)).runOn clock d.world).answer
    ((∃ turn, answer = .ok turn) ↔ Acceptable d.world.tables user payload) ∧
      (∀ f, answer = .error f ↔ FirstFault d.world.tables user payload f) ∧ ∀ e, answer ≠ .error (.store e) := by
  intro answer
  have hok : Acceptable d.world.tables user payload → ∃ turn, answer = .ok turn := by
    intro ha
    obtain ⟨o, ho⟩ := exists_ends_prepare h.orderly.world hw ha hr
    exact ⟨o.answer, congrArg Outcome.answer ho⟩
  have hfault : ∀ f, FirstFault d.world.tables user payload f → answer = .error f := fun f hf => answer_of_firstFault hw hf
  rcases acceptable_or_firstFault d.world.tables user payload with ha | ⟨f, hf⟩
  · obtain ⟨turn, hturn⟩ := hok ha
    have hne : ∀ f, answer ≠ .error f := fun f he => nomatch hturn.symm.trans he
    exact ⟨⟨fun _ => ha, hok⟩, fun f => ⟨fun he => absurd he (hne f), hfault f⟩, fun e => hne _⟩
  · have hanswer := hfault f hf
    have hne : ∀ turn, answer ≠ .ok turn := fun turn he => nomatch hanswer.symm.trans he
    refine ⟨⟨fun ⟨turn, he⟩ => absurd he (hne turn), hok⟩, fun f' => ⟨fun he => ?_, hfault f'⟩, fun e he => ?_⟩
    · obtain rfl := Except.error.inj (hanswer.symm.trans he)
      exact hf
    · obtain rfl := Except.error.inj (hanswer.symm.trans he)
      nomatch hf

namespace DeskAux

/-- A turn of two messages that names a conversation. -/
def misshapen : Members :=
  [("conversation_id", .string " 512389598928703488 "), ("messages", .array [messageObject "user" "a", messageObject "user" "b"])]

/-- A turn that continues it. -/
def wellMeant : Members :=
  [("conversation_id", .ofInt 512389598928703488), ("messages", .array [messageObject " User " "and now?"]), ("new_chat", .string "f")]

/-- A turn prepared after a first user has greeted. -/
def prepared (user : Int) (payload : Members) : Outcome (Except TurnFault Prepared) :=
  (ExceptT.run (prepare 20 user payload)).runOn IsolationAux.present IsolationAux.greeted.world

/-- An answer with a fault is the fault. -/
theorem eq_error_of_fault? {α : Type} {answer : Except TurnFault α} {f : TurnFault} (h : AbandonedAux.fault? answer = some f) :
    answer = .error f := by
  cases answer with
  | ok a => nomatch h
  | error e => rw [Option.some.inj h]

end DeskAux

/-- The conversation of a first user: to a second it looks missing, whatever the shape of his turn, and the first may go on with it. -/
theorem prepared_iff_acceptable_foreign :
    FirstFault IsolationAux.greeted.world.tables 2 misshapen .conversationNotFound ∧
      FirstFault IsolationAux.greeted.world.tables 1 misshapen .continuationShape ∧
      Acceptable IsolationAux.greeted.world.tables 1 wellMeant := by
  have h : Desk.Reached 20 ⟨IsolationAux.greeted.world, IsolationAux.greeted.tasks⟩ :=
    ((Reached.fresh 1 0).prepared 1 IsolationAux.greeting IsolationAux.present).desk
  have hr : ∀ call ∈ [(2, misshapen), (1, misshapen), (1, wellMeant)], (prepared call.1 call.2).world.ids.InRange := by
    unfold Generator.InRange
    decide +kernel
  have hmissing : (prepared 2 misshapen).answer = .error .conversationNotFound := eq_error_of_fault? (by decide +kernel)
  have hshape : (prepared 1 misshapen).answer = .error .continuationShape := eq_error_of_fault? (by decide +kernel)
  obtain ⟨turn, hturn, -⟩ := ReplayAux.ends_of_isOk (o := prepared 1 wellMeant) rfl (by decide +kernel)
  refine ⟨?_, ?_, ?_⟩
  · exact ((prepared_iff_acceptable h rfl 2 misshapen _ (hr (2, misshapen) (by simp))).2.1 _).1 hmissing
  · exact ((prepared_iff_acceptable h rfl 1 misshapen _ (hr (1, misshapen) (by simp))).2.1 _).1 hshape
  · exact (prepared_iff_acceptable h rfl 1 wellMeant _ (hr (1, wellMeant) (by simp))).1.1 ⟨turn, hturn⟩

end InferenceGate.Chat
