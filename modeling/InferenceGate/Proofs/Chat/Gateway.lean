import InferenceGate.Proofs.Chat.Lawful
import InferenceGate.Proofs.Store.Confined
import InferenceGate.Store.Accounts

/-!
# A gateway with calls side by side

Turns are prepared and finished by any number of users at once, each a task that takes its steps between those of the others and may
be dropped at any point (`Next`). In every state that the gateway reaches from empty tables, the world is sound and every task
under way is lawful under a permit that holds (`Reached.sound`).
-/

namespace InferenceGate.Chat

open Json Store Ids

/-- A call under way: whose it is, and what is left of it. A turn that was prepared well ends with its conversation. -/
structure Task where
  user : Int
  rest : Routine (Option Int)

/-- A turn to be prepared. -/
def Task.prepare (maxHistory : Nat) (user : Int) (payload : Members) : Task where
  user := user
  rest := (ExceptT.run (Chat.prepare maxHistory user payload)).bind fun answer => .done (answer.toOption.map Prepared.conversation)

/-- A turn to be finished. -/
def Task.finish (conversation user : Int) (model : String) (text : Option String) : Task where
  user := user
  rest := (ExceptT.run (Chat.finish conversation user model text)).bind fun _ => .done none

/-- A gateway: the world, the calls under way, and the conversations that turns were prepared in, each with the user. -/
structure Gateway where
  world : World
  tasks : List Task := []
  returned : List (Int × Int) := []

/-- What may happen next: a call begins, takes a step, ends or is dropped; a row of usage or a message between users is inserted; an
id is drawn for something else; the store goes away or comes back. A turn is finished only in a conversation that a turn of the same
user was prepared in. -/
inductive Next (maxHistory : Nat) : Gateway → Gateway → Prop where
  | prepare (g : Gateway) (user : Int) (payload : Members) :
      Next maxHistory g { g with tasks := .prepare maxHistory user payload :: g.tasks }
  | finish {g : Gateway} {user conversation : Int} (model : String) (text : Option String) :
      (user, conversation) ∈ g.returned → Next maxHistory g { g with tasks := .finish conversation user model text :: g.tasks }
  | step {g : Gateway} {before after : List Task} {user : Int} {s : Step} {next : s.Answer → Routine (Option Int)}
      (clock : Clock) : g.tasks = before ++ ⟨user, .step s next⟩ :: after →
      Next maxHistory g
        { g with
          world := (s.takeOn clock g.world).world
          tasks := before ++ ⟨user, next (s.takeOn clock g.world).answer⟩ :: after }
  | done {g : Gateway} {before after : List Task} {user : Int} {result : Option Int} :
      g.tasks = before ++ ⟨user, .done result⟩ :: after →
      Next maxHistory g
        { g with tasks := before ++ after, returned := result.toList.map (fun conversation => (user, conversation)) ++ g.returned }
  | drop {g : Gateway} {before after : List Task} {task : Task} : g.tasks = before ++ task :: after →
      Next maxHistory g { g with tasks := before ++ after }
  | usage (g : Gateway) (row : Usage) : Next maxHistory g { g with world := (g.world.update (·.insertUsage row)).2 }
  | chat (g : Gateway) (row : Store.Chat) : Next maxHistory g { g with world := (g.world.update (·.insertChat row)).2 }
  | draw (g : Gateway) (clock : Clock) : Next maxHistory g { g with world := (g.world.nextIdOn clock).world }
  | reach (g : Gateway) (reachable : Bool) (clock : Nat) :
      Next maxHistory g { g with world := { g.world with reachable, clock } }

/-- A gateway that has served nothing. -/
def Gateway.fresh (node clock : Nat) : Gateway := ⟨{ ids := .ofNode node, clock }, [], []⟩

/-- The states of a gateway that begins with empty tables. -/
inductive Reached (maxHistory : Nat) : Gateway → Prop where
  | fresh (node clock : Nat) : Reached maxHistory (.fresh node clock)
  | next {g g' : Gateway} : Reached maxHistory g → Next maxHistory g g' → Reached maxHistory g'

/-! ## What holds in every state -/

/-- A task whose steps are all permitted in a world and those after it; a conversation it ends with is its user's. -/
def Task.Lawful (t : Task) (w : World) : Prop :=
  ∃ p : Permit, p.Holds t.user w ∧ Routine.Lawful t.user p t.rest fun p' result => ∀ c, result = some c → c ∈ p'.owned

/-- A sound gateway. -/
structure Gateway.Sound (g : Gateway) : Prop where
  world : g.world.Sound
  tasks : ∀ t ∈ g.tasks, t.Lawful g.world
  returned : ∀ r ∈ g.returned, g.world.tables.owner? r.2 = some r.1

namespace GatewayAux

variable {g g' : Gateway} {w w' : World} {user conversation : Int} {maxHistory : Nat}

/-- The permit of a user's calls before their first step. -/
theorem holds_empty (user : Int) (w : World) : Permit.Holds {} user w := ⟨nofun, fun _ => nofun⟩

/-- The permit of the calls that finish a turn of a user's conversation. -/
theorem holds_owned (h : w.tables.owner? conversation = some user) : Permit.Holds { owned := [conversation] } user w := by
  refine ⟨fun c hc => ?_, fun _ => nofun⟩
  rw [List.mem_singleton.1 hc]
  exact h

/-- A turn to prepare is a lawful task of its user. -/
theorem lawful_prepareTask (payload : Members) : (Task.prepare maxHistory user payload).Lawful w := by
  refine ⟨{}, holds_empty user w, ?_⟩
  refine Routine.Lawful.bind (lawful_prepare maxHistory payload) fun p answer _ hp c hc => ?_
  cases answer with
  | ok turn =>
    rw [← Option.some.inj hc]
    exact hp turn rfl
  | error e => nomatch hc

/-- The reply to a turn is a lawful task of the owner of its conversation. -/
theorem lawful_finishTask (h : w.tables.owner? conversation = some user) (model : String) (text : Option String) :
    (Task.finish conversation user model text).Lawful w := by
  refine ⟨{ owned := [conversation] }, holds_owned h, ?_⟩
  exact Routine.Lawful.bind (lawful_finish (List.mem_singleton_self _) model text) fun _ _ _ _ => nofun

/-- A lawful task stays so. -/
theorem lawful_onward {t : Task} (h : t.Lawful w) (ho : w.Onward w') : t.Lawful w' := by
  obtain ⟨p, hp, hl⟩ := h
  exact ⟨p, hp.onward ho, hl⟩

/-- A world in which conversations, messages and ids are as they were. -/
theorem sound_of_same (hs : w.Sound) (hc : w'.tables.conversations = w.tables.conversations)
    (hm : w'.tables.messages = w.tables.messages) (hi : w'.ids = w.ids) : w'.Sound ∧ w.Onward w' := by
  have howner : ∀ id, w'.tables.owner? id = w.tables.owner? id := fun id => Tables.owner?_congr (by rw [hc]) id
  refine ⟨⟨⟨?_, ?_, ?_⟩, ?_, ?_⟩, ⟨?_, ?_⟩⟩
  · rw [hc]
    exact hs.tidy.conversations
  · rw [hm]
    exact hs.tidy.messages
  · intro m hmem
    rw [hm] at hmem
    rw [howner]
    exact hs.tidy.owned m hmem
  · rw [hi]
    exact hs.wellFormed
  · intro hr
    rw [hi] at hr ⊢
    have hb := hs.below hr
    exact ⟨fun c hmem => hb.conversations c (hc ▸ hmem), fun m hmem => hb.messages m (hm ▸ hmem)⟩
  · intro id v hv
    rw [howner]
    exact hv
  · rw [hi]
    exact .refl hs.wellFormed

/-- A change of other tables leaves conversations, messages and ids as they are. -/
theorem sound_update (hs : w.Sound) {f : Tables → Except Store.Fault Tables}
    (hf : ∀ t, f w.tables = .ok t → t.conversations = w.tables.conversations ∧ t.messages = w.tables.messages) :
    (w.update f).2.Sound ∧ w.Onward (w.update f).2 := by
  rcases w.change_cases fun t => (f t).map ((), ·) with ⟨a, t, ht, hu⟩ | ⟨e, hu⟩
  · unfold World.update
    rw [hu]
    cases hft : f w.tables with
    | ok t' =>
      rw [hft] at ht
      obtain ⟨-, rfl⟩ := Prod.mk.inj (Except.ok.inj ht)
      exact sound_of_same hs (hf t' hft).1 (hf t' hft).2 rfl
    | error e =>
      rw [hft] at ht
      nomatch ht
  · unfold World.update
    rw [hu]
    exact sound_of_same hs rfl rfl rfl

/-- A sound gateway in a world that comes later. -/
theorem sound_onward (h : g.Sound) (hs : w'.Sound) (ho : g.world.Onward w') : Gateway.Sound { g with world := w' } :=
  ⟨hs, fun t ht => lawful_onward (h.tasks t ht) ho, fun r hr => ho.owners r.2 r.1 (h.returned r hr)⟩

/-- A task more. -/
theorem sound_begin (h : g.Sound) {t : Task} (ht : t.Lawful g.world) : Gateway.Sound { g with tasks := t :: g.tasks } := by
  refine ⟨h.world, fun t' ht' => ?_, h.returned⟩
  rcases List.mem_cons.1 ht' with rfl | ht'
  · exact ht
  · exact h.tasks t' ht'

/-- The tasks that are left were tasks before. -/
theorem mem_of_left {tasks before after : List Task} {t t' : Task} (ht : tasks = before ++ t :: after)
    (h : t' ∈ before ++ after) : t' ∈ tasks := by
  rw [ht]
  exact List.mem_append.2 ((List.mem_append.1 h).imp_right (List.mem_cons_of_mem t))

/-- A row of usage is no conversation and no message. -/
theorem insertUsage_same {t t' : Tables} {row : Usage} (h : t.insertUsage row = .ok t') :
    t'.conversations = t.conversations ∧ t'.messages = t.messages := by
  unfold Tables.insertUsage at h
  split at h
  · nomatch h
  · rw [← Except.ok.inj h]
    exact ⟨rfl, rfl⟩

/-- A message between users is no conversation and no message of one. -/
theorem insertChat_same {t t' : Tables} {row : Store.Chat} (h : t.insertChat row = .ok t') :
    t'.conversations = t.conversations ∧ t'.messages = t.messages := by
  unfold Tables.insertChat at h
  split at h
  · nomatch h
  · rw [← Except.ok.inj h]
    exact ⟨rfl, rfl⟩

/-- Whatever happens next, a sound gateway stays so. -/
theorem sound_next (h : g.Sound) (hn : Next maxHistory g g') : g'.Sound := by
  cases hn with
  | prepare user payload => exact sound_begin h (lawful_prepareTask payload)
  | finish model text hr => exact sound_begin h (lawful_finishTask (h.returned _ hr) model text)
  | @step before after user s next clock ht =>
    obtain ⟨p, hp, hl⟩ := h.tasks _ (ht ▸ List.mem_append_right _ List.mem_cons_self)
    obtain ⟨hm, hs⟩ := s.moves clock h.world hp hl.1
    refine ⟨hs, fun t hmem => ?_, fun r hr => hm.onward.owners r.2 r.1 (h.returned r hr)⟩
    rcases List.mem_append.1 hmem with hmem | hmem
    · exact lawful_onward (h.tasks t (ht ▸ List.mem_append_left _ hmem)) hm.onward
    · rcases List.mem_cons.1 hmem with rfl | hmem
      · exact ⟨_, s.holds_learned clock h.world hp hl.1, hl.2 _⟩
      · exact lawful_onward (h.tasks t (ht ▸ List.mem_append_right _ (List.mem_cons_of_mem _ hmem))) hm.onward
  | @done before after user result ht =>
    obtain ⟨p, hp, hl⟩ := h.tasks _ (ht ▸ List.mem_append_right _ List.mem_cons_self)
    refine ⟨h.world, fun t hmem => ?_, fun r hr => ?_⟩
    · exact h.tasks t (mem_of_left ht hmem)
    · rcases List.mem_append.1 hr with hr | hr
      · obtain ⟨c, hc, rfl⟩ := List.mem_map.1 hr
        exact hp.owned c (hl c (by simpa using hc))
      · exact h.returned r hr
  | @drop before after task ht =>
    exact ⟨h.world, fun t hmem => h.tasks t (mem_of_left ht hmem), h.returned⟩
  | usage row =>
    obtain ⟨hs, ho⟩ := sound_update (f := (·.insertUsage row)) h.world fun t ht => insertUsage_same ht
    exact sound_onward h hs ho
  | chat row =>
    obtain ⟨hs, ho⟩ := sound_update (f := (·.insertChat row)) h.world fun t ht => insertChat_same ht
    exact sound_onward h hs ho
  | draw clock =>
    obtain ⟨hm, hs⟩ := Step.moves (s := .nextId) clock h.world (holds_empty 0 g.world) trivial
    exact sound_onward h hs hm.onward
  | reach reachable clock =>
    have hs : World.Sound { g.world with reachable, clock } ∧ g.world.Onward { g.world with reachable, clock } :=
      sound_of_same h.world rfl rfl rfl
    exact sound_onward h hs.1 hs.2

end GatewayAux

open GatewayAux

/-- Every state that a gateway reaches is sound. -/
theorem Reached.sound {maxHistory : Nat} {g : Gateway} (h : Reached maxHistory g) : g.Sound := by
  induction h with
  | fresh node clock =>
    refine ⟨⟨⟨.nil, .nil, nofun⟩, Generator.wellFormed_ofNode node, fun _ => ⟨nofun, nofun⟩⟩, nofun, nofun⟩
  | next _ hn ih => exact sound_next ih hn

/-- A call that has begun may take all its steps at once. -/
theorem Reached.runs {maxHistory : Nat} {g : Gateway} {user : Int} {r : Routine (Option Int)} {tasks : List Task}
    (h : Reached maxHistory g) (ht : g.tasks = ⟨user, r⟩ :: tasks) (clock : Clock) :
    Reached maxHistory
      { world := (r.runOn clock g.world).world
        tasks := tasks
        returned := (r.runOn clock g.world).answer.toList.map (fun conversation => (user, conversation)) ++ g.returned } := by
  induction r generalizing g clock with
  | done result =>
    have hd : g.tasks = [] ++ ⟨user, .done result⟩ :: tasks := ht
    exact .next h (.done hd)
  | step s next ih =>
    have hs : g.tasks = [] ++ ⟨user, .step s next⟩ :: tasks := ht
    exact ih _ (.next h (.step clock hs)) rfl _

/-- What comes after a turn that was prepared without a pause. -/
def Gateway.prepared (g : Gateway) (maxHistory : Nat) (user : Int) (payload : Members) (clock : Clock) : Gateway :=
  let o := (prepare maxHistory user payload).run.runOn clock g.world
  { g with
    world := o.world
    returned := o.answer.toOption.toList.map (fun turn => (user, turn.conversation)) ++ g.returned }

/-- A turn may be prepared without a pause. -/
theorem Reached.prepared {maxHistory : Nat} {g : Gateway} (h : Reached maxHistory g) (user : Int) (payload : Members)
    (clock : Clock) : Reached maxHistory (g.prepared maxHistory user payload clock) := by
  have hr := (h.next (.prepare g user payload)).runs rfl clock
  simp only [Routine.runOn_bind, Routine.runOn] at hr
  unfold Gateway.prepared
  cases ha : ((prepare maxHistory user payload).run.runOn clock g.world).answer with
  | ok turn =>
    rw [ha] at hr
    simp only [ha]
    exact hr
  | error e =>
    rw [ha] at hr
    simp only [ha]
    exact hr

end InferenceGate.Chat
