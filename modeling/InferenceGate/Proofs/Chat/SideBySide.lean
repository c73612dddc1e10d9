import InferenceGate.Proofs.Chat.Gateway
import InferenceGate.Proofs.Chat.Settling

/-!
# Turns side by side

Any number of turns are prepared and replied to at once, each a task that takes its steps between those of the others (`Traffic`).
Between two steps a conversation may show the figures of an earlier state, but then a task under way owes it to bring them up to date
(`Traffic.Sound`). No task ends owing anything, so that all figures are accurate when none is left; and at no point does a
conversation have two system messages.
-/

namespace InferenceGate.Chat

open Json Store Ids

/-- The tables and the calls under way. -/
structure Traffic where
  tables : Tables := {}
  tasks : List Task := []

namespace Traffic

/-- What may happen next, while no step of the store fails: a turn is begun, of any user, or its reply in a conversation that exists; a
task takes its next step, whatever the clock, the ids and the rest of the world are by then; a task is done. -/
inductive Next : Traffic → Traffic → Prop where
  | prepare (t : Traffic) (maxHistory : Nat) (user : Int) (payload : Members) :
      Next t { t with tasks := .prepare maxHistory user payload :: t.tasks }
  | finish {t : Traffic} {conversation : Int} (user : Int) (model : String) (text : Option String) :
      t.tables.Has conversation → Next t { t with tasks := .finish conversation user model text :: t.tasks }
  | step {t : Traffic} {before after : List Task} {user : Int} {s : Step} {next : s.Answer → Routine (Option Int)} (clock : Clock)
      (w : World) : t.tasks = before ++ ⟨user, .step s next⟩ :: after → w.tables = t.tables →
      s.Succeeds (s.takeOn clock w).answer →
      Next t ⟨(s.takeOn clock w).world.tables, before ++ ⟨user, next (s.takeOn clock w).answer⟩ :: after⟩
  | done {t : Traffic} {before after : List Task} {user : Int} {result : Option Int} :
      t.tasks = before ++ ⟨user, .done result⟩ :: after → Next t { t with tasks := before ++ after }

/-- The states that traffic on an empty store comes to. -/
inductive Reached : Traffic → Prop where
  | empty : Reached {}
  | next {t t' : Traffic} : Reached t → Next t t' → Reached t'

end Traffic

/-! ## What holds in every state -/

/-- A task under way may know and owe what a duty says: what it knows exists, and it goes on to do all that it owes. -/
structure Task.Bears (k : Task) (tables : Tables) (d : Duty) : Prop where
  knows : tables.Knows d
  dutiful : Routine.Dutiful d k.rest fun d' _ => d'.owed = []

/-- Sound traffic: regular tables, tasks that do what they owe, and no conversation with figures that are neither accurate nor owed. -/
structure Traffic.Sound (t : Traffic) : Prop where
  regular : t.tables.Regular
  tasks : ∀ k ∈ t.tasks, ∃ d, k.Bears t.tables d
  figures : ∀ c ∈ t.tables.conversations, t.tables.Accurate c ∨ ∃ k ∈ t.tasks, ∃ d, k.Bears t.tables d ∧ c.id ∈ d.owed

namespace TrafficAux

variable {t t' : Traffic} {tables tables' : Tables} {k : Task} {d d' : Duty}

/-- One of the tasks is the one in the middle or among the others. -/
theorem mem_around {before after : List Task} {k' : Task} : k' ∈ before ++ k :: after ↔ k' = k ∨ k' ∈ before ++ after := by
  rw [List.mem_append, List.mem_cons, List.mem_append, or_left_comm]

/-- A turn to prepare bears its duty from the start, knowing no conversation. -/
theorem bears_prepare (maxHistory : Nat) (user : Int) (payload : Members) : (Task.prepare maxHistory user payload).Bears tables {} := by
  refine ⟨nofun, Routine.Dutiful.bind (dutiful_prepare maxHistory user payload rfl) fun d answer _ h => ?_⟩
  cases answer with
  | ok turn => exact h
  | error e => exact h

/-- The reply to a turn bears its duty from the start, knowing its conversation. -/
theorem bears_finish {conversation : Int} (h : tables.Has conversation) (user : Int) (model : String) (text : Option String) :
    (Task.finish conversation user model text).Bears tables { known := [conversation] } := by
  refine ⟨fun c hc => ?_, ?_⟩
  · rw [List.mem_singleton.1 hc]
    exact h
  · refine Routine.Dutiful.bind (dutiful_finish (List.mem_singleton_self _) rfl user model text) fun d answer _ h => ?_
    cases answer with
    | ok u => exact h
    | error e => exact h

/-- What a task bears it goes on to bear in tables that have lost no conversation. -/
theorem bears_onward (h : k.Bears tables d) (hkept : ∀ c, tables.Has c → tables'.Has c) : k.Bears tables' d :=
  ⟨fun c hc => hkept c (h.knows c hc), h.dutiful⟩

/-- A task that has taken a step bears what the step leaves of its duty. -/
theorem bears_step {user : Int} {s : Step} {next : s.Answer → Routine (Option Int)} {answer : s.Answer}
    (h : Task.Bears ⟨user, .step s next⟩ tables d) (hs : s.Succeeds answer) (hset : Tables.Settles d (s.duty d answer) tables tables') :
    Task.Bears ⟨user, next answer⟩ tables' (s.duty d answer) :=
  ⟨hset.knows, h.dutiful.2 answer hs⟩

/-- A task more. -/
theorem sound_begin (h : t.Sound) (hk : k.Bears t.tables d) : Traffic.Sound { t with tasks := k :: t.tasks } := by
  refine ⟨h.regular, fun k' hk' => ?_, fun c hc => ?_⟩
  · rcases List.mem_cons.1 hk' with rfl | hk'
    · exact ⟨d, hk⟩
    · exact h.tasks k' hk'
  · refine (h.figures c hc).imp_right ?_
    rintro ⟨k', hk', howed⟩
    exact ⟨k', List.mem_cons_of_mem k hk', howed⟩

/-- A task that is done owes nothing. -/
theorem sound_done {before after : List Task} {user : Int} {result : Option Int} (h : t.Sound)
    (ht : t.tasks = before ++ ⟨user, .done result⟩ :: after) : Traffic.Sound { t with tasks := before ++ after } := by
  refine ⟨h.regular, fun k hk => h.tasks k (GatewayAux.mem_of_left ht hk), fun c hc => (h.figures c hc).imp_right ?_⟩
  rintro ⟨k, hk, d, hbears, howed⟩
  rw [ht, mem_around] at hk
  rcases hk with rfl | hk
  · have hnone : d.owed = [] := hbears.dutiful
    rw [hnone] at howed
    nomatch howed
  · exact ⟨k, hk, d, hbears, howed⟩

/-- A task that takes a step of the store: a conversation that the step touches has accurate figures or is owed by the task from then
on, and one that it does not touch is owed by those that owed it before. -/
theorem sound_step {before after : List Task} {user : Int} {s : Step} {next : s.Answer → Routine (Option Int)} {answer : s.Answer}
    (h : t.Sound) (ht : t.tasks = before ++ ⟨user, .step s next⟩ :: after) (hs : s.Succeeds answer)
    (hm : s.Makes t.tables tables' answer) : Traffic.Sound ⟨tables', before ++ ⟨user, next answer⟩ :: after⟩ := by
  have hset : ∀ d, Task.Bears ⟨user, .step s next⟩ t.tables d → Tables.Settles d (s.duty d answer) t.tables tables' :=
    fun d hd => Step.settles h.regular hd.knows hd.dutiful.1 hm
  obtain ⟨d, hd⟩ := h.tasks _ (ht ▸ mem_around.2 (.inl rfl))
  refine ⟨(hset d hd).regular, fun k hk => ?_, fun c hc => ?_⟩
  · rcases mem_around.1 hk with rfl | hk
    · exact ⟨_, bears_step hd hs (hset d hd)⟩
    · obtain ⟨d', hb⟩ := h.tasks k (GatewayAux.mem_of_left ht hk)
      exact ⟨d', bears_onward hb (hset d hd).kept⟩
  rcases (hset d hd).figures c hc with hacc | howed | ⟨hc', hsame, -⟩
  · exact .inl hacc
  · exact .inr ⟨_, mem_around.2 (.inl rfl), _, bears_step hd hs (hset d hd), howed⟩
  rcases h.figures c hc' with hacc | ⟨k, hk, d', hb, howed⟩
  · exact .inl (hacc.congr hsame)
  rw [ht, mem_around] at hk
  rcases hk with rfl | hk
  · -- the task itself owed it, perhaps under another duty than the one above
    rcases (hset d' hb).figures c hc with hacc | howed' | ⟨-, -, hkeeps⟩
    · exact .inl hacc
    · exact .inr ⟨_, mem_around.2 (.inl rfl), _, bears_step hb hs (hset d' hb), howed'⟩
    · exact .inr ⟨_, mem_around.2 (.inl rfl), _, bears_step hb hs (hset d' hb), hkeeps howed⟩
  · exact .inr ⟨k, mem_around.2 (.inr hk), d', bears_onward hb (hset d hd).kept, howed⟩

/-- Whatever happens next, sound traffic stays so. -/
theorem sound_next (h : t.Sound) (hn : Traffic.Next t t') : t'.Sound := by
  cases hn with
  | prepare maxHistory user payload => exact sound_begin h (bears_prepare maxHistory user payload)
  | finish user model text hhas => exact sound_begin h (bears_finish hhas user model text)
  | step clock w ht hw hs => exact sound_step h ht hs (hw ▸ Step.makes_of_succeeds hs)
  | done ht => exact sound_done h ht

end TrafficAux

open TrafficAux

/-- Every state that traffic comes to is sound. -/
theorem Traffic.Reached.sound {t : Traffic} (h : t.Reached) : t.Sound := by
  induction h with
  | empty => exact ⟨⟨.nil, fun _ => Nat.zero_le 1, nofun⟩, nofun, nofun⟩
  | next _ hn ih => exact sound_next ih hn

namespace TrafficAux

/-- The task at a place takes its next step on a clock, or is done; without such a task, or when its step fails, nothing happens. -/
def advance (clock : Clock) (t : Traffic) (ids : Generator) (place : Nat) : Traffic × Generator :=
  match t.tasks.drop place with
  | [] => (t, ids)
  | ⟨_, .done _⟩ :: after => ({ t with tasks := t.tasks.take place ++ after }, ids)
  | ⟨user, .step s next⟩ :: after =>
    let o := s.takeOn clock { tables := t.tables, ids, clock := 0 }
    if s.Succeeds o.answer then (⟨o.world.tables, t.tasks.take place ++ ⟨user, next o.answer⟩ :: after⟩, o.world.ids) else (t, ids)

/-- Tasks that take their steps in an order of places, each at its own reading of the clock. -/
def play (clock : Clock) (t : Traffic) (ids : Generator) (places : List Nat) : Traffic × Generator :=
  places.foldl (fun now place => advance clock now.1 now.2 place) (t, ids)

/-- A first turn. -/
def opening : Members := [("messages", .array [messageObject "user" "hi"]), ("model", .string "m")]

/-- A turn that continues the conversation of the first and gives it a system message. -/
def continuation : Members :=
  [("conversation_id", .ofInt 512389598928703488),
    ("messages", .array [messageObject "system" "be brief", messageObject "user" "and now?"]), ("model", .string "m")]

/-- A clock that stands. -/
def frozen : Clock := .standing 1700000000123

/-- The state after a first turn on its own. -/
def opened : Traffic × Generator := play frozen ⟨{}, [.prepare 20 1 opening]⟩ (.ofNode 1) (List.replicate 8 0)

end TrafficAux

end InferenceGate.Chat
