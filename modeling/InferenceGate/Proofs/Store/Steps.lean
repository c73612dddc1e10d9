import InferenceGate.Proofs.Store.Effects

/-!
# What single steps make of the tables

A step that is answered without a fault makes of the tables what its statement does to them, and one that fails leaves them as they
are (`Step.takeOn_cases`). `Routine.MayEnd` is the run of a routine that nothing else writes between: the clock, the ids and whether
the store can be reached may be others at each of its steps.
-/

namespace InferenceGate.Store

open Ids

namespace Step

/-- A step is answered without a fault. -/
def Succeeds : (s : Step) → s.Answer → Prop
  | .now, _ | .nextId, _ => True
  | .createConversation _, answer => ∃ c : Conversation, answer = Except.ok c
  | .findConversation _ _, answer => ∃ c : Option Conversation, answer = Except.ok c
  | .insertMessages _, answer => answer = Except.ok ()
  | .upsertSystem _, answer => ∃ id : Int, answer = Except.ok id
  | .latestSystem _, answer => ∃ m : Option Message, answer = Except.ok m
  | .recentTurns _ _, answer => ∃ ms : List Message, answer = Except.ok ms
  | .refresh _ _ _, answer => answer = Except.ok ()

instance (s : Step) (answer : s.Answer) : Decidable (s.Succeeds answer) :=
  match s, answer with
  | .now, _ | .nextId, _ => isTrue trivial
  | .createConversation _, .ok c => isTrue ⟨c, rfl⟩
  | .findConversation _ _, .ok c => isTrue ⟨c, rfl⟩
  | .insertMessages _, .ok () => isTrue rfl
  | .upsertSystem _, .ok id => isTrue ⟨id, rfl⟩
  | .latestSystem _, .ok m => isTrue ⟨m, rfl⟩
  | .recentTurns _ _, .ok ms => isTrue ⟨ms, rfl⟩
  | .refresh _ _ _, .ok () => isTrue rfl
  | .createConversation _, .error _ | .findConversation _ _, .error _ | .upsertSystem _, .error _ | .latestSystem _, .error _
  | .recentTurns _ _, .error _ => isFalse nofun
  | .insertMessages _, .error _ | .refresh _ _ _, .error _ => isFalse nofun

/-- What a step that is answered without a fault answers, and what it makes of the tables. -/
def Makes (t t' : Tables) : (s : Step) → s.Answer → Prop
  | .createConversation c, answer => ∃ row : Conversation, answer = Except.ok row ∧ t.createConversation c = .ok (row, t')
  | .insertMessages ms, answer => answer = Except.ok () ∧ t.insertMessages ms = .ok t'
  | .upsertSystem m, answer => ∃ id : Int, answer = Except.ok id ∧ t.upsertSystem m = .ok (id, t')
  | .refresh id model time, answer => answer = Except.ok () ∧ t.refresh id model time = .ok t'
  | .findConversation id user, answer => answer = Except.ok (t.findConversation id user) ∧ t' = t
  | .latestSystem conversation, answer => answer = Except.ok (t.latestSystem conversation) ∧ t' = t
  | .recentTurns conversation limit, answer => answer = Except.ok (t.recentTurns conversation limit) ∧ t' = t
  | .now, _ | .nextId, _ => t' = t

/-- A step that fails answers with a fault of the store. -/
def Fails (e : Fault) : (s : Step) → s.Answer → Prop
  | .now, _ | .nextId, _ => False
  | .createConversation _, answer | .findConversation _ _, answer | .insertMessages _, answer | .upsertSystem _, answer
  | .latestSystem _, answer | .recentTurns _ _, answer | .refresh _ _ _, answer => answer = Except.error e

/-- A step that the tables refuse with a fault, or that finds the store away. -/
def MayFail (e : Fault) (t : Tables) (s : Step) : Prop :=
  ∃ (clock : Clock) (w : World), w.tables = t ∧ s.Fails e (s.takeOn clock w).answer

/-- A step that fails does not succeed. -/
theorem not_succeeds_of_fails {e : Fault} {s : Step} {answer : s.Answer} (h : s.Fails e answer) : ¬ s.Succeeds answer := by
  cases s with
  | now | nextId => exact h.elim
  | createConversation c | findConversation id user | upsertSystem m | latestSystem c | recentTurns c n =>
    obtain rfl := h
    rintro ⟨a, ha⟩
    nomatch ha
  | insertMessages ms | refresh id model time =>
    obtain rfl := h
    exact nofun

end Step

namespace World

variable {α : Type} (w : World)

/-- A question is answered by the tables, or not at all. -/
theorem ask_cases (f : Tables → α) : w.ask f = .ok (f w.tables) ∨ ∃ e, w.ask f = .error e := by
  unfold ask
  split
  · exact .inl rfl
  · exact .inr ⟨_, rfl⟩

/-- A change that answers nothing is made, or leaves the world as it is. -/
theorem update_cases (f : Tables → Except Fault Tables) :
    (∃ t, f w.tables = .ok t ∧ w.update f = (.ok (), { w with tables := t })) ∨ ∃ e, w.update f = (.error e, w) := by
  rcases w.change_cases fun t => (f t).map ((), ·) with ⟨a, t, ht, hu⟩ | h
  · have hmade : w.update f = (.ok (), { w with tables := t }) := hu
    obtain ⟨t', ht', -⟩ := update_ok hmade
    refine .inl ⟨t, ?_, hmade⟩
    rw [ht'] at ht ⊢
    rw [(Prod.mk.inj (Except.ok.inj ht)).2]
  · exact .inr h

/-- Messages are inserted, or the world stays as it is. -/
theorem insertMessages_cases (ms : List NewMessage) :
    (∃ t, w.tables.insertMessages ms = .ok t ∧ w.insertMessages ms = (.ok (), { w with tables := t })) ∨
      ∃ e, w.insertMessages ms = (.error e, w) := by
  cases ms with
  | nil => exact .inl ⟨w.tables, rfl, rfl⟩
  | cons m ms => exact w.update_cases (·.insertMessages (m :: ms))

/-- The newest turns are read, or nothing is. -/
theorem recentTurns_cases (conversation : Int) (limit : Nat) :
    w.recentTurns conversation limit = .ok (w.tables.recentTurns conversation limit) ∨
      ∃ e, w.recentTurns conversation limit = .error e := by
  cases limit with
  | zero => exact .inl rfl
  | succ n => exact w.ask_cases (·.recentTurns conversation (n + 1))

end World

/-- A step makes of the tables what its statement does to them, or fails and leaves them as they are. -/
theorem Step.takeOn_cases (s : Step) (clock : Clock) (w : World) :
    s.Makes w.tables (s.takeOn clock w).world.tables (s.takeOn clock w).answer ∨
      ((∃ e, s.Fails e (s.takeOn clock w).answer) ∧ (s.takeOn clock w).world.tables = w.tables) := by
  cases s with
  | now | nextId => exact .inl rfl
  | createConversation c =>
    show Makes w.tables (w.change (·.createConversation c)).2.tables (.createConversation c) (w.change (·.createConversation c)).1 ∨ _
    rcases w.change_cases (·.createConversation c) with ⟨row, t, ht, hw⟩ | ⟨e, hw⟩
    · rw [hw]
      exact .inl ⟨row, rfl, ht⟩
    · exact .inr ⟨⟨e, congrArg Prod.fst hw⟩, congrArg (·.2.tables) hw⟩
  | upsertSystem m =>
    show Makes w.tables (w.change (·.upsertSystem m)).2.tables (.upsertSystem m) (w.change (·.upsertSystem m)).1 ∨ _
    rcases w.change_cases (·.upsertSystem m) with ⟨id, t, ht, hw⟩ | ⟨e, hw⟩
    · rw [hw]
      exact .inl ⟨id, rfl, ht⟩
    · exact .inr ⟨⟨e, congrArg Prod.fst hw⟩, congrArg (·.2.tables) hw⟩
  | insertMessages ms =>
    show Makes w.tables (w.insertMessages ms).2.tables (.insertMessages ms) (w.insertMessages ms).1 ∨ _
    rcases w.insertMessages_cases ms with ⟨t, ht, hw⟩ | ⟨e, hw⟩
    · rw [hw]
      exact .inl ⟨rfl, ht⟩
    · exact .inr ⟨⟨e, congrArg Prod.fst hw⟩, congrArg (·.2.tables) hw⟩
  | refresh id model time =>
    show Makes w.tables (w.update (·.refresh id model time)).2.tables (.refresh id model time)
      (w.update (·.refresh id model time)).1 ∨ _
    rcases w.update_cases (·.refresh id model time) with ⟨t, ht, hw⟩ | ⟨e, hw⟩
    · rw [hw]
      exact .inl ⟨rfl, ht⟩
    · exact .inr ⟨⟨e, congrArg Prod.fst hw⟩, congrArg (·.2.tables) hw⟩
  | findConversation id user => exact (w.ask_cases (·.findConversation id user)).imp (⟨·, rfl⟩) fun ⟨e, he⟩ => ⟨⟨e, he⟩, rfl⟩
  | latestSystem c => exact (w.ask_cases (·.latestSystem c)).imp (⟨·, rfl⟩) fun ⟨e, he⟩ => ⟨⟨e, he⟩, rfl⟩
  | recentTurns c n => exact (w.recentTurns_cases c n).imp (⟨·, rfl⟩) fun ⟨e, he⟩ => ⟨⟨e, he⟩, rfl⟩

/-- A step that succeeds makes of the tables what its statement does to them. -/
theorem Step.makes_of_succeeds {s : Step} {clock : Clock} {w : World} (h : s.Succeeds (s.takeOn clock w).answer) :
    s.Makes w.tables (s.takeOn clock w).world.tables (s.takeOn clock w).answer :=
  (s.takeOn_cases clock w).resolve_right fun ⟨⟨_, hf⟩, _⟩ => not_succeeds_of_fails hf h

/-- Steps made one after the other, each as a whole. -/
def Step.Made : List Step → Tables → Tables → Prop
  | [], t, t' => t' = t
  | s :: steps, t, t' => ∃ answer t₁, s.Makes t t₁ answer ∧ Made steps t₁ t'

/-- Steps made one after the other are made together. -/
theorem Step.made_append {steps steps' : List Step} {t t₁ t' : Tables} (h : Made steps t t₁) (h' : Made steps' t₁ t') :
    Made (steps ++ steps') t t' := by
  induction steps generalizing t with
  | nil =>
    obtain rfl := h
    exact h'
  | cons s steps ih =>
    obtain ⟨answer, t₀, h₀, h⟩ := h
    exact ⟨answer, t₀, h₀, ih h⟩

namespace Routine

variable {α β : Type}

/-- A routine that begins on some tables may end with an answer and others: at each step the clock, the ids and whether the store can
be reached are any. -/
inductive MayEnd : Tables → Routine α → α → Tables → Prop where
  | done (t : Tables) (a : α) : MayEnd t (.done a) a t
  | step {s : Step} {next : s.Answer → Routine α} {a : α} {t' : Tables} (clock : Clock) (w : World) :
      MayEnd (s.takeOn clock w).world.tables (next (s.takeOn clock w).answer) a t' → MayEnd w.tables (.step s next) a t'

/-- A run without a pause is one of the ways to end. -/
theorem mayEnd_runOn (r : Routine α) (clock : Clock) (w : World) :
    MayEnd w.tables r (r.runOn clock w).answer (r.runOn clock w).world.tables := by
  induction r generalizing clock w with
  | done a => exact .done w.tables a
  | step s next ih => exact .step clock w (ih _ _ _)

/-- Two routines in sequence end as the second does where the first ended. -/
theorem mayEnd_bind {r : Routine α} {f : α → Routine β} {t t' : Tables} {b : β} (h : MayEnd t (r.bind f) b t') :
    ∃ a t₁, MayEnd t r a t₁ ∧ MayEnd t₁ (f a) b t' := by
  induction r generalizing t with
  | done a => exact ⟨a, t, .done t a, h⟩
  | step s next ih =>
    cases h with
    | step clock w h =>
      obtain ⟨a, t₁, h₁, h₂⟩ := ih _ h
      exact ⟨a, t₁, .step clock w h₁, h₂⟩

/-- A routine that is done ends where it is. -/
theorem mayEnd_done {t t' : Tables} {a b : α} (h : MayEnd t (.done a) b t') : b = a ∧ t' = t := by
  cases h
  exact ⟨rfl, rfl⟩

/-- The routine of a single step ends as the step does. -/
theorem mayEnd_take {s : Step} {answer : s.Answer} {t t' : Tables} (h : MayEnd t (take s) answer t') :
    s.Makes t t' answer ∨ ∃ e, s.Fails e answer ∧ s.MayFail e t ∧ t' = t := by
  cases h with
  | step clock w h =>
    obtain ⟨rfl, rfl⟩ := mayEnd_done h
    exact (s.takeOn_cases clock w).imp_right fun ⟨⟨e, he⟩, ht⟩ => ⟨e, he, ⟨clock, w, rfl, he⟩, ht⟩

/-- A step that makes nothing of the tables leaves them as they are, also when it fails. -/
theorem mayEnd_read {s : Step} {answer : s.Answer} {t t' : Tables} (hr : s.Makes t t' answer → t' = t)
    (h : MayEnd t (take s) answer t') : t' = t := by
  rcases mayEnd_take h with hm | ⟨e, -, -, ht⟩
  · exact hr hm
  · exact ht

end Routine

end InferenceGate.Store
