import InferenceGate.Chat.Turn

/-!
# Routines that end well

`Ends r clock w o` says that a routine of a turn, run without a pause on a clock and a world, finds no fault and comes to `o`. What
is said here of each way to build a routine lets a longer one be taken apart into the runs of its parts.
-/

namespace InferenceGate.Chat

open Store

/-- A routine of a turn that ends well, with its outcome. -/
def Ends {α : Type} (r : TurnRoutine α) (clock : Ids.Clock) (w : World) (o : Outcome α) : Prop :=
  (ExceptT.run r).runOn clock w = ⟨.ok o.answer, o.world, o.clock⟩

section Parts

variable {α β : Type} {clock : Ids.Clock} {w : World}

/-- A value ends where it begins. -/
theorem ends_pure {a : α} {o : Outcome α} : Ends (pure a) clock w o ↔ o = ⟨a, w, clock⟩ := by
  obtain ⟨a', w', clock'⟩ := o
  constructor
  · intro h
    obtain ⟨⟩ := h
    rfl
  · intro h
    obtain ⟨⟩ := h
    rfl

/-- A fault does not end well. -/
theorem not_ends_throw {f : TurnFault} {o : Outcome α} : ¬ Ends (throw f) clock w o := by
  intro h
  exact nomatch (Outcome.mk.inj h).1

/-- The second of two routines in sequence runs where the first ended, on what the first came to. -/
theorem runOn_bind_eq (r : TurnRoutine α) (f : α → TurnRoutine β) (clock : Ids.Clock) (w : World) :
    (ExceptT.run (r >>= f)).runOn clock w =
      (ExceptT.bindCont f ((ExceptT.run r).runOn clock w).answer).runOn ((ExceptT.run r).runOn clock w).clock
        ((ExceptT.run r).runOn clock w).world :=
  Routine.runOn_bind _ _ _ _

/-- Two routines in sequence end well when the first does and then the second. -/
theorem ends_bind {r : TurnRoutine α} {f : α → TurnRoutine β} {o : Outcome β} :
    Ends (r >>= f) clock w o ↔ ∃ m : Outcome α, Ends r clock w m ∧ Ends (f m.answer) m.clock m.world o := by
  unfold Ends
  rw [runOn_bind_eq]
  obtain ⟨answer, w', clock'⟩ := (ExceptT.run r).runOn clock w
  cases answer with
  | ok a =>
    constructor
    · exact fun h => ⟨⟨a, w', clock'⟩, rfl, h⟩
    · rintro ⟨⟨⟩, hm, h⟩
      obtain ⟨⟩ := hm
      exact h
  | error e =>
    constructor
    · intro h
      exact nomatch (Outcome.mk.inj h).1
    · rintro ⟨m, hm, -⟩
      exact nomatch (Outcome.mk.inj hm).1

/-- What follows a routine that ends well runs where it ended. -/
theorem runOn_bind_of_ends {r : TurnRoutine α} {f : α → TurnRoutine β} {m : Outcome α} (h : Ends r clock w m) :
    (ExceptT.run (r >>= f)).runOn clock w = (ExceptT.run (f m.answer)).runOn m.clock m.world := by
  rw [runOn_bind_eq, h]
  rfl

/-- A fault is not followed by anything. -/
theorem answer_bind_of_fault {r : TurnRoutine α} {f : α → TurnRoutine β} {e : TurnFault}
    (h : ((ExceptT.run r).runOn clock w).answer = .error e) : ((ExceptT.run (r >>= f)).runOn clock w).answer = .error e := by
  rw [runOn_bind_eq, h]
  rfl

/-- A step that cannot fail ends well. -/
theorem ends_always {r : Routine α} {o : Outcome α} : Ends (always r) clock w o ↔ r.runOn clock w = o := by
  have hb : (ExceptT.run (always r)).runOn clock w =
      ⟨.ok (r.runOn clock w).answer, (r.runOn clock w).world, (r.runOn clock w).clock⟩ := Routine.runOn_bind _ _ _ _
  unfold Ends
  rw [hb]
  obtain ⟨a, w', clock'⟩ := r.runOn clock w
  obtain ⟨a', w'', clock''⟩ := o
  constructor
  · intro h
    obtain ⟨⟩ := h
    rfl
  · intro h
    obtain ⟨⟩ := h
    rfl

/-- A step of the store ends well when it is answered. -/
theorem ends_stored {r : Routine (Except Store.Fault α)} {o : Outcome α} :
    Ends (stored r) clock w o ↔ r.runOn clock w = ⟨.ok o.answer, o.world, o.clock⟩ := by
  have hb : (ExceptT.run (stored r)).runOn clock w =
      ⟨(r.runOn clock w).answer.mapError .store, (r.runOn clock w).world, (r.runOn clock w).clock⟩ :=
    Routine.runOn_bind _ _ _ _
  unfold Ends
  rw [hb]
  obtain ⟨answer, w', clock'⟩ := r.runOn clock w
  cases answer with
  | ok a =>
    constructor
    · intro h
      obtain ⟨⟩ := h
      rfl
    · intro h
      obtain ⟨⟩ := h
      rfl
  | error e =>
    constructor
    · intro h
      exact nomatch (Outcome.mk.inj h).1
    · intro h
      exact nomatch (Outcome.mk.inj h).1

end Parts

end InferenceGate.Chat
