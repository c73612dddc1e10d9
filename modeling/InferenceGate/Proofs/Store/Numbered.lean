import InferenceGate.Proofs.Ids.Order
import InferenceGate.Proofs.Store.Permit
import InferenceGate.Proofs.Store.Steps

/-!
# Rows are numbered by the generator

Whatever calls do, and whatever they mean to write, they number their rows with ids that they drew. So the generator stays past the
ids of all rows (`World.Numbered`), and an id drawn next is the id of no row.
-/

namespace InferenceGate.Store

open Ids

/-- A world whose generator is past the ids of all rows, while its milliseconds have not run out. -/
structure World.Numbered (w : World) : Prop where
  wellFormed : w.ids.WellFormed
  below : w.ids.InRange → w.tables.Below w.ids.floor

/-- The ids that a permit lets rows have were issued. -/
def Permit.Issued (p : Permit) (w : World) : Prop := w.ids.InRange → ∀ id ∈ p.drawn, id < w.ids.floor

variable {w w' : World} {p : Permit} {user : Int}

/-- Ids that were issued stay so. -/
theorem Permit.Issued.onward (h : p.Issued w) (ha : w.ids.Ahead w'.ids) : p.Issued w' :=
  fun hr id hid => Int.lt_of_lt_of_le (h (ha.inRange hr) id hid) (ha.floor_le hr)

/-- Other tables whose ids are below the floor, under a generator that has not gone back. -/
theorem World.Numbered.onward (h : w.Numbered) (ha : w.ids.Ahead w'.ids)
    (hb : w.tables.Below w.ids.floor → w'.ids.InRange → w'.tables.Below w.ids.floor) : w'.Numbered :=
  ⟨ha.wellFormed, fun hr => (hb (h.below (ha.inRange hr)) hr).mono (ha.floor_le hr)⟩

/-! ## One step -/

namespace Step

/-- A step draws an id, or it leaves the generator as it is. -/
theorem takeOn_ids (s : Step) (clock : Clock) (w : World) :
    s = .nextId ∨ (s.takeOn clock w).world.ids = w.ids := by
  cases s with
  | nextId => exact .inl rfl
  | now | findConversation id user | latestSystem c | recentTurns c n => exact .inr rfl
  | createConversation c =>
    refine .inr ?_
    rcases w.change_cases (·.createConversation c) with ⟨row, t, -, hw⟩ | ⟨e, hw⟩ <;> exact congrArg (·.2.ids) hw
  | insertMessages ms =>
    refine .inr ?_
    rcases w.insertMessages_cases ms with ⟨t, -, hw⟩ | ⟨e, hw⟩ <;> exact congrArg (·.2.ids) hw
  | upsertSystem m =>
    refine .inr ?_
    rcases w.change_cases (·.upsertSystem m) with ⟨id, t, -, hw⟩ | ⟨e, hw⟩ <;> exact congrArg (·.2.ids) hw
  | refresh id model time =>
    refine .inr ?_
    rcases w.update_cases (·.refresh id model time) with ⟨t, -, hw⟩ | ⟨e, hw⟩ <;> exact congrArg (·.2.ids) hw

/-- No step makes the generator go back. -/
theorem ahead_takeOn (s : Step) (clock : Clock) (h : w.ids.WellFormed) : w.ids.Ahead (s.takeOn clock w).world.ids := by
  rcases s.takeOn_ids clock w with rfl | he
  · exact .next h clock
  · rw [he]
    exact .refl h

/-- A permitted step puts no row in the tables under an id that was not drawn for it. -/
theorem below_takeOn {floor : Int} {s : Step} (clock : Clock) (hb : w.tables.Below floor) (hd : ∀ id ∈ p.drawn, id < floor)
    (hs : s.Permitted user p) : (s.takeOn clock w).world.tables.Below floor := by
  rcases s.takeOn_cases clock w with hm | ⟨-, ht⟩
  · cases s with
    | now | nextId =>
      rw [show _ = w.tables from hm]
      exact hb
    | findConversation id u | latestSystem c | recentTurns c n =>
      rw [hm.2]
      exact hb
    | createConversation c =>
      obtain ⟨row, -, hc⟩ := hm
      exact Tables.below_create hb (hd _ hs.2) hc
    | insertMessages ms => exact Tables.below_insert hb (fun m hmem => hd _ (hs m hmem).drawn) hm.2
    | upsertSystem m =>
      obtain ⟨id, -, hu⟩ := hm
      exact Tables.below_upsert hb (hd _ hs.drawn) hu
    | refresh id model time => exact Tables.below_refresh hb hm.2
  · rw [ht]
    exact hb

/-- The ids that a step leaves to be used were issued. -/
theorem issued_learned {s : Step} (clock : Clock) (h : w.ids.WellFormed) (hp : p.Issued w) :
    (s.learned p (s.takeOn clock w).answer).Issued (s.takeOn clock w).world := by
  have ho : p.Issued (s.takeOn clock w).world := hp.onward (s.ahead_takeOn clock h)
  by_cases hn : s = .nextId
  · subst hn
    intro hr id hid
    rcases List.mem_cons.1 hid with rfl | hid
    · exact h.id_lt_floor hr
    · exact ho hr id hid
  · intro hr
    rw [learned_drawn hn]
    exact ho hr

/-- A permitted step keeps the rows numbered by the generator. -/
theorem numbered_takeOn {s : Step} (clock : Clock) (h : w.Numbered) (hp : p.Issued w) (hs : s.Permitted user p) :
    (s.takeOn clock w).world.Numbered := by
  have ha := s.ahead_takeOn clock h.wellFormed
  exact h.onward ha fun hb hr => below_takeOn clock hb (hp (ha.inRange hr)) hs

end Step

/-! ## Whole runs -/

namespace Routine

variable {α : Type}

/-- No run makes the generator go back. -/
theorem ahead_runOn (r : Routine α) (clock : Clock) (h : w.ids.WellFormed) : w.ids.Ahead (r.runOn clock w).world.ids := by
  induction r generalizing clock w with
  | done a => exact .refl h
  | step s next ih =>
    have ha := s.ahead_takeOn clock h
    exact ha.trans (ih _ _ ha.wellFormed)

end Routine

end InferenceGate.Store
