import InferenceGate.Proofs.Ids.Order
import InferenceGate.Proofs.Store.Permit
import InferenceGate.Proofs.Store.Tenant

/-!
# Lawful routines are confined

What a permitted step does to a sound world: it moves only rows of its user (`Step.moves`), and the permit it leaves holds again
(`Step.holds_learned`). On the user's part of the tables alone it is answered the same and leaves that part the same, as long as
the ids it stores are not ids of the others (`Step.takeOn_restrict`). A lawful routine run without a pause is a sequence of such
steps (`Routine.Lawful.moves`, `Routine.Lawful.runOn_restrict`).
-/

namespace InferenceGate.Store

open Ids

/-! ## Sound worlds -/

/-- A world as calls leave it: tidy tables, and no row has an id that the generator may still issue. -/
structure World.Sound (w : World) : Prop where
  tidy : w.tables.Tidy
  wellFormed : w.ids.WellFormed
  below : w.ids.InRange → w.tables.Below w.ids.floor

/-- What a permit says holds in a world: the conversations are the user's, and the ids have been issued. -/
structure Permit.Holds (p : Permit) (user : Int) (w : World) : Prop where
  owned : ∀ c ∈ p.owned, w.tables.owner? c = some user
  drawn : w.ids.InRange → ∀ id ∈ p.drawn, id < w.ids.floor

/-- A world that comes later: no conversation has changed hands, and the generator has not gone back. -/
structure World.Onward (w w' : World) : Prop where
  owners : ∀ id v, w.tables.owner? id = some v → w'.tables.owner? id = some v
  ids : w.ids.Ahead w'.ids

/-- A world moved by a user: only his rows changed, and the generator has not gone back. -/
structure Moves (user : Int) (w w' : World) : Prop where
  touches : w.tables.Touches user w'.tables
  ids : w.ids.Ahead w'.ids

variable {user : Int} {w w' w'' : World} {p : Permit} {floor : Int}

theorem Moves.refl (h : w.Sound) : Moves user w w := ⟨.refl h.tidy, .refl h.wellFormed⟩

theorem Moves.trans (h : Moves user w w') (h' : Moves user w' w'') : Moves user w w'' :=
  ⟨h.touches.trans h'.touches, h.ids.trans h'.ids⟩

theorem Moves.onward (h : Moves user w w') : w.Onward w' := ⟨h.touches.owners, h.ids⟩

/-- A permit that holds goes on to hold. -/
theorem Permit.Holds.onward (h : p.Holds user w) (ho : w.Onward w') : p.Holds user w' := by
  refine ⟨fun c hc => ho.owners c user (h.owned c hc), fun hr id hid => ?_⟩
  exact Int.lt_of_lt_of_le (h.drawn (ho.ids.inRange hr) id hid) (ho.ids.floor_le hr)

namespace Tables

variable {t t' : Tables}

/-- What is below a floor is so for every user. -/
theorem Below.foreign (h : t.Below floor) : t.Foreign user floor := ⟨fun c hc _ => h.conversations c hc, fun m hm _ => h.messages m hm⟩

/-- The ids of the others stay as they are when only a user's rows change. -/
theorem Foreign.touches (h : t.Foreign user floor) (ht : t.Touches user t') : t'.Foreign user floor := by
  constructor
  · intro c hc hu
    have hc' : c ∈ (t'.without user).conversations := List.mem_filter.2 ⟨hc, by simpa using hu⟩
    rw [ht.others] at hc'
    exact h.conversations c (List.mem_filter.1 hc').1 hu
  · intro m hm hu
    have hm' : m ∈ (t'.without user).messages := List.mem_filter.2 ⟨hm, by simpa using hu⟩
    rw [ht.others] at hm'
    obtain ⟨h1, h2⟩ := List.mem_filter.1 hm'
    exact h.messages m h1 (by simpa using h2)

end Tables

/-! ## Changes -/

namespace World

variable {α : Type}

/-- A world with one user's part of the tables. -/
def restrict (w : World) (user : Int) : World := { w with tables := w.tables.restrict user }

/-- A change that touches a user's rows alone and brings no id that may still be issued moves a sound world. -/
theorem change_moves (hs : w.Sound) {f : Tables → Except Fault (α × Tables)}
    (hf : ∀ a t, f w.tables = .ok (a, t) → w.tables.Touches user t ∧ (w.ids.InRange → t.Below w.ids.floor)) :
    Moves user w (w.change f).2 ∧ (w.change f).2.Sound := by
  rcases w.change_cases f with ⟨a, t, ha, hc⟩ | ⟨e, hc⟩
  · rw [hc]
    obtain ⟨ht, hb⟩ := hf a t ha
    exact ⟨⟨ht, .refl hs.wellFormed⟩, ⟨ht.tidy, hs.wellFormed, hb⟩⟩
  · rw [hc]
    exact ⟨.refl hs, hs⟩

/-- An update that touches what is the user's alone moves within it. -/
theorem update_moves (hs : w.Sound) {f : Tables → Except Fault Tables}
    (hf : ∀ t, f w.tables = .ok t → w.tables.Touches user t ∧ (w.ids.InRange → t.Below w.ids.floor)) :
    Moves user w (w.update f).2 ∧ (w.update f).2.Sound := by
  refine change_moves hs fun a t h => ?_
  cases hft : f w.tables with
  | ok t' =>
    rw [hft] at h
    obtain ⟨-, rfl⟩ := Prod.mk.inj (Except.ok.inj h)
    exact hf t' hft
  | error e =>
    rw [hft] at h
    nomatch h

/-- A change that does to a part of the tables what it does to the whole is answered there as in the whole. -/
theorem change_restrict {f : Tables → Except Fault (α × Tables)}
    (h : f (w.tables.restrict user) = (f w.tables).map fun r => (r.1, r.2.restrict user)) :
    (w.restrict user).change f = ((w.change f).1, (w.change f).2.restrict user) := by
  unfold change restrict
  simp only [h]
  by_cases hr : w.reachable = true
  · rw [if_pos hr, if_pos hr]
    cases f w.tables <;> rfl
  · rw [if_neg hr, if_neg hr]

/-- An update that can be done on what is left to a user is the same there. -/
theorem update_restrict {f : Tables → Except Fault Tables}
    (h : f (w.tables.restrict user) = (f w.tables).map (·.restrict user)) :
    (w.restrict user).update f = ((w.update f).1, (w.update f).2.restrict user) := by
  refine change_restrict ?_
  rw [h]
  cases f w.tables <;> rfl

/-- A question that a part of the tables answers as the whole does. -/
theorem ask_restrict {f : Tables → α} (h : f (w.tables.restrict user) = f w.tables) : (w.restrict user).ask f = w.ask f := by
  unfold ask restrict
  rw [h]

end World

/-! ## One step -/

namespace Step

variable {s : Step} {clock : Clock}

/-- A step without a change of the world moves nothing. -/
theorem moves_of_eq (hs : w.Sound) (h : (s.takeOn clock w).world = w) :
    Moves user w (s.takeOn clock w).world ∧ (s.takeOn clock w).world.Sound := by
  rw [h]
  exact ⟨.refl hs, hs⟩

/-- A permitted step moves its user's rows alone. -/
theorem moves (clock : Clock) (hs : w.Sound) (h : p.Holds user w) (hp : s.Permitted user p) :
    Moves user w (s.takeOn clock w).world ∧ (s.takeOn clock w).world.Sound := by
  cases s with
  | now => exact moves_of_eq hs rfl
  | nextId =>
    have hn := Generator.Ahead.next hs.wellFormed clock
    refine ⟨⟨.refl hs.tidy, hn⟩, ⟨hs.tidy, hn.wellFormed, fun hr => ?_⟩⟩
    exact (hs.below (hn.inRange hr)).mono (hn.floor_le hr)
  | createConversation c =>
    obtain ⟨hu, hid⟩ := hp
    refine World.change_moves hs fun row t hc => ⟨(Tables.touches_create hs.tidy hu hc).1, fun hr => ?_⟩
    exact Tables.below_create (hs.below hr) (h.drawn hr _ hid) hc
  | findConversation id u => exact moves_of_eq hs rfl
  | insertMessages ms =>
    show Moves user w (w.insertMessages ms).2 ∧ (w.insertMessages ms).2.Sound
    unfold World.insertMessages
    split
    · exact ⟨.refl hs, hs⟩
    · refine World.update_moves hs fun t hi => ⟨?_, fun hr => ?_⟩
      · exact Tables.touches_insert hs.tidy (fun m hm => ⟨(hp m hm).user_eq, h.owned _ (hp m hm).owned⟩) hi
      · exact Tables.below_insert (hs.below hr) (fun m hm => h.drawn hr _ (hp m hm).drawn) hi
  | upsertSystem m =>
    refine World.change_moves hs fun id t hi => ⟨?_, fun hr => ?_⟩
    · exact Tables.touches_upsert hs.tidy hp.user_eq (h.owned _ hp.owned) hi
    · exact Tables.below_upsert (hs.below hr) (h.drawn hr _ hp.drawn) hi
  | latestSystem c => exact moves_of_eq hs rfl
  | recentTurns c n => exact moves_of_eq hs rfl
  | refresh id model time =>
    refine World.update_moves hs fun t hi => ⟨?_, fun hr => ?_⟩
    · exact Tables.touches_refresh hs.tidy (h.owned _ hp) hi
    · exact Tables.below_refresh (hs.below hr) hi

/-- What a step lets its user do, he may do in the world it leaves. -/
theorem holds_learned (clock : Clock) (hs : w.Sound) (h : p.Holds user w) (hp : s.Permitted user p) :
    (s.learned p (s.takeOn clock w).answer).Holds user (s.takeOn clock w).world := by
  have hm := h.onward (moves clock hs h hp).1.onward
  cases s with
  | nextId =>
    refine ⟨hm.owned, fun hr id hid => ?_⟩
    rcases List.mem_cons.1 hid with rfl | hid
    · exact hs.wellFormed.id_lt_floor hr
    · exact hm.drawn hr id hid
  | createConversation c =>
    rcases w.change_cases (·.createConversation c) with ⟨row, t, hc, ho⟩ | ⟨e, ho⟩
    · simp only [takeOn, Outcome.unread, ho] at hm ⊢
      refine ⟨fun d hd => ?_, hm.drawn⟩
      rcases List.mem_cons.1 hd with rfl | hd
      · exact (Tables.touches_create hs.tidy hp.1 hc).2
      · exact hm.owned d hd
    · simp only [takeOn, Outcome.unread, ho] at hm ⊢
      exact hm
  | findConversation id u =>
    have hu : u = user := hp
    subst hu
    show (learned p (.findConversation id u) (w.ask (·.findConversation id u))).Holds u w
    cases ha : w.ask (·.findConversation id u) with
    | error e => exact h
    | ok found =>
      cases found with
      | none => exact h
      | some c =>
        refine ⟨fun d hd => ?_, h.drawn⟩
        rcases List.mem_cons.1 hd with rfl | hd
        · exact Tables.owner?_of_find hs.tidy (World.ask_ok ha).symm
        · exact h.owned d hd
  | now | insertMessages ms | upsertSystem m | latestSystem c | recentTurns c n | refresh id model time => exact hm

/-- A permitted step is answered on its user's rows alone as on all, and leaves those rows the same. -/
theorem takeOn_restrict (hs : w.Sound) (h : p.Holds user w) (hp : s.Permitted user p) (hf : w.tables.Foreign user floor)
    (hd : ∀ id ∈ p.drawn, floor ≤ id) :
    s.takeOn clock (w.restrict user) =
      ⟨(s.takeOn clock w).answer, (s.takeOn clock w).world.restrict user, (s.takeOn clock w).clock⟩ := by
  cases s with
  | now => rfl
  | nextId => rfl
  | createConversation c =>
    have hc := World.change_restrict (f := (·.createConversation c))
      (Tables.createConversation_restrict hs.tidy hf hp.1 (hd _ hp.2))
    simp only [takeOn, Outcome.unread, hc]
  | findConversation id u =>
    have hu : u = user := hp
    subst hu
    simp only [takeOn, World.ask_restrict (f := (·.findConversation id u)) (w.tables.findConversation_restrict id u)]
  | insertMessages ms =>
    have hi := World.update_restrict (f := (·.insertMessages ms))
      (Tables.insertMessages_restrict hf (fun m hm => h.owned _ (hp m hm).owned) fun m hm => hd _ (hp m hm).drawn)
    simp only [takeOn, Outcome.unread, World.insertMessages]
    split
    · rfl
    · rw [hi]
  | upsertSystem m =>
    have hi := World.change_restrict (f := (·.upsertSystem m))
      (Tables.upsertSystem_restrict hf (h.owned _ hp.owned) (hd _ hp.drawn))
    simp only [takeOn, Outcome.unread, hi]
  | latestSystem c => simp only [takeOn, World.ask_restrict (f := (·.latestSystem c)) (Tables.latestSystem_restrict (h.owned c hp))]
  | recentTurns c n =>
    simp only [takeOn, World.recentTurns,
      World.ask_restrict (f := (·.recentTurns c n)) (Tables.recentTurns_restrict (h.owned c hp) n)]
  | refresh id model time =>
    have hi := World.update_restrict (f := (·.refresh id model time)) (Tables.refresh_restrict (h.owned id hp))
    simp only [takeOn, Outcome.unread, hi]

/-- An id that a step draws is not below a floor that the generator has reached. -/
theorem le_of_mem_learned (hs : w.Sound) (hfloor : floor ≤ w.ids.floor) (hr : (s.takeOn clock w).world.ids.InRange)
    (hd : ∀ id ∈ p.drawn, floor ≤ id) : ∀ id ∈ (s.learned p (s.takeOn clock w).answer).drawn, floor ≤ id := by
  by_cases hn : s = .nextId
  · subst hn
    intro id hid
    rcases List.mem_cons.1 hid with rfl | hid
    · exact Int.le_trans hfloor (hs.wellFormed.floor_le_id hr)
    · exact hd id hid
  · rw [learned_drawn hn]
    exact hd

end Step

/-! ## Whole runs -/

namespace Routine

variable {α : Type} {r : Routine α} {post : Permit → α → Prop} {clock : Clock}

/-- A lawful routine moves its user's rows alone, and it ends with what it must. -/
theorem Lawful.moves (clock : Clock) (hl : Lawful user p r post) (hs : w.Sound) (h : p.Holds user w) :
    Moves user w (r.runOn clock w).world ∧ (r.runOn clock w).world.Sound ∧
      ∃ p', p'.Holds user (r.runOn clock w).world ∧ post p' (r.runOn clock w).answer := by
  induction r generalizing p clock w with
  | done a => exact ⟨.refl hs, hs, p, h, hl⟩
  | step s next ih =>
    obtain ⟨hm, hs'⟩ := s.moves clock hs h hl.1
    obtain ⟨hm', h'⟩ := ih _ (s.takeOn clock w).clock (hl.2 _) hs' (s.holds_learned clock hs h hl.1)
    exact ⟨hm.trans hm', h'⟩

/-- A lawful routine is answered on its user's rows alone as on all, and leaves those rows the same. -/
theorem Lawful.runOn_restrict (hl : Lawful user p r post) (hs : w.Sound) (h : p.Holds user w)
    (hf : w.tables.Foreign user floor) (hfloor : floor ≤ w.ids.floor) (hd : ∀ id ∈ p.drawn, floor ≤ id)
    (hr : (r.runOn clock w).world.ids.InRange) :
    r.runOn clock (w.restrict user) =
      ⟨(r.runOn clock w).answer, (r.runOn clock w).world.restrict user, (r.runOn clock w).clock⟩ := by
  induction r generalizing p clock w with
  | done a => rfl
  | step s next ih =>
    obtain ⟨hm, hs'⟩ := s.moves clock hs h hl.1
    have h' := s.holds_learned clock hs h hl.1
    have hrest := (hl.2 (s.takeOn clock w).answer).moves (s.takeOn clock w).clock hs' h'
    have hr' : (s.takeOn clock w).world.ids.InRange := hrest.1.ids.inRange hr
    show (next (s.takeOn clock (w.restrict user)).answer).runOn (s.takeOn clock (w.restrict user)).clock
      (s.takeOn clock (w.restrict user)).world = _
    rw [s.takeOn_restrict hs h hl.1 hf hd]
    exact ih _ (hl.2 _) hs' h' (hf.touches hm.touches) (Int.le_trans hfloor (hm.ids.floor_le hr'))
      (s.le_of_mem_learned hs hfloor hr' hd) hr

end Routine

end InferenceGate.Store
