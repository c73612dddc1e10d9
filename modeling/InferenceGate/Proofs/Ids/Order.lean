import InferenceGate.Ids

/-!
# Ids only go up

An id comes about in one of three ways (`Comes`): with the next number, after waiting, or in a later millisecond. As long as the last
millisecond of a generator fits in the forty-one bits of an id (`Generator.InRange`), every id it issues is at least its `floor`, and
its floor afterwards is past the id. A generator whose milliseconds have run out of those bits issues ids that begin again from zero,
so nothing of the kind holds then.
-/

namespace InferenceGate.Ids

/-- The milliseconds that an id has room for. -/
def span : Nat := 2199023255552

/-- The number that a millisecond, a node and a number within the millisecond make up. -/
def place (ms node sequence : Nat) : Nat := ((ms - epoch) * (maxNode + 1) + node) * perMillisecond + sequence

namespace Generator

/-- A generator with a node and a number that an id has room for. -/
structure WellFormed (g : Generator) : Prop where
  node_le : g.node ≤ maxNode
  sequence_lt : g.sequence < perMillisecond

/-- The milliseconds of a generator have not run out. -/
def InRange (g : Generator) : Prop := g.lastMs < epoch + span

/-- All ids of a generator from now on are at least this, while its milliseconds have not run out. -/
def floor (g : Generator) : Int := if g.lastMs < epoch then 0 else place g.lastMs g.node g.sequence + 1

/-- A generator that has issued nothing is well-formed. -/
theorem wellFormed_ofNode (node : Nat) : (ofNode node).WellFormed := ⟨Nat.min_le_right _ _, (by decide : 0 < perMillisecond)⟩

end Generator

namespace OrderAux

/-- Waiting is over after one reading: it is past the last millisecond, or the next millisecond is taken instead. -/
theorem waitPast_of_le (clock : Clock) {last now : Nat} (h : now ≤ last) : waitPast clock last now = (nextMs last (clock 0), 1) := by
  have hpast : ¬nextMs last (clock 0) ≤ last := Nat.not_le.2 (lt_nextMs last (clock 0))
  rw [waitPast, if_pos h, waitPast, if_neg hpast]

/-- The ways an id comes about: with the next number of the last millisecond, in the millisecond waited for when its numbers are used
up, or in the millisecond of a clock that has gone on. -/
inductive Comes (g : Generator) (clock : Clock) : Issue → Prop where
  | within (hc : max (clock 0) epoch ≤ g.lastMs) (hs : g.sequence + 1 < perMillisecond) :
      Comes g clock ⟨compose g.lastMs g.node (g.sequence + 1), { g with sequence := g.sequence + 1 }, 1, 0⟩
  | waited (hc : max (clock 0) epoch ≤ g.lastMs) (hs : g.sequence + 1 = perMillisecond) :
      Comes g clock ⟨compose (nextMs g.lastMs (clock 1)) g.node 0, { g with lastMs := nextMs g.lastMs (clock 1), sequence := 0 }, 2, 1⟩
  | onward (hc : g.lastMs < max (clock 0) epoch) :
      Comes g clock ⟨compose (max (clock 0) epoch) g.node 0, { g with lastMs := max (clock 0) epoch, sequence := 0 }, 1, 0⟩

/-- Every id of a well-formed generator comes about in one of these ways. -/
theorem comes_next {g : Generator} (h : g.WellFormed) (clock : Clock) : Comes g clock (g.next clock) := by
  rcases Nat.lt_or_ge g.lastMs (max (clock 0) epoch) with hc | hc
  · have hnow : max (max (clock 0) epoch) g.lastMs = max (clock 0) epoch := Nat.max_eq_left (Nat.le_of_lt hc)
    simp only [Generator.next, hnow, if_neg (Nat.ne_of_gt hc)]
    exact .onward hc
  · have hnow : max (max (clock 0) epoch) g.lastMs = g.lastMs := Nat.max_eq_right hc
    rcases Nat.lt_or_ge (g.sequence + 1) perMillisecond with hs | hs
    · simp only [Generator.next, hnow, Nat.mod_eq_of_lt hs, if_true, if_neg (Nat.succ_ne_zero g.sequence)]
      exact .within hc hs
    · have hs : g.sequence + 1 = perMillisecond := Nat.le_antisymm h.sequence_lt hs
      simp only [Generator.next, hnow, hs, Nat.mod_self, if_true, waitPast_of_le (clock.after 1) (Nat.le_refl g.lastMs)]
      exact .waited hc hs

/-- A later millisecond makes up a greater number, whatever the numbers within the milliseconds. -/
theorem place_lt_place {ms ms' node sequence sequence' : Nat} (he : epoch ≤ ms) (h : ms < ms')
    (hs : sequence < perMillisecond) : place ms node sequence < place ms' node sequence' := by
  unfold place maxNode
  unfold perMillisecond at hs ⊢
  omega

/-- In range an id is the number made up, not cut short. -/
theorem place_lt_range {ms node sequence : Nat} (h : ms < epoch + span) (hn : node ≤ maxNode) (hs : sequence < perMillisecond) :
    place ms node sequence < range := by
  unfold place range
  unfold maxNode at hn ⊢
  unfold perMillisecond at hs ⊢
  unfold span at h
  omega

/-- What an issue comes to: the id is made up of the state of the generator after it, which is past its state before. -/
structure Issued (g : Generator) (i : Issue) : Prop where
  node : i.generator.node = g.node
  sequence : i.generator.sequence < perMillisecond
  since : g.lastMs ≤ i.generator.lastMs
  counted : epoch ≤ i.generator.lastMs
  id : i.id = compose i.generator.lastMs i.generator.node i.generator.sequence
  past : epoch ≤ g.lastMs → place g.lastMs g.node g.sequence < place i.generator.lastMs i.generator.node i.generator.sequence

/-- Every issue of a well-formed generator is so. -/
theorem issued_next {g : Generator} (h : g.WellFormed) (clock : Clock) : Issued g (g.next clock) := by
  have hs := h.sequence_lt
  have hz : 0 < perMillisecond := by decide
  have hcomes := comes_next h clock
  generalize g.next clock = i at hcomes
  cases hcomes with
  | within hc hs' =>
    have he : epoch ≤ g.lastMs := Nat.le_trans (Nat.le_max_right _ _) hc
    exact ⟨rfl, hs', Nat.le_refl _, he, rfl, fun _ => Nat.lt_succ_self _⟩
  | waited hc =>
    have he : epoch ≤ g.lastMs := Nat.le_trans (Nat.le_max_right _ _) hc
    have hw := lt_nextMs g.lastMs (clock 1)
    exact ⟨rfl, hz, Nat.le_of_lt hw, Nat.le_trans he (Nat.le_of_lt hw), rfl, fun he => place_lt_place he hw hs⟩
  | onward hc => exact ⟨rfl, hz, Nat.le_of_lt hc, Nat.le_max_right _ _, rfl, fun he => place_lt_place he hc hs⟩

end OrderAux

open OrderAux

namespace Generator

variable {g : Generator}

/-- A well-formed generator stays so. -/
theorem WellFormed.next (h : g.WellFormed) (clock : Clock) : (g.next clock).generator.WellFormed := by
  have hi := issued_next h clock
  exact ⟨hi.node ▸ h.node_le, hi.sequence⟩

/-- A generator never goes back. -/
theorem WellFormed.lastMs_le (h : g.WellFormed) (clock : Clock) : g.lastMs ≤ (g.next clock).generator.lastMs :=
  (issued_next h clock).since

/-- A generator in range was in range before. -/
theorem WellFormed.inRange_of_next (h : g.WellFormed) {clock : Clock} (hr : (g.next clock).generator.InRange) : g.InRange :=
  Nat.lt_of_le_of_lt (h.lastMs_le clock) hr

/-- An id is the number that the generator stands at after it. -/
theorem WellFormed.id_eq (h : g.WellFormed) {clock : Clock} (hr : (g.next clock).generator.InRange) :
    (g.next clock).id + 1 = (g.next clock).generator.floor := by
  have hi := issued_next h clock
  have hlt := place_lt_range hr (hi.node ▸ h.node_le) hi.sequence
  rw [hi.id, floor, if_neg (Nat.not_lt.2 hi.counted)]
  unfold compose
  unfold place at hlt ⊢
  rw [Nat.mod_eq_of_lt hlt]

/-- An id is at least the floor it is drawn from. -/
theorem WellFormed.floor_le_id (h : g.WellFormed) {clock : Clock} (hr : (g.next clock).generator.InRange) :
    g.floor ≤ (g.next clock).id := by
  have hi := issued_next h clock
  have he := h.id_eq hr
  rw [floor, if_neg (Nat.not_lt.2 hi.counted)] at he
  unfold floor
  split
  · omega
  · rename_i hc
    have := hi.past (Nat.le_of_not_lt hc)
    omega

/-- The floor after an id is past the id. -/
theorem WellFormed.id_lt_floor (h : g.WellFormed) {clock : Clock} (hr : (g.next clock).generator.InRange) :
    (g.next clock).id < (g.next clock).generator.floor := by
  have := h.id_eq hr
  omega

/-- The floor only goes up. -/
theorem WellFormed.floor_le (h : g.WellFormed) {clock : Clock} (hr : (g.next clock).generator.InRange) :
    g.floor ≤ (g.next clock).generator.floor :=
  Int.le_trans (h.floor_le_id hr) (Int.le_of_lt (h.id_lt_floor hr))

/-- A generator that comes later: it has not gone back, and neither has its floor while its milliseconds have not run out. -/
structure Ahead (g g' : Generator) : Prop where
  wellFormed : g'.WellFormed
  since : g.lastMs ≤ g'.lastMs
  floor_le : g'.InRange → g.floor ≤ g'.floor

namespace Ahead

variable {g' g'' : Generator}

theorem refl (h : g.WellFormed) : g.Ahead g := ⟨h, Nat.le_refl _, fun _ => Int.le_refl _⟩

/-- One id more does not make the generator go back. -/
theorem next (h : g.WellFormed) (clock : Clock) : g.Ahead (g.next clock).generator := ⟨h.next clock, h.lastMs_le clock, h.floor_le⟩

/-- What is in range later was so before. -/
theorem inRange (h : g.Ahead g') (hr : g'.InRange) : g.InRange := Nat.lt_of_le_of_lt h.since hr

theorem trans (h : g.Ahead g') (h' : g'.Ahead g'') : g.Ahead g'' :=
  ⟨h'.wellFormed, Nat.le_trans h.since h'.since, fun hr => Int.le_trans (h.floor_le (h'.inRange hr)) (h'.floor_le hr)⟩

end Ahead

/-- The ids that a generator draws one after the other on a clock, and how it and the clock stand then. -/
inductive Draws : Generator → Clock → List Int → Generator → Clock → Prop where
  | none (g : Generator) (clock : Clock) : Draws g clock [] g clock
  | next {g g' : Generator} {clock clock' : Clock} {ids : List Int} :
      Draws (g.next clock).generator (clock.after (g.next clock).readings) ids g' clock' →
      Draws g clock ((g.next clock).id :: ids) g' clock'

namespace Draws

variable {g' g'' : Generator} {clock clock' clock'' : Clock} {ids ids' : List Int}

/-- Ids drawn after others are drawn together with them. -/
theorem trans (h : Draws g clock ids g' clock') (h' : Draws g' clock' ids' g'' clock'') :
    Draws g clock (ids ++ ids') g'' clock'' := by
  induction h with
  | none => exact h'
  | next _ ih => exact .next (ih h')

theorem single (g : Generator) (clock : Clock) :
    Draws g clock [(g.next clock).id] (g.next clock).generator (clock.after (g.next clock).readings) :=
  .next (.none _ _)

/-- A well-formed generator stays so and does not go back. -/
theorem wellFormed (h : Draws g clock ids g' clock') (hw : g.WellFormed) : g'.WellFormed ∧ g.lastMs ≤ g'.lastMs := by
  induction h with
  | none => exact ⟨hw, Nat.le_refl _⟩
  | next _ ih =>
    obtain ⟨h1, h2⟩ := ih (hw.next _)
    exact ⟨h1, Nat.le_trans (hw.lastMs_le _) h2⟩

/-- In range the ids go up, from the floor before them to the floor after them. -/
theorem ascending (h : Draws g clock ids g' clock') (hw : g.WellFormed) (hr : g'.InRange) :
    g.floor ≤ g'.floor ∧ ids.Pairwise (· < ·) ∧ ∀ id ∈ ids, g.floor ≤ id ∧ id < g'.floor := by
  induction h with
  | none => exact ⟨Int.le_refl _, .nil, nofun⟩
  | @next g g' clock clock' ids h ih =>
    obtain ⟨hf, hp, hb⟩ := ih (hw.next _) hr
    have hr' : (g.next clock).generator.InRange := Nat.lt_of_le_of_lt (h.wellFormed (hw.next _)).2 hr
    have h1 := hw.floor_le_id hr'
    have h2 := hw.id_lt_floor hr'
    refine ⟨by omega, List.pairwise_cons.2 ⟨fun id hid => ?_, hp⟩, ?_⟩
    · have := hb id hid
      omega
    · intro id hid
      rcases List.mem_cons.1 hid with rfl | hid
      · omega
      · have := hb id hid
        omega

/-- Drawing ids only takes readings of the clock. -/
theorem clock_eq (h : Draws g clock ids g' clock') : ∃ n, clock' = clock.after n := by
  induction h with
  | none => exact ⟨0, funext fun i => by simp [Clock.after]⟩
  | @next g g' clock clock' ids h ih =>
    obtain ⟨n, rfl⟩ := ih
    exact ⟨(g.next clock).readings + n, funext fun i => by simp [Clock.after, Nat.add_assoc]⟩

end Draws

end Generator

/-- A clock that never runs back. -/
def Clock.Steady (c : Clock) : Prop := ∀ i j, i ≤ j → c i ≤ c j

/-- What is left of a steady clock is steady. -/
theorem Clock.Steady.after {c : Clock} (h : c.Steady) (n : Nat) : (c.after n).Steady :=
  fun i j hij => h (n + i) (n + j) (Nat.add_le_add_left hij n)

/-- The next reading of what is left is not before that of the whole. -/
theorem Clock.Steady.le_after {c : Clock} (h : c.Steady) (n : Nat) : c 0 ≤ c.after n 0 := h 0 (n + 0) (Nat.zero_le _)

end InferenceGate.Ids
