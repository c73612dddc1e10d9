import InferenceGate.Proofs.Ids.Parts
import InferenceGate.Total

/-!
# How far ids run ahead of the clock

A generator takes a millisecond that its clock has not reached only when the numbers of the one before are used up, so each id moves
it on by one number at most from where the clock has been (`Comes.ahead_le`). Over a run an id is ahead of the clock by no more
milliseconds than the ids before it fill (`drift_bounded`), and by just as many on a clock that stands (`drift_filled`).
-/

namespace InferenceGate.Ids

/-- The millisecond that an id says it was issued in. -/
def timeOf (id : Int) : Nat := epoch + (partsOf id).milliseconds

/-- How many readings of the clock issues took. -/
def readingsOf (issues : List Issue) : Nat := total (issues.map Issue.readings)

/-- How many numbers a generator has come to since the beginning of a millisecond, its own last one included. Before that
millisecond this is not positive. -/
def Generator.ahead (g : Generator) (ms : Nat) : Int := ((g.lastMs : Int) - ms) * perMillisecond + g.sequence + 1

/-! ## One id -/

namespace OrderAux.Comes

variable {g : Generator} {clock : Clock} {i : Issue}

/-- An id waits for one reading at most. -/
theorem waits_le (h : Comes g clock i) : i.waits ≤ 1 := by
  cases h with
  | within => exact Nat.zero_le 1
  | waited => exact Nat.le_refl 1
  | onward => exact Nat.zero_le 1

/-- After an id the generator is not behind any reading that was taken for it. -/
theorem seen (h : Comes g clock i) : ∀ j < i.readings, clock j ≤ i.generator.lastMs := by
  cases h with
  | within hc =>
    intro j hj
    obtain rfl : j = 0 := Nat.lt_one_iff.1 hj
    exact Nat.le_trans (Nat.le_max_left _ _) hc
  | waited hc =>
    have hw : g.lastMs < nextMs g.lastMs (clock 1) ∧ clock 1 ≤ nextMs g.lastMs (clock 1) := by
      unfold nextMs
      split <;> omega
    intro j hj
    rcases Nat.lt_succ_iff_lt_or_eq.1 hj with hj | rfl
    · obtain rfl : j = 0 := Nat.lt_one_iff.1 hj
      exact Nat.le_trans (Nat.le_trans (Nat.le_max_left _ _) hc) (Nat.le_of_lt hw.1)
    · exact hw.2
  | onward =>
    intro j hj
    obtain rfl : j = 0 := Nat.lt_one_iff.1 hj
    exact Nat.le_max_left _ _

/-- An id moves the generator on by one number at most from a millisecond that no reading for it is past. -/
theorem ahead_le (h : Comes g clock i) {ms : Nat} (he : epoch ≤ ms) (hc : ∀ j < i.readings, clock j ≤ ms) :
    i.generator.ahead ms ≤ max (g.ahead ms) 0 + 1 := by
  unfold Generator.ahead
  cases h with
  | within =>
    simp only
    omega
  | waited _ hs =>
    have hr : clock 1 ≤ ms := hc 1 Nat.one_lt_two
    have hw : nextMs g.lastMs (clock 1) ≤ g.lastMs + 1 ∨ nextMs g.lastMs (clock 1) ≤ ms := by
      unfold nextMs
      split <;> omega
    unfold perMillisecond at hs ⊢
    simp only
    omega
  | onward =>
    have hr : clock 0 ≤ ms := hc 0 Nat.one_pos
    have hm : max (clock 0) epoch ≤ ms := Nat.max_le.2 ⟨hr, he⟩
    unfold perMillisecond
    simp only
    omega

/-- An id moves the generator on by one number at least, and past a millisecond that every reading for it has reached. -/
theorem le_ahead (h : Comes g clock i) (hw : g.WellFormed) {ms : Nat} (hc : ∀ j < i.readings, ms ≤ clock j) :
    max (g.ahead ms) 0 + 1 ≤ i.generator.ahead ms := by
  have hs := hw.sequence_lt
  unfold Generator.ahead
  cases h with
  | within hl =>
    have hr : ms ≤ clock 0 := hc 0 Nat.one_pos
    unfold perMillisecond
    simp only
    omega
  | waited hl =>
    have hr : ms ≤ clock 0 := hc 0 Nat.two_pos
    have hn := lt_nextMs g.lastMs (clock 1)
    unfold perMillisecond at hs ⊢
    simp only
    omega
  | onward hl =>
    have hr : ms ≤ clock 0 := hc 0 Nat.one_pos
    unfold perMillisecond at hs ⊢
    simp only
    omega

end OrderAux.Comes

/-! ## A run -/

namespace DriftAux

open OrderAux PartsAux Generator

variable {g : Generator} {clock : Clock} {i : Issue} {done past later : List Issue}

theorem readingsOf_append (issues : List Issue) (i : Issue) : readingsOf (issues ++ [i]) = readingsOf issues + i.readings := by
  simp [readingsOf, total]

/-- What holds of all readings holds of those before the last issue and of those for it. -/
theorem forall_readings_append {P : Nat → Prop} : (∀ j < readingsOf (done ++ [i]), P (clock j)) ↔
    (∀ j < readingsOf done, P (clock j)) ∧ ∀ j < i.readings, P (clock.after (readingsOf done) j) := by
  rw [readingsOf_append]
  constructor
  · intro h
    exact ⟨fun j hj => h j (Nat.lt_add_right _ hj), fun j hj => h _ (Nat.add_lt_add_left hj _)⟩
  · rintro ⟨hbefore, hnow⟩ j hj
    rcases Nat.lt_or_ge j (readingsOf done) with hlt | hge
    · exact hbefore j hlt
    · obtain ⟨k, rfl⟩ := Nat.exists_eq_add_of_le hge
      exact hnow k (Nat.lt_of_add_lt_add_left hj)

/-- Where a generator stands after some issues on a clock: behind no reading that was taken, not further ahead of them all than
there were issues, and as far ahead as that of a millisecond that all of them have reached. -/
structure Kept (clock : Clock) (done : List Issue) (g : Generator) : Prop where
  wellFormed : g.WellFormed
  seen : ∀ j < readingsOf done, clock j ≤ g.lastMs
  ahead_le : ∀ ms, epoch ≤ ms → (∀ j < readingsOf done, clock j ≤ ms) → g.ahead ms ≤ done.length
  le_ahead : ∀ ms, (∀ j < readingsOf done, ms ≤ clock j) → done.length ≤ max (g.ahead ms) 0

/-- A generator that has issued nothing is well behind the first millisecond. -/
theorem kept_ofNode (clock : Clock) (node : Nat) : Kept clock [] (.ofNode node) where
  wellFormed := wellFormed_ofNode node
  seen := nofun
  ahead_le ms he _ := by
    unfold Generator.ahead Generator.ofNode perMillisecond
    unfold epoch at he
    simp only [List.length_nil]
    omega
  le_ahead _ _ := by
    simp only [List.length_nil]
    omega

/-- One more id on what is left of the clock. -/
theorem Kept.next (h : Kept clock done g) :
    Kept clock (done ++ [g.next (clock.after (readingsOf done))]) (g.next (clock.after (readingsOf done))).generator := by
  have hcomes := comes_next h.wellFormed (clock.after (readingsOf done))
  have hwell := h.wellFormed.next (clock.after (readingsOf done))
  have hsince := h.wellFormed.lastMs_le (clock.after (readingsOf done))
  generalize g.next (clock.after (readingsOf done)) = i at *
  refine ⟨hwell, ?_, ?_, ?_⟩
  · exact (forall_readings_append (P := (· ≤ i.generator.lastMs))).2 ⟨fun j hj => Nat.le_trans (h.seen j hj) hsince, hcomes.seen⟩
  · intro ms he hall
    obtain ⟨hbefore, hnow⟩ := (forall_readings_append (P := (· ≤ ms))).1 hall
    have hold := h.ahead_le ms he hbefore
    have hstep := hcomes.ahead_le he hnow
    rw [List.length_append, List.length_singleton]
    omega
  · intro ms hall
    obtain ⟨hbefore, hnow⟩ := (forall_readings_append (P := (ms ≤ ·))).1 hall
    have hold := h.le_ahead ms hbefore
    have hstep := hcomes.le_ahead h.wellFormed hnow
    rw [List.length_append, List.length_singleton]
    omega

/-- A run keeps this at each of its ids, none of which waits for more than one reading. -/
theorem Kept.issuesFrom {n : Nat} (h : Kept clock done g) (hi : g.issuesFrom clock (readingsOf done) n = past ++ i :: later) :
    Kept clock (done ++ (past ++ [i])) i.generator ∧ i.waits ≤ 1 := by
  induction past generalizing g done n with
  | nil =>
    cases n with
    | zero => nomatch hi
    | succ n =>
      obtain ⟨rfl, -⟩ := List.cons.inj hi
      exact ⟨h.next, (comes_next h.wellFormed _).waits_le⟩
  | cons p past ih =>
    cases n with
    | zero => nomatch hi
    | succ n =>
      obtain ⟨rfl, hrest⟩ := List.cons.inj hi
      rw [← readingsOf_append] at hrest
      have hkept := ih h.next hrest
      rwa [List.append_assoc] at hkept

/-- Numbers ahead of a bound on the readings make up no more milliseconds than the ids before the last one fill. -/
theorem Kept.lastMs_le {ms k : Nat} (h : Kept clock done g) (hk : done.length = k + 1) (he : epoch ≤ ms)
    (hall : ∀ j < readingsOf done, clock j ≤ ms) : g.lastMs ≤ ms + k / 4096 := by
  have hahead := h.ahead_le ms he hall
  unfold Generator.ahead perMillisecond at hahead
  omega

/-- Numbers ahead of what all readings have reached make up as many milliseconds as the ids before the last one fill. -/
theorem Kept.le_lastMs {ms k : Nat} (h : Kept clock done g) (hk : done.length = k + 1) (hall : ∀ j < readingsOf done, ms ≤ clock j) :
    ms + k / 4096 ≤ g.lastMs := by
  have hahead := h.le_ahead ms hall
  have hs := h.wellFormed.sequence_lt
  unfold Generator.ahead perMillisecond at hahead
  unfold perMillisecond at hs
  omega

/-- In range the time of an id is the millisecond that its generator stood at. -/
theorem timeOf_of_run {last : Nat} (h : Run g last i) (hr : i.generator.lastMs < epoch + span) : timeOf i.id = i.generator.lastMs := by
  rw [timeOf, h.id, milliseconds_compose hr h.wellFormed.node_le h.wellFormed.sequence_lt]
  exact Nat.add_sub_of_le h.counted

/-- What a run of a new generator comes to at one of its ids. -/
theorem kept_issues {node n : Nat} (h : (ofNode node).issues clock n = past ++ i :: later) :
    Kept clock (past ++ [i]) i.generator ∧ i.waits ≤ 1 ∧ (i.generator.lastMs < epoch + span → timeOf i.id = i.generator.lastMs) := by
  obtain ⟨hkept, hwaits⟩ := (kept_ofNode clock node).issuesFrom h
  have hmem : i ∈ (ofNode node).issues clock n := by
    rw [h]
    simp
  exact ⟨hkept, hwaits, timeOf_of_run ((wellFormed_ofNode node).run clock 0 n i hmem)⟩

end DriftAux

open Generator DriftAux

variable {node n : Nat} {clock : Clock} {past later : List Issue} {i : Issue}

/-- Where every reading so far has reached a millisecond, an id is at least as many milliseconds past it as the ids before it fill. -/
theorem drift_filled (h : (ofNode node).issues clock n = past ++ i :: later) (hr : i.generator.lastMs < epoch + 2199023255552) {ms : Nat}
    (hall : ∀ j < readingsOf (past ++ [i]), ms ≤ clock j) : ms + past.length / 4096 ≤ timeOf i.id := by
  obtain ⟨hkept, -, htime⟩ := kept_issues h
  rw [htime hr]
  exact hkept.le_lastMs (by simp) hall

/-- However its clock goes, a generator that has to wait does so for one reading. While its milliseconds fit in the bits of an id, no
id is earlier than any reading so far, and none is later than the greatest of them by more milliseconds than the ids before it fill. -/
theorem drift_bounded (node : Nat) (clock : Clock) (n : Nat) :
    (∀ readings last now, now ≤ last → (waitPast readings last now).2 = 1) ∧
    ((ofNode node).take clock n).1 = ((ofNode node).issues clock n).map Issue.id ∧
    ∀ past i later, (ofNode node).issues clock n = past ++ i :: later →
      i.waits ≤ 1 ∧
      (i.generator.lastMs < epoch + 2199023255552 →
        (∀ j < readingsOf (past ++ [i]), clock j ≤ timeOf i.id) ∧
        ∀ greatest, epoch ≤ greatest → (∀ j < readingsOf (past ++ [i]), clock j ≤ greatest) →
          timeOf i.id ≤ greatest + past.length / 4096) := by
  refine ⟨fun readings last now h => by rw [OrderAux.waitPast_of_le readings h], takeFrom_ids _ _ _ _, fun past i later h => ?_⟩
  obtain ⟨hkept, hwaits, htime⟩ := kept_issues h
  refine ⟨hwaits, fun hr => ?_⟩
  rw [htime hr]
  exact ⟨hkept.seen, fun greatest he hall => hkept.lastMs_le (by simp) he hall⟩

/-- On a clock that stands, the first id that finds no number left is a millisecond ahead. -/
theorem drift_bounded_standing_clock :
    let clock := Clock.standing (epoch + 42)
    ∃ past i, (ofNode 3).issues clock 4097 = past ++ [i] ∧ past.length = 4096 ∧ i.waits ≤ 1 ∧
      i.generator.lastMs < epoch + 2199023255552 ∧ timeOf i.id = epoch + 43 := by
  intro clock
  have hlength : ((ofNode 3).issues clock 4097).length = 4097 := length_issuesFrom _ _ _ _
  obtain ⟨past, i, h⟩ := (List.eq_nil_or_concat _).resolve_left (List.ne_nil_of_length_eq_add_one hlength)
  rw [List.concat_eq_append] at h
  have hpast : past.length = 4096 := by
    rw [h] at hlength
    simpa using hlength
  have he : epoch ≤ epoch + 42 := Nat.le_add_right _ _
  have hstands : ∀ j < readingsOf (past ++ [i]), clock j = epoch + 42 := fun _ _ => rfl
  have hr : i.generator.lastMs < epoch + 2199023255552 := by
    have hlast := (kept_issues h).1.lastMs_le (k := 4096) (by simp [hpast]) he fun j hj => Nat.le_of_eq (hstands j hj)
    omega
  have hfilled := drift_filled h hr fun j hj => Nat.le_of_eq (hstands j hj).symm
  obtain ⟨-, -, hall⟩ := drift_bounded 3 clock 4097
  obtain ⟨hwaits, hdrift⟩ := hall past i [] h
  have hbound := (hdrift hr).2 (epoch + 42) he fun j hj => Nat.le_of_eq (hstands j hj)
  rw [hpast] at hfilled hbound
  exact ⟨past, i, h, hpast, hwaits, hr, by omega⟩

end InferenceGate.Ids
