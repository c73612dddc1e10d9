import InferenceGate.Proofs.Ids.Order

/-!
# The parts of an id

An id is read back as the milliseconds since the epoch, the node and the number within the millisecond (`partsOf`). The node and
the number are those of the generator that issued it whatever its clock says, and so are the milliseconds while they have not run
out; so no two nodes issue the same id, and the ids of one go up.
-/

namespace InferenceGate.Ids

/-- The parts of an id: the milliseconds since the epoch, the node, and the number within the millisecond. -/
@[ext]
structure Parts where
  milliseconds : Nat
  node : Nat
  sequence : Nat
  deriving DecidableEq

/-- The parts that an id is made up of: its upper bits, ten bits of node, twelve bits of number. -/
def partsOf (id : Int) : Parts where
  milliseconds := id.toNat / perMillisecond / (maxNode + 1)
  node := id.toNat / perMillisecond % (maxNode + 1)
  sequence := id.toNat % perMillisecond

/-- The parts that the state of a generator gives to the id it has just issued. -/
def Generator.parts (g : Generator) : Parts := ⟨g.lastMs - epoch, g.node, g.sequence⟩

/-- The next `n` issues after `taken` readings of a clock. -/
def Generator.issuesFrom (g : Generator) (clock : Clock) (taken : Nat) : Nat → List Issue
  | 0 => []
  | n + 1 =>
    let issue := g.next (clock.after taken)
    issue :: issue.generator.issuesFrom clock (taken + issue.readings) n

/-- The next `n` issues on a clock. -/
def Generator.issues (g : Generator) (clock : Clock) (n : Nat) : List Issue := g.issuesFrom clock 0 n

namespace PartsAux

open OrderAux

variable {g : Generator} {ms node sequence : Nat}

/-- An id is the number made up, cut short. -/
theorem compose_eq (ms node sequence : Nat) : compose ms node sequence = ((place ms node sequence % range : Nat) : Int) := rfl

/-- The parts of a number. -/
theorem partsOf_natCast (k : Nat) :
    partsOf k = ⟨k / perMillisecond / (maxNode + 1), k / perMillisecond % (maxNode + 1), k % perMillisecond⟩ := by
  unfold partsOf
  rw [Int.toNat_natCast]

/-- What a node and a number are put behind is taken apart again, and cutting off higher bits changes neither. -/
theorem parts_mod {high node sequence bound : Nat} (hn : node ≤ maxNode) (hs : sequence < perMillisecond) :
    ((high * (maxNode + 1) + node) * perMillisecond + sequence) % (perMillisecond * ((maxNode + 1) * bound)) / perMillisecond %
        (maxNode + 1) = node ∧
      ((high * (maxNode + 1) + node) * perMillisecond + sequence) % (perMillisecond * ((maxNode + 1) * bound)) %
        perMillisecond = sequence := by
  rw [Nat.mod_mul_right_div_self, Nat.mod_mul_right_mod, Nat.mod_mul_right_mod]
  unfold maxNode at hn ⊢
  unfold perMillisecond at hs ⊢
  omega

/-- An id has room for its three parts. -/
theorem range_eq : range = perMillisecond * ((maxNode + 1) * span) := by decide

/-- The node and the number of an id are those it was made of, even when its milliseconds are cut short. -/
theorem partsOf_compose (ms : Nat) (hn : node ≤ maxNode) (hs : sequence < perMillisecond) :
    (partsOf (compose ms node sequence)).node = node ∧ (partsOf (compose ms node sequence)).sequence = sequence := by
  rw [compose_eq, partsOf_natCast, range_eq]
  exact parts_mod hn hs

/-- The milliseconds of an id are those it was made of while they fit in its bits. -/
theorem milliseconds_compose (h : ms < epoch + span) (hn : node ≤ maxNode) (hs : sequence < perMillisecond) :
    (partsOf (compose ms node sequence)).milliseconds = ms - epoch := by
  rw [compose_eq, partsOf_natCast, Nat.mod_eq_of_lt (place_lt_range h hn hs)]
  show place ms node sequence / perMillisecond / (maxNode + 1) = ms - epoch
  unfold place
  unfold maxNode at hn ⊢
  unfold perMillisecond at hs ⊢
  omega

end PartsAux

open OrderAux PartsAux

namespace Generator

variable {g : Generator} {clock : Clock}

/-- The ids taken are those of the issues. -/
theorem takeFrom_ids (g : Generator) (clock : Clock) (taken n : Nat) :
    (g.takeFrom clock taken n).1 = (g.issuesFrom clock taken n).map Issue.id := by
  induction n generalizing g taken with
  | zero => rfl
  | succ n ih =>
    rw [takeFrom, issuesFrom, List.map_cons]
    simp only [ih]

theorem length_issuesFrom (g : Generator) (clock : Clock) (taken n : Nat) : (g.issuesFrom clock taken n).length = n := by
  induction n generalizing g taken with
  | zero => rfl
  | succ n ih => simp [issuesFrom, ih]

/-- The ids taken were drawn one after the other. -/
theorem draws_takeFrom (g : Generator) (clock : Clock) (taken n : Nat) :
    ∃ clock', Draws g (clock.after taken) (g.takeFrom clock taken n).1 (g.takeFrom clock taken n).2 clock' := by
  induction n generalizing g taken with
  | zero => exact ⟨_, .none _ _⟩
  | succ n ih =>
    obtain ⟨clock', h⟩ := ih (g.next (clock.after taken)).generator (taken + (g.next (clock.after taken)).readings)
    have hc : clock.after (taken + (g.next (clock.after taken)).readings) =
        (clock.after taken).after (g.next (clock.after taken)).readings := by
      funext i
      simp [Clock.after, Nat.add_assoc]
    rw [hc] at h
    exact ⟨clock', .next h⟩

/-- Each issue of a run leaves a well-formed generator of the same node, with the id that its state makes up; and no issue is past
the end of the run. -/
structure Run (g : Generator) (last : Nat) (i : Issue) : Prop where
  wellFormed : i.generator.WellFormed
  node : i.generator.node = g.node
  counted : epoch ≤ i.generator.lastMs
  id : i.id = compose i.generator.lastMs i.generator.node i.generator.sequence
  le_last : i.generator.lastMs ≤ last

/-- Every id that is issued comes of a run that has not gone past the last of them. -/
theorem WellFormed.run (h : g.WellFormed) (clock : Clock) (taken n : Nat) :
    ∀ i ∈ g.issuesFrom clock taken n, Run g (g.takeFrom clock taken n).2.lastMs i := by
  induction n generalizing g taken with
  | zero => exact nofun
  | succ n ih =>
    have hi := issued_next h (clock.after taken)
    have hw := h.next (clock.after taken)
    obtain ⟨clock', hd⟩ := draws_takeFrom (g.next (clock.after taken)).generator clock
      (taken + (g.next (clock.after taken)).readings) n
    intro i hmem
    rw [issuesFrom] at hmem
    rcases List.mem_cons.1 hmem with rfl | hmem
    · exact ⟨hw, hi.node, hi.counted, hi.id, (hd.wellFormed hw).2⟩
    · obtain ⟨h1, h2, h3, h4, h5⟩ := ih hw _ i hmem
      exact ⟨h1, h2.trans hi.node, h3, h4, h5⟩

/-- The parts of an issued id are those of the generator, the milliseconds while they have not run out. -/
theorem Run.parts {last : Nat} {i : Issue} (h : Run g last i) :
    (partsOf i.id).node = g.node ∧ (last < epoch + span → partsOf i.id = i.generator.parts) := by
  obtain ⟨hnode, hsequence⟩ := partsOf_compose i.generator.lastMs h.wellFormed.node_le h.wellFormed.sequence_lt
  rw [h.id]
  refine ⟨hnode.trans h.node, fun hl => ?_⟩
  have hms := milliseconds_compose (Nat.lt_of_le_of_lt h.le_last hl) h.wellFormed.node_le h.wellFormed.sequence_lt
  exact Parts.ext hms hnode hsequence

/-- Ids in order are not negative, as no floor is. -/
theorem floor_nonneg (g : Generator) : 0 ≤ g.floor := by
  unfold floor
  split <;> omega

end Generator

open Generator

/-- Whatever the readings of its clock, a generator issues as many ids as it is asked for. While its last millisecond fits in the
bits of an id they are not negative and go up, and each is read back as the milliseconds since the epoch, the node and the number
that the generator stood at when it issued it. Generators of different nodes never issue the same id. -/
theorem ids_ascend_and_stay_apart (node : Nat) (clock : Clock) (n : Nat) :
    ((ofNode node).take clock n).1 = ((ofNode node).issues clock n).map Issue.id ∧
      ((ofNode node).issues clock n).length = n ∧
      (((ofNode node).take clock n).2.lastMs < epoch + 2199023255552 →
        ((ofNode node).take clock n).1.Pairwise (· < ·) ∧
        (∀ id ∈ ((ofNode node).take clock n).1, 0 ≤ id) ∧
        ∀ i ∈ (ofNode node).issues clock n,
          epoch ≤ i.generator.lastMs ∧ i.generator.sequence < 4096 ∧
          partsOf i.id = ⟨i.generator.lastMs - epoch, min node 1023, i.generator.sequence⟩) ∧
      ∀ node' clock' n', node ≤ 1023 → node' ≤ 1023 → node ≠ node' →
        ∀ id ∈ ((ofNode node).take clock n).1, id ∉ ((ofNode node').take clock' n').1 := by
  have hnode : ∀ {node clock n id}, id ∈ ((ofNode node).take clock n).1 → (partsOf id).node = min node maxNode := by
    intro node clock n id hid
    rw [take, takeFrom_ids] at hid
    obtain ⟨i, hi, rfl⟩ := List.mem_map.1 hid
    exact ((wellFormed_ofNode node).run clock 0 n i hi).parts.1
  refine ⟨takeFrom_ids _ _ _ _, length_issuesFrom _ _ _ _, fun hr => ?_, ?_⟩
  · obtain ⟨clock', hd⟩ := draws_takeFrom (ofNode node) clock 0 n
    obtain ⟨-, hp, hb⟩ := hd.ascending (wellFormed_ofNode node) hr
    refine ⟨hp, fun id hid => Int.le_trans (floor_nonneg _) (hb id hid).1, fun i hi => ?_⟩
    have hrun := (wellFormed_ofNode node).run clock 0 n i hi
    refine ⟨hrun.counted, hrun.wellFormed.sequence_lt, ?_⟩
    have hparts := hrun.parts.2 hr
    rw [Generator.parts, hrun.node] at hparts
    exact hparts
  · intro node' clock' n' hle hle' hne id hid hid'
    have h := hnode hid
    have h' := hnode hid'
    have heq : min node maxNode = min node' maxNode := h.symm.trans h'
    unfold maxNode at heq
    omega

namespace PartsAux

/-- A clock that steps back, then far back before the epoch, and then goes on. -/
def unsteady : Clock := fun i => [1577836800005, 1577836800003, 0, 1577836800009].getD i 0

end PartsAux

/-- On a clock that steps back the ids go up all the same, and none is one of another node. -/
theorem ids_ascend_and_stay_apart_unsteady :
    ((ofNode 3).take unsteady 4).1 = [20983808, 20983809, 20983810, 37761024] ∧
      ((ofNode 3).take unsteady 4).1.Pairwise (· < ·) ∧
      ∀ id ∈ ((ofNode 3).take unsteady 4).1, id ∉ ((ofNode 4).take unsteady 4).1 := by
  have hr : ((ofNode 3).take unsteady 4).2.lastMs < epoch + 2199023255552 := by decide +kernel
  have h := ids_ascend_and_stay_apart 3 unsteady 4
  exact ⟨by decide +kernel, (h.2.2.1 hr).1, h.2.2.2 4 unsteady 4 (by decide) (by decide) (by decide)⟩

end InferenceGate.Ids
