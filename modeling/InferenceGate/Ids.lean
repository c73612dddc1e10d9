import InferenceGate.Text.Integer

/-!
# Identifiers

An id is a positive word of three parts: milliseconds since the custom epoch, the node that issued it, and a number within the
millisecond. A generator never goes back: when the clock stands or steps back it counts on within its last millisecond, and
after the last number there it waits for the clock or borrows the next millisecond from it.

A clock is the sequence of its readings; a generator says how many of them it took.
-/

namespace InferenceGate.Ids

/-- The first millisecond that ids count from: the beginning of 2020. -/
def epoch : Nat := 1577836800000

/-- The greatest node. -/
def maxNode : Nat := 1023

/-- The numbers within one millisecond. -/
def perMillisecond : Nat := 4096

/-- The readings of a clock, in milliseconds, from the next one on. -/
abbrev Clock := Nat → Nat

/-- A clock that stands. -/
def Clock.standing (ms : Nat) : Clock := fun _ => ms

/-- A clock without its first readings. -/
def Clock.after (c : Clock) (taken : Nat) : Clock := fun i => c (taken + i)

/-- The state of a generator: its last millisecond and number, and its node. -/
structure Generator where
  node : Nat
  lastMs : Nat := 0
  sequence : Nat := 0
  deriving DecidableEq

/-- A generator of a node that has issued nothing. -/
def Generator.ofNode (node : Nat) : Generator := { node := min node maxNode }

/-- What issuing an id gives: the id, the generator after it, how many readings of the clock were taken and how many of them
in waiting. -/
structure Issue where
  id : Int
  generator : Generator
  readings : Nat
  waits : Nat

/-- The millisecond a waiting generator goes on with after one more reading. -/
def nextMs (last reading : Nat) : Nat := if max reading last = last then last + 1 else max reading last

/-- Waiting goes past the last millisecond. -/
theorem lt_nextMs (last reading : Nat) : last < nextMs last reading := by
  unfold nextMs
  split <;> omega

/-- Waiting until the time is past `last`: the time then, and how many readings it took. -/
def waitPast (clock : Clock) (last now : Nat) : Nat × Nat :=
  if now ≤ last then
    let (ms, waits) := waitPast (clock.after 1) last (nextMs last (clock 0))
    (ms, waits + 1)
  else (now, 0)
termination_by last + 1 - now
decreasing_by
  have := lt_nextMs last (clock 0)
  omega

/-- Ids are below this. -/
def range : Nat := 9223372036854775808

/-- The id of a millisecond, a node and a number: a word of 41, 10 and 12 bits, kept positive. -/
def compose (ms node sequence : Nat) : Int := ((((ms - epoch) * (maxNode + 1) + node) * perMillisecond + sequence) % range : Nat)

/-- The next id. -/
def Generator.next (g : Generator) (clock : Clock) : Issue :=
  let now := max (max (clock 0) epoch) g.lastMs
  if now = g.lastMs then
    let sequence := (g.sequence + 1) % perMillisecond
    if sequence = 0 then
      let (ms, waits) := waitPast (clock.after 1) g.lastMs now
      ⟨compose ms g.node 0, { g with lastMs := ms, sequence := 0 }, 1 + waits, waits⟩
    else ⟨compose now g.node sequence, { g with lastMs := now, sequence }, 1, 0⟩
  else ⟨compose now g.node 0, { g with lastMs := now, sequence := 0 }, 1, 0⟩

/-- The next `n` ids after `taken` readings of a clock, and the generator after them. -/
def Generator.takeFrom (g : Generator) (clock : Clock) (taken : Nat) : Nat → List Int × Generator
  | 0 => ([], g)
  | n + 1 =>
    let issue := g.next (clock.after taken)
    let (ids, g) := issue.generator.takeFrom clock (taken + issue.readings) n
    (issue.id :: ids, g)

/-- The next `n` ids, and the generator after them. -/
def Generator.take (g : Generator) (clock : Clock) (n : Nat) : List Int × Generator := g.takeFrom clock 0 n

/-- How a generator is shown. -/
def Generator.describe (g : Generator) : String := "IdGenerator \x7b node_id: " ++ toString g.node ++ " \x7d"

end InferenceGate.Ids
