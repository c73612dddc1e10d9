import InferenceGate.Text.Bytes
import InferenceGate.Total

/-!
# The body as it is relayed

The chunks of the backend's body are handed to the caller in frames, and what was handed out is kept. When the body ends, breaks
off or is dropped by the caller, all of that is passed on once, for the books. `Tee` is the state of one body: `pull` asks for the
next frame, `drop` gives the body up.
-/

namespace InferenceGate.Relay

/-- The largest frame. -/
def frameSize : Nat := 8192

/-- What comes after the last chunk of a body: its end, a fault, or nothing more. -/
inductive Ending where
  | complete | broken | silent
  deriving DecidableEq

/-- A body on its way to the caller. -/
structure Tee where
  /-- The chunks not yet taken from the backend. -/
  chunks : List Bytes
  ending : Ending
  /-- What is left of the chunk taken last. -/
  pending : Bytes := []
  /-- What was handed out and not yet passed on. -/
  captured : Bytes := []
  /-- The books are still to be told. -/
  isOwed : Bool := true
  /-- What the books were told, each time they were. -/
  told : List Bytes := []
  deriving DecidableEq

/-- What the caller gets when it asks for a frame. -/
inductive Pull where
  | frame (bytes : Bytes)
  | failed
  | ended
  | waiting
  deriving DecidableEq

namespace Tee

/-- The books told, if that is still owed. -/
def settle (t : Tee) : Tee :=
  if t.isOwed then { t with isOwed := false, told := t.told ++ [t.captured], captured := [] } else t

/-- The next frame of what is pending. -/
def cutFrame (t : Tee) : Pull × Tee :=
  let frame := t.pending.take frameSize
  (.frame frame, { t with pending := t.pending.drop frameSize, captured := t.captured ++ frame })

/-- The next frame asked for: of the pending chunk, or else of the next one that holds anything. -/
def pull (t : Tee) : Pull × Tee :=
  if t.pending.isEmpty then
    match t.chunks.dropWhile List.isEmpty with
    | chunk :: chunks => { t with chunks, pending := chunk }.cutFrame
    | [] =>
      let t := { t with chunks := [] }
      match t.ending with
      | .complete => (.ended, t.settle)
      | .broken => (.failed, t.settle)
      | .silent => (.waiting, t)
  else t.cutFrame

/-- The body given up by the caller. -/
def drop (t : Tee) : Tee := t.settle

end Tee

/-- How far a caller reads a body: on to its end, or until it has so many bytes. What follows the end is waited for as long as it takes,
or so many times before the caller goes away. -/
inductive Patience where
  | unlimited
  | enough (bytes : Nat)
  | toEnd (waits : Nat)
  deriving DecidableEq

/-- The caller has read as much as it wants. -/
def Patience.isOver (p : Patience) (bytes : Nat) : Bool :=
  match p with
  | .unlimited | .toEnd _ => false
  | .enough n => n ≤ bytes

/-- What a caller has of a body when it stops reading: the frames, whether the body broke off, and whether the caller has come to where
the body ended or broke off. -/
structure Reading where
  frames : List Bytes
  failed : Bool
  atEnd : Bool
  tee : Tee

/-- How many times a caller waits for what follows the end of a body; none is as long as it takes. Nobody waits for what follows a body
that is given up before its end. -/
def Reading.waits? (r : Reading) : Patience → Option Nat
  | .toEnd waits => if r.atEnd then some waits else none
  | .unlimited | .enough _ => none

/-- The number of frames of what is still to come is at most this. -/
def Tee.framesLeft (t : Tee) : Nat := t.pending.length + total (t.chunks.map List.length)

/-- A body read by a caller, at most `fuel` frames of it. A caller that waits in vain gives the body up. -/
def Tee.readFrom (patience : Patience) : Nat → Nat → Tee → Reading
  | 0, _, t => ⟨[], false, false, t.drop⟩
  | fuel + 1, bytes, t =>
    if patience.isOver bytes then ⟨[], false, false, t.drop⟩
    else
      match t.pull with
      | (.frame f, t) =>
        let r := t.readFrom patience fuel (bytes + f.length)
        { r with frames := f :: r.frames }
      | (.failed, t) => ⟨[], true, true, t.drop⟩
      | (.ended, t) => ⟨[], false, true, t.drop⟩
      | (.waiting, t) => ⟨[], false, false, t.drop⟩

/-- A body read by a caller. -/
def Tee.read (t : Tee) (patience : Patience) : Reading := t.readFrom patience (t.framesLeft + 1) 0

end InferenceGate.Relay
