import InferenceGate.Call.Pipeline
import InferenceGate.Proofs.Relay.Capture

/-!
# What a caller reads of an answer

The books are told of a reply of the backend what the caller has read of it (`told_read`). An answer of the gateway's own is on its way
like a reply, except that nobody is told: the frames are the same (`SameFlow.frames`), and a caller that reads on has the whole of it.
-/

namespace InferenceGate.ReadingAux

open Relay

/-- The books are told, once, what a caller of any patience has read of a reply. -/
theorem told_read (r : Reply) (patience : Patience) :
    (r.tee.read patience).tee.told = [(r.tee.read patience).frames.flatten] := by
  obtain ⟨n, hn⟩ := CaptureAux.exists_readFrames patience (r.tee.framesLeft + 1) 0 r.tee
  unfold Tee.read
  rw [hn]
  exact ((CaptureAux.owing_tee r).readsOn (n := n)).told

/-- The books are told a beginning of what the backend sent. -/
theorem isPrefix_told (r : Reply) (patience : Patience) : (r.tee.read patience).tee.told.flatten <+: r.chunks.flatten := by
  obtain ⟨n, hn⟩ := CaptureAux.exists_readFrames patience (r.tee.framesLeft + 1) 0 r.tee
  rw [told_read, List.flatten_singleton]
  unfold Tee.read
  rw [hn]
  exact ((CaptureAux.owing_tee r).readsOn (n := n)).beginning

/-- Two bodies of which the same is still to come, whatever the books have been told of them. -/
structure SameFlow (t t' : Tee) : Prop where
  chunks : t'.chunks = t.chunks
  pending : t'.pending = t.pending
  ending : t'.ending = t.ending

theorem SameFlow.settle {t t' : Tee} (h : SameFlow t t') : SameFlow t.settle t'.settle := by
  obtain ⟨hc, hp, he⟩ := h
  unfold Tee.settle
  split <;> split <;> exact ⟨hc, hp, he⟩

/-- Two readings of one flow give the same frame next. -/
theorem SameFlow.pull {t t' : Tee} (h : SameFlow t t') : t'.pull.1 = t.pull.1 ∧ SameFlow t.pull.2 t'.pull.2 := by
  obtain ⟨chunks, ending, pending, captured, owed, told⟩ := t
  obtain ⟨chunks', ending', pending', captured', owed', told'⟩ := t'
  obtain ⟨rfl, rfl, rfl⟩ := h
  unfold Tee.pull
  dsimp only
  split
  · split
    · exact ⟨rfl, rfl, rfl, rfl⟩
    · have hs : SameFlow ⟨[], ending', pending', captured, owed, told⟩ ⟨[], ending', pending', captured', owed', told'⟩ :=
        ⟨rfl, rfl, rfl⟩
      cases ending' with
      | complete => exact ⟨rfl, hs.settle⟩
      | broken => exact ⟨rfl, hs.settle⟩
      | silent => exact ⟨rfl, hs⟩
  · exact ⟨rfl, rfl, rfl, rfl⟩

/-- A caller reads the same frames of both. -/
theorem SameFlow.frames {t t' : Tee} (h : SameFlow t t') (patience : Patience) (fuel bytes : Nat) :
    (t'.readFrom patience fuel bytes).frames = (t.readFrom patience fuel bytes).frames := by
  induction fuel generalizing t t' bytes with
  | zero => rfl
  | succ fuel ih =>
    obtain ⟨hpull, hflow⟩ := h.pull
    unfold Tee.readFrom
    split
    · rfl
    · rcases hp : t.pull with ⟨pull, next⟩
      rcases hp' : t'.pull with ⟨pull', next'⟩
      rw [hp, hp'] at hpull hflow
      obtain rfl : pull' = pull := hpull
      cases pull' with
      | frame f => exact congrArg (f :: ·) (ih hflow (bytes + f.length))
      | failed | ended | waiting => rfl

end InferenceGate.ReadingAux
