import InferenceGate.Relay.Backend

/-!
# What the caller reads is what the books are told

A caller asks for frames one at a time and may give the body up after any number of them (`Tee.readFrames`). However far it reads,
the frames join to a beginning of what the backend sent, and the books are told once, with exactly those frames.

The invariant is `Owing`: while the body is on its way, what was handed out and what is still to come make up the whole, and the
books have heard nothing.
-/

namespace InferenceGate.Relay

/-- A body read by a caller that asks for `n` frames at most and then gives it up. -/
def Tee.readFrames : Nat → Tee → Reading
  | 0, t => ⟨[], false, false, t.drop⟩
  | n + 1, t =>
    match t.pull with
    | (.frame f, t) =>
      let g := t.readFrames n
      { g with frames := f :: g.frames }
    | (.failed, t) => ⟨[], true, true, t.drop⟩
    | (.ended, t) => ⟨[], false, true, t.drop⟩
    | (.waiting, t) => ⟨[], false, false, t.drop⟩

namespace CaptureAux

/-- A body of which `handed` was handed out and `rest` is still to come, and of which the books have not been told. -/
structure Owing (t : Tee) (handed rest : Bytes) : Prop where
  owed : t.isOwed = true
  untold : t.told = []
  captured : t.captured = handed
  toCome : t.pending ++ t.chunks.flatten = rest

/-- A body just begun owes all of its chunks. -/
theorem owing_tee (r : Reply) : Owing r.tee [] r.chunks.flatten := ⟨rfl, rfl, rfl, by simp [Reply.tee]⟩

/-- Empty chunks hold nothing. -/
theorem flatten_dropWhile_isEmpty (chunks : List Bytes) : (chunks.dropWhile List.isEmpty).flatten = chunks.flatten := by
  induction chunks with
  | nil => rfl
  | cons c cs ih =>
    cases c with
    | nil => simpa [List.dropWhile_cons] using ih
    | cons b bs => simp

/-- The books are told, in the end, what was handed out. -/
theorem Owing.told_drop {t : Tee} {handed rest : Bytes} (h : Owing t handed rest) : t.drop.told = [handed] := by
  simp [Tee.drop, Tee.settle, h.owed, h.untold, h.captured]

/-- Telling the books twice is telling them once. -/
theorem drop_settle (t : Tee) : t.settle.drop = t.settle := by
  cases h : t.isOwed <;> simp [Tee.drop, Tee.settle, h]

/-- A frame cut from a pending chunk: not empty, of bounded size, and the first part of what is to come. -/
theorem Owing.cutFrame {t : Tee} {handed rest : Bytes} (h : Owing t handed rest) (hp : t.pending ≠ []) :
    ∃ f t' rest', t.cutFrame = (.frame f, t') ∧ f ≠ [] ∧ f.length ≤ frameSize ∧ rest = f ++ rest' ∧
      t'.ending = t.ending ∧ Owing t' (handed ++ f) rest' := by
  refine ⟨t.pending.take frameSize, _, t.pending.drop frameSize ++ t.chunks.flatten, rfl, ?_, ?_, ?_, rfl, ?_⟩
  · intro he
    rcases List.take_eq_nil_iff.1 he with hz | hn
    · exact absurd hz (by decide)
    · exact hp hn
  · rw [List.length_take]
    exact Nat.min_le_left _ _
  · rw [← h.toCome, ← List.append_assoc, List.take_append_drop]
  · exact ⟨h.owed, h.untold, by simp [h.captured], rfl⟩

/-- What is left of the chunks without the empty ones before it begins with a chunk that holds something. -/
theorem ne_nil_of_dropWhile {chunks cs : List Bytes} {c : Bytes} (h : chunks.dropWhile List.isEmpty = c :: cs) : c ≠ [] := by
  have hh := List.head?_dropWhile_not List.isEmpty chunks
  rw [h] at hh
  simpa using hh

/-- A body with something to come gives a frame of it. -/
theorem Owing.pull_frame {t : Tee} {handed rest : Bytes} (h : Owing t handed rest) (hr : rest ≠ []) :
    ∃ f t' rest', t.pull = (.frame f, t') ∧ f ≠ [] ∧ f.length ≤ frameSize ∧ rest = f ++ rest' ∧
      t'.ending = t.ending ∧ Owing t' (handed ++ f) rest' := by
  unfold Tee.pull
  by_cases hp : t.pending = []
  · have hc : (t.chunks.dropWhile List.isEmpty).flatten = rest := by
      rw [flatten_dropWhile_isEmpty, ← h.toCome, hp, List.nil_append]
    rw [if_pos (by simpa using hp)]
    cases hd : t.chunks.dropWhile List.isEmpty with
    | nil => exact absurd (by rw [← hc, hd]; rfl) hr
    | cons chunk chunks =>
      have h' : Owing { t with chunks, pending := chunk } handed rest :=
        ⟨h.owed, h.untold, h.captured, by rw [← hc, hd]; rfl⟩
      exact h'.cutFrame (ne_nil_of_dropWhile hd)
  · rw [if_neg (by simpa using hp)]
    exact h.cutFrame hp

/-- What a caller gets that asks for a frame when there is nothing to come. -/
def lastPull : Ending → Pull
  | .complete => .ended
  | .broken => .failed
  | .silent => .waiting

/-- A body with nothing to come gives no frame, and once it is given up the books have been told of what was handed out. -/
theorem Owing.pull_nil {t : Tee} {handed : Bytes} (h : Owing t handed []) :
    ∃ t', t.pull = (lastPull t.ending, t') ∧ t'.drop.told = [handed] := by
  obtain ⟨hp, hc⟩ := List.append_eq_nil_iff.1 h.toCome
  have hd : t.chunks.dropWhile List.isEmpty = [] := by
    cases hd : t.chunks.dropWhile List.isEmpty with
    | nil => rfl
    | cons c cs =>
      have hf := flatten_dropWhile_isEmpty t.chunks
      rw [hd, hc, List.flatten_cons] at hf
      exact absurd (List.append_eq_nil_iff.1 hf).1 (ne_nil_of_dropWhile hd)
  have h' : Owing { t with chunks := [] } handed [] := ⟨h.owed, h.untold, h.captured, by simp [hp]⟩
  unfold Tee.pull
  rw [if_pos (by simpa using hp), hd]
  obtain ⟨chunks, ending, pending, captured, owed, told⟩ := t
  cases ending with
  | complete => exact ⟨_, rfl, by rw [drop_settle]; exact h'.told_drop⟩
  | broken => exact ⟨_, rfl, by rw [drop_settle]; exact h'.told_drop⟩
  | silent => exact ⟨_, rfl, h'.told_drop⟩

/-- A caller that gets no frame reads no further. -/
theorem readFrames_of_pull {n : Nat} {t t' : Tee} {e : Ending} (h : t.pull = (lastPull e, t')) :
    t.readFrames (n + 1) = ⟨[], decide (e = .broken), decide (e ≠ .silent), t'.drop⟩ := by
  rw [Tee.readFrames, h]
  cases e <;> rfl

/-- What a caller that asks for `n` frames has of a body, when all frames but those handed out before are in it. -/
structure ReadsOn (n : Nat) (ending : Ending) (handed rest : Bytes) (g : Reading) : Prop where
  frames : ∀ f ∈ g.frames, f ≠ [] ∧ f.length ≤ frameSize
  beginning : g.frames.flatten <+: rest
  bounded : g.frames.length ≤ n
  whole : g.frames.length < n → g.frames.flatten = rest ∧ (g.failed = true ↔ ending = .broken)
  failed : g.failed = true → g.frames.length < n
  told : g.tee.told = [handed ++ g.frames.flatten]

/-- A reading of what is still owed. -/
theorem Owing.readsOn {n : Nat} {t : Tee} {handed rest : Bytes} (h : Owing t handed rest) :
    ReadsOn n t.ending handed rest (t.readFrames n) := by
  induction n generalizing t handed rest with
  | zero =>
    refine ⟨nofun, List.nil_prefix, Nat.le_refl 0, fun hn => absurd hn (Nat.lt_irrefl 0), nofun, ?_⟩
    simpa [Tee.readFrames] using h.told_drop
  | succ n ih =>
    by_cases hr : rest = []
    · subst hr
      obtain ⟨t', hp, ht⟩ := h.pull_nil
      rw [readFrames_of_pull hp]
      exact ⟨nofun, List.nil_prefix, Nat.zero_le _, fun _ => ⟨rfl, by simp⟩, fun _ => Nat.succ_pos n, by simpa using ht⟩
    · obtain ⟨f, t', rest', hp, hf, hl, rfl, he, h'⟩ := h.pull_frame hr
      obtain ⟨ih1, ih2, ih3, ih4, ih5, ih6⟩ := ih h'
      rw [Tee.readFrames, hp, ← he]
      refine ⟨?_, ?_, Nat.succ_le_succ ih3, fun hn => ?_, fun hx => Nat.succ_lt_succ (ih5 hx), ?_⟩
      · intro f' hf'
        rcases List.mem_cons.1 hf' with rfl | hf'
        · exact ⟨hf, hl⟩
        · exact ih1 f' hf'
      · rw [List.flatten_cons]
        exact List.prefix_append_right_inj f |>.2 ih2
      · obtain ⟨hw, hx⟩ := ih4 (Nat.lt_of_succ_lt_succ hn)
        exact ⟨by rw [List.flatten_cons, hw], hx⟩
      · rw [ih6, List.flatten_cons, List.append_assoc]

/-- A caller of any patience reads some number of frames. -/
theorem exists_readFrames (p : Patience) (fuel bytes : Nat) (t : Tee) :
    ∃ n, t.readFrom p fuel bytes = t.readFrames n := by
  induction fuel generalizing bytes t with
  | zero => exact ⟨0, rfl⟩
  | succ fuel ih =>
    rw [Tee.readFrom]
    split
    · exact ⟨0, rfl⟩
    · rcases hp : t.pull with ⟨(f | _ | _ | _), t'⟩
      · obtain ⟨n, hn⟩ := ih (bytes + f.length) t'
        exact ⟨n + 1, by simp only [hn, Tee.readFrames, hp]⟩
      all_goals exact ⟨1, by simp only [Tee.readFrames, hp]⟩

/-- A caller that never has enough asks for frames as long as it may. -/
theorem readFrom_unlimited (fuel bytes : Nat) (t : Tee) : t.readFrom .unlimited fuel bytes = t.readFrames fuel := by
  induction fuel generalizing bytes t with
  | zero => rfl
  | succ fuel ih =>
    rw [Tee.readFrom, if_neg (by simp [Patience.isOver]), Tee.readFrames]
    rcases t.pull with ⟨(f | _ | _ | _), t'⟩
    · simp only [ih]
    all_goals rfl

/-- The bytes of chunks are those of all of them together. -/
theorem total_map_length (chunks : List Bytes) : total (chunks.map List.length) = chunks.flatten.length := by
  induction chunks with
  | nil => rfl
  | cons c cs ih => simp [ih]

/-- No frame is empty, so there are no more frames than bytes. -/
theorem length_le_flatten {frames : List Bytes} (h : ∀ f ∈ frames, f ≠ []) : frames.length ≤ frames.flatten.length := by
  induction frames with
  | nil => exact Nat.le_refl 0
  | cons f fs ih =>
    have h1 : 0 < f.length := List.length_pos_iff.2 (h f List.mem_cons_self)
    have h2 := ih fun g hg => h g (List.mem_cons_of_mem f hg)
    simp only [List.length_cons, List.flatten_cons, List.length_append]
    omega

end CaptureAux

open CaptureAux

/-- The tee. Whatever chunks the backend sends, and however many frames `n` the caller asks for before it gives the body up: a frame
is never empty and never beyond 8192 bytes; the frames join to a beginning of the chunks, and to all of them when the caller
reads on to the end, which it does with one frame more than there are bytes; a fault is told after all bytes and only where
the body broke off; and the books are told once, of exactly the frames handed out. A caller that counts bytes reads some number
of frames, and one that never has enough reads them all. -/
theorem capture_exactly_once (r : Reply) :
    (∀ n,
      (∀ f ∈ (r.tee.readFrames n).frames, f ≠ [] ∧ f.length ≤ 8192) ∧
      (r.tee.readFrames n).frames.length ≤ n ∧
      (r.tee.readFrames n).frames.flatten <+: r.chunks.flatten ∧
      (r.chunks.flatten.length < n → (r.tee.readFrames n).frames.length < n) ∧
      ((r.tee.readFrames n).frames.length < n →
        (r.tee.readFrames n).frames.flatten = r.chunks.flatten ∧
        ((r.tee.readFrames n).failed = true ↔ r.ending = .broken)) ∧
      ((r.tee.readFrames n).failed = true → (r.tee.readFrames n).frames.flatten = r.chunks.flatten) ∧
      (r.tee.readFrames n).tee.told = [(r.tee.readFrames n).frames.flatten]) ∧
    (∀ p, ∃ n, r.tee.read p = r.tee.readFrames n) ∧
    r.tee.read .unlimited = r.tee.readFrames (r.chunks.flatten.length + 1) := by
  refine ⟨fun n => ?_, fun p => exists_readFrames p _ _ _, ?_⟩
  · obtain ⟨hf, hb, hn, hw, hx, ht⟩ := (owing_tee r).readsOn (n := n)
    refine ⟨hf, hn, hb, fun hlt => ?_, hw, fun h => (hw (hx h)).1, ht⟩
    exact Nat.lt_of_le_of_lt (Nat.le_trans (length_le_flatten fun f h => (hf f h).1) hb.length_le) hlt
  · have hl : r.tee.framesLeft = r.chunks.flatten.length := by simp [Tee.framesLeft, Reply.tee, total_map_length]
    rw [Tee.read, readFrom_unlimited, hl]

end InferenceGate.Relay
