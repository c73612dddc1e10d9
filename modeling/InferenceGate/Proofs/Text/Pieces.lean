import InferenceGate.Text.Bytes

/-!
# Bytes in pieces

Bytes split at a separator are the pieces that it joins, and bytes cut at one are what stands before its first place and after it. The
pieces are those of the library's `List.splitOn`, whose lemmas therefore hold of them.
-/

namespace InferenceGate.Bytes

variable {sep : UInt8} {bs piece rest : Bytes}

/-- Cutting goes on from the pieces that are done and the one that is begun. -/
theorem splitOn_go_eq (sep : UInt8) (bs piece : Bytes) (done : List Bytes) :
    splitOn.go sep bs piece done = done.reverse ++ (List.splitOn sep bs).modifyHead (piece.reverse ++ ·) := by
  induction bs generalizing piece done with
  | nil => simp [splitOn.go]
  | cons b bs ih =>
    unfold splitOn.go
    rw [List.splitOn_cons_eq_if_modifyHead]
    cases hp : List.splitOn sep bs with
    | nil => exact absurd hp (List.splitOn_ne_nil sep bs)
    | cons p ps => by_cases h : b = sep <;> simp [h, ih, hp]

/-- A text is cut at each separator as a list is. -/
theorem splitOn_eq (sep : UInt8) (bs : Bytes) : splitOn sep bs = List.splitOn sep bs := by
  unfold splitOn
  rw [splitOn_go_eq]
  cases List.splitOn sep bs <;> rfl

/-- A first piece is split off. -/
theorem splitOn_append_cons (h : sep ∉ piece) : splitOn sep (piece ++ sep :: rest) = piece :: splitOn sep rest := by
  rw [splitOn_eq, splitOn_eq, List.splitOn_append_cons_self_of_not_mem h]

/-- Bytes that hold the separator begin with a piece that does not. -/
theorem notMem_or_eq_append_cons (sep : UInt8) (bs : Bytes) :
    sep ∉ bs ∨ ∃ piece rest, sep ∉ piece ∧ bs = piece ++ sep :: rest := by
  by_cases h : sep ∈ bs
  · obtain ⟨piece, rest, hbs, hpiece⟩ := List.eq_append_cons_of_mem h
    exact .inr ⟨piece, rest, hpiece, hbs⟩
  · exact .inl h

/-- No piece holds the separator. -/
theorem notMem_of_mem_splitOn (h : piece ∈ splitOn sep bs) : sep ∉ piece := by
  rw [splitOn_eq] at h
  induction bs generalizing piece with
  | nil =>
    rw [List.splitOn_nil, List.mem_singleton] at h
    exact h ▸ List.not_mem_nil
  | cons b bs ih =>
    rw [List.splitOn_cons_eq_if_modifyHead] at h
    cases hp : List.splitOn sep bs with
    | nil => exact absurd hp (List.splitOn_ne_nil sep bs)
    | cons p ps =>
      rw [hp] at h ih
      by_cases hb : b = sep
      · rcases List.mem_cons.1 (by simpa [hb] using h : piece ∈ [] :: p :: ps) with rfl | h
        · exact List.not_mem_nil
        · exact ih h
      · rcases List.mem_cons.1 (by simpa [hb] using h : piece ∈ (b :: p) :: ps) with rfl | h
        · have hpiece : sep ∉ p := ih List.mem_cons_self
          simp [hpiece, Ne.symm hb]
        · exact ih (List.mem_cons_of_mem _ h)

/-- Without a separator there is nothing to cut off. -/
theorem cut_go_of_notMem (done : Bytes) (h : sep ∉ bs) : cut.go sep bs done = (done.reverse ++ bs, none) := by
  induction bs generalizing done with
  | nil => simp [cut.go]
  | cons b bs ih =>
    rw [List.mem_cons, not_or] at h
    unfold cut.go
    rw [if_neg (by simpa using fun e => h.1 e.symm), ih _ h.2]
    simp

/-- The first separator ends the first piece. -/
theorem cut_go_append_cons (done : Bytes) (h : sep ∉ piece) :
    cut.go sep (piece ++ sep :: rest) done = (done.reverse ++ piece, some rest) := by
  induction piece generalizing done with
  | nil => simp [cut.go]
  | cons b piece ih =>
    rw [List.mem_cons, not_or] at h
    rw [List.cons_append]
    unfold cut.go
    rw [if_neg (by simpa using fun e => h.1 e.symm), ih _ h.2]
    simp

/-- Bytes without the separator are not cut. -/
theorem cut_of_notMem (h : sep ∉ bs) : cut sep bs = (bs, none) := cut_go_of_notMem [] h

/-- Bytes are cut at the first separator. -/
theorem cut_append_cons (h : sep ∉ piece) : cut sep (piece ++ sep :: rest) = (piece, some rest) := cut_go_append_cons [] h

/-- What follows a beginning is the rest. -/
theorem eq_append_of_afterHead? {head : Bytes} (h : afterHead? head bs = some rest) : bs = head ++ rest := by
  induction head generalizing bs with
  | nil => exact Option.some.inj h
  | cons x head ih =>
    cases bs with
    | nil => exact nomatch h
    | cons y bs =>
      unfold afterHead? at h
      split at h
      · rename_i hxy
        rw [ih h, eq_of_beq hxy]
        rfl
      · exact nomatch h

end InferenceGate.Bytes
