import InferenceGate.Proofs.Relay.TokenParameter
import Mathlib.Data.List.TakeWhile

/-!
# What is left of a query

A path and query is a path and the pieces between the ampersands of the query, empty ones among them (`inPieces`). When the pairs of a name
are taken out, the path stays and so do the other pieces, as they are spelled and in their order, but for the empty ones: these go as well.
So a path and query that has no pair of the name is left as it is just when no piece of it is empty (`query_relayed`).
-/

namespace InferenceGate.Relay

/-- The path of an address, or of a path with its query: what stands before the first question mark. -/
def pathOf (address : Bytes) : Bytes := address.takeWhile (· != 0x3f)

/-- What stands between the ampersands of a query, a piece of no bytes too; no piece where there is no question mark. -/
def pieces (address : Bytes) : List Bytes := if 0x3f ∈ address then List.splitOn 0x26 (queryOf address) else []

/-- A path with the pieces of a query behind a question mark, or the path alone where there is no piece. -/
def inPieces (path : Bytes) : List Bytes → Bytes
  | [] => path
  | piece :: rest => path ++ 0x3f :: [0x26].intercalate (piece :: rest)

namespace QueryPiecesAux

open TokenParameterAux

variable {path query : Bytes} {ps : List Bytes}

theorem inPieces_of_ne_nil (path : Bytes) (h : ps ≠ []) : inPieces path ps = path ++ 0x3f :: [0x26].intercalate ps := by
  cases ps with
  | nil => exact absurd rfl h
  | cons piece rest => rfl

theorem pathOf_of_notMem (h : 0x3f ∉ path) : pathOf path = path := List.takeWhile_eq_self_iff.2 (bne_of_notMem h)

/-- The path of a target ends at the first question mark. -/
theorem pathOf_append_mark (h : 0x3f ∉ path) (query : Bytes) : pathOf (path ++ 0x3f :: query) = path := by
  unfold pathOf
  rw [List.takeWhile_append_of_pos (bne_of_notMem h)]
  simp

theorem pieces_of_notMem (h : 0x3f ∉ path) : pieces path = [] := if_neg h

/-- The pieces of a target are its query cut at every ampersand. -/
theorem pieces_append_mark (h : 0x3f ∉ path) (query : Bytes) : pieces (path ++ 0x3f :: query) = List.splitOn 0x26 query := by
  unfold pieces
  rw [if_pos (by simp), queryOf_append h, queryOf_mark]

/-- A path and query is its path with its pieces. -/
theorem inPieces_pieces (target : Bytes) : inPieces (pathOf target) (pieces target) = target := by
  rcases Bytes.notMem_or_eq_append_cons 0x3f target with h | ⟨path, query, h, rfl⟩
  · rw [pathOf_of_notMem h, pieces_of_notMem h]
    rfl
  · rw [pathOf_append_mark h, pieces_append_mark h, inPieces_of_ne_nil path (List.splitOn_ne_nil 0x26 query),
      List.intercalate_splitOn]

/-- The pieces that a path is given are those it has. -/
theorem pieces_inPieces (hpath : 0x3f ∉ path) (h : ∀ piece ∈ ps, 0x26 ∉ piece) : pieces (inPieces path ps) = ps := by
  by_cases hps : ps = []
  · subst hps
    exact pieces_of_notMem hpath
  · rw [inPieces_of_ne_nil path hps, pieces_append_mark hpath, List.splitOn_intercalate 0x26 h hps]

/-- A path holds no question mark. -/
theorem notMem_pathOf (target : Bytes) : 0x3f ∉ pathOf target := by
  intro h
  have hne := List.all_eq_true.1 (List.all_takeWhile (p := (· != 0x3f)) (l := target)) 0x3f h
  exact absurd hne (by decide)

/-- A piece holds no ampersand. -/
theorem notMem_of_mem_pieces {target piece : Bytes} (h : piece ∈ pieces target) : 0x26 ∉ piece := by
  unfold pieces at h
  split at h
  · rw [← Bytes.splitOn_eq] at h
    exact Bytes.notMem_of_mem_splitOn h
  · nomatch h

/-- Some of the pieces make up the whole only when they are all of them. -/
theorem inPieces_filter_eq_iff (p : Bytes → Bool) (target : Bytes) :
    inPieces (pathOf target) ((pieces target).filter p) = target ↔ ∀ piece ∈ pieces target, p piece = true := by
  rw [← List.filter_eq_self]
  constructor
  · intro h
    have hkept : ∀ piece ∈ (pieces target).filter p, 0x26 ∉ piece := by
      intro piece hpiece
      exact notMem_of_mem_pieces (List.mem_filter.1 hpiece).1
    rw [← pieces_inPieces (notMem_pathOf target) hkept, h]
  · intro h
    rw [h, inPieces_pieces]

/-- Taking out the pairs of a name leaves the pieces that are neither such a pair nor empty. -/
theorem withoutParam_eq (name target : Bytes) : withoutParam name target =
    inPieces (pathOf target) ((pieces target).filter fun piece => piece ≠ [] ∧ spelledName piece ≠ name) := by
  rcases Bytes.notMem_or_eq_append_cons 0x3f target with h | ⟨path, query, h, rfl⟩
  · rw [pathOf_of_notMem h, pieces_of_notMem h]
    unfold withoutParam
    rw [Bytes.cut_of_notMem h]
    rfl
  · have hkept : keptPairs name query =
        (List.splitOn 0x26 query).filter fun piece => piece ≠ [] ∧ spelledName piece ≠ name := by
      unfold keptPairs
      rw [Bytes.splitOn_eq]
      refine List.filter_congr fun piece _ => ?_
      rw [pairName_eq, Bool.eq_iff_iff]
      simp
    rw [pathOf_append_mark h, pieces_append_mark h, ← hkept]
    unfold withoutParam
    rw [Bytes.cut_append_cons h]
    dsimp only
    split
    · rename_i hnone
      rw [hnone]
      rfl
    · rename_i hsome
      exact (inPieces_of_ne_nil path hsome).symm

end QueryPiecesAux

open QueryPiecesAux

/-- What is relayed of a path and query is its path with those of its pieces that are neither a pair of the name nor empty: the whole when
all of them are so, and all but the pairs of the name when none of them is empty. -/
theorem query_relayed (name target : Bytes) :
    inPieces (pathOf target) (pieces target) = target ∧
      withoutParam name target =
        inPieces (pathOf target) ((pieces target).filter fun piece => piece ≠ [] ∧ spelledName piece ≠ name) ∧
      (withoutParam name target = target ↔ ∀ piece ∈ pieces target, piece ≠ [] ∧ spelledName piece ≠ name) ∧
      ((∀ piece ∈ pieces target, piece ≠ []) →
        withoutParam name target = inPieces (pathOf target) ((pieces target).filter fun piece => spelledName piece ≠ name)) := by
  have hkept := withoutParam_eq name target
  refine ⟨inPieces_pieces target, hkept, ?_, fun hfull => ?_⟩
  · rw [hkept, inPieces_filter_eq_iff]
    simp
  · rw [hkept]
    refine congrArg (inPieces _) (List.filter_congr fun piece hpiece => ?_)
    simp [hfull piece hpiece]

/-- A query with a repeated name and two names without a value, the token between them. -/
theorem query_relayed_repeated :
    let target := Bytes.ofText "/v1/models?a=1&token=abc&b&a=1&c="
    (∀ piece ∈ pieces target, piece ≠ []) ∧ withoutParam tokenParam target = Bytes.ofText "/v1/models?a=1&b&a=1&c=" := by
  intro target
  have hpieces : pieces target = ["a=1", "token=abc", "b", "a=1", "c="].map Bytes.ofText := by decide
  have hfull : ∀ piece ∈ pieces target, piece ≠ [] := by
    rw [hpieces]
    decide
  refine ⟨hfull, ((query_relayed tokenParam target).2.2.2 hfull).trans ?_⟩
  rw [hpieces]
  decide

/-- A query without a token loses its empty pieces on the way to the backend, and a question mark that nothing follows goes as well. -/
theorem empty_pieces_lost :
    let target := Bytes.ofText "/v1/models?a=1&&b=2&"
    let bare := Bytes.ofText "/v1/models?"
    (∀ piece ∈ pieces target, spelledName piece ≠ tokenParam) ∧
      withoutParam tokenParam target = Bytes.ofText "/v1/models?a=1&b=2" ∧ withoutParam tokenParam target ≠ target ∧
      (∀ piece ∈ pieces bare, spelledName piece ≠ tokenParam) ∧ withoutParam tokenParam bare = Bytes.ofText "/v1/models" := by
  decide

end InferenceGate.Relay
