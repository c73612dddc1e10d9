import InferenceGate.Proofs.Text.Blanks
import InferenceGate.Relay.Target

/-!
# The address of a path

The address of the backend may be configured with version 1 of the interface at its end or without it, and with slashes after
either. A path of version 1 goes to the same place each way: what stands before the version in the address, and then the path.
-/

namespace InferenceGate.Relay

/-- A path of version 1 of the interface: the version alone, or before a slash or a question mark. -/
inductive OfVersion1 : Bytes → Prop where
  | alone : OfVersion1 version1
  | below (rest : Bytes) : OfVersion1 (version1 ++ 0x2f :: rest)
  | queried (rest : Bytes) : OfVersion1 (version1 ++ 0x3f :: rest)

/-- Slashes at the end of an address. -/
def slashes (n : Nat) : Bytes := List.replicate n 0x2f

namespace AddressAux

variable {base path : Bytes}

/-- Slashes at the end of an address do not count. -/
theorem dropEnd_slashes (h : ¬ [0x2f] <:+ base) (n : Nat) : Text.dropEnd (· == 0x2f) (base ++ slashes n) = base := by
  have hall : ∀ x ∈ slashes n, (x == 0x2f) = true := by
    intro x hx
    rw [List.eq_of_mem_replicate hx]
    rfl
  have hlast : ∀ x, base.getLast? = some x → (x == 0x2f) = false := by
    intro x hx
    have hne : x ≠ 0x2f := by
      rintro rfl
      exact h (List.singleton_suffix_iff_getLast?_eq_some.2 hx)
    simpa using hne
  rw [Text.dropEnd_append_of_all base hall, Text.dropEnd_of_getLast? hlast]

/-- What follows the version in a path of version 1 is told, and the path is the version and that. -/
theorem exists_afterVersion1? (h : OfVersion1 path) : ∃ rest, afterVersion1? path = some rest ∧ path = version1 ++ rest := by
  cases h with
  | alone => exact ⟨[], rfl, rfl⟩
  | below rest => exact ⟨0x2f :: rest, rfl, rfl⟩
  | queried rest => exact ⟨0x3f :: rest, rfl, rfl⟩

/-- A path of version 1 begins with a slash. -/
theorem cons_withoutSlash (h : OfVersion1 path) : 0x2f :: withoutSlash path = path := by
  cases h <;> rfl

/-- An address that names the version does not name it again. -/
theorem join_named (h : OfVersion1 path) (n : Nat) : join (base ++ version1 ++ slashes n) path = base ++ path := by
  obtain ⟨rest, hrest, hpath⟩ := exists_afterVersion1? h
  have hslash : ¬ [0x2f] <:+ base ++ version1 := by
    intro hs
    have hlast := List.singleton_suffix_iff_getLast?_eq_some.1 hs
    rw [List.getLast?_append, show version1.getLast? = some 0x31 from rfl] at hlast
    exact absurd hlast (by simp)
  have hversion : version1.isSuffixOf (base ++ version1) = true := List.isSuffixOf_iff_suffix.2 (List.suffix_append base version1)
  unfold join
  simp only [dropEnd_slashes hslash, hversion, if_true, hrest]
  rw [List.append_assoc, ← hpath]

/-- An address that does not name the version is followed by the path as it is. -/
theorem join_unnamed (hslash : ¬ [0x2f] <:+ base) (hversion : ¬ version1 <:+ base) (h : OfVersion1 path) (n : Nat) :
    join (base ++ slashes n) path = base ++ path := by
  have hnot : version1.isSuffixOf base = false := by
    rw [Bool.eq_false_iff]
    intro hs
    exact hversion (List.isSuffixOf_iff_suffix.1 hs)
  unfold join
  simp only [dropEnd_slashes hslash, hnot, Bool.false_eq_true, if_false]
  rw [cons_withoutSlash h]

end AddressAux

open AddressAux

/-- With version 1 at its end or without it, and with any number of slashes after that, an address joins to a path of version 1 in the
same way: it is followed by the path. -/
theorem join_version1 {base path : Bytes} (hslash : ¬ [0x2f] <:+ base) (hversion : ¬ version1 <:+ base) (hpath : OfVersion1 path)
    (n : Nat) :
    join (base ++ version1 ++ slashes n) path = join (base ++ slashes n) path ∧ join (base ++ slashes n) path = base ++ path := by
  have hjoin := join_unnamed hslash hversion hpath n
  exact ⟨(join_named hpath n).trans hjoin.symm, hjoin⟩

/-- A path with a query at an address with two slashes at its end. -/
theorem join_version1_two_slashes :
    let base := Bytes.ofText "http://localhost:8000"
    let path := Bytes.ofText "/v1?limit=2"
    (¬ [0x2f] <:+ base) ∧ (¬ version1 <:+ base) ∧ OfVersion1 path ∧
      join (Bytes.ofText "http://localhost:8000/v1//") path = Bytes.ofText "http://localhost:8000/v1?limit=2" ∧
      join (Bytes.ofText "http://localhost:8000//") path = Bytes.ofText "http://localhost:8000/v1?limit=2" := by
  intro base path
  have hslash : ¬ [0x2f] <:+ base := by decide
  have hversion : ¬ version1 <:+ base := by decide
  have hpath : OfVersion1 path := .queried (Bytes.ofText "limit=2")
  obtain ⟨hsame, hjoin⟩ := join_version1 hslash hversion hpath 2
  exact ⟨hslash, hversion, hpath, hsame.trans hjoin, hjoin⟩

end InferenceGate.Relay
