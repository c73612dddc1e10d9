import InferenceGate.Proofs.Document.Records
import InferenceGate.Proofs.Json.RoundTrip

/-!
# Records are read back

A record is written as an object of the members that have a value, each under its own name (`written`). Read by its fields, wherever
they stand in it, every field finds the tree of the value that was written for it, and one without a value finds nothing
(`record?_written`).
-/

namespace InferenceGate.Json

open Document

/-- The members of a record that have a value. -/
def written (members : List (String × Option Value)) : Members := members.filterMap fun m => m.2.map (m.1, ·)

/-- What was written for a field. -/
def valueFor? (members : List (String × Option Value)) (name : String) : Option Value := (members.lookup name).join

namespace RecordsAux

variable {members : List (String × Option Value)} {fields : List Field} {name : String} {v : Value}

/-- What is written is the members that have a value. -/
theorem mem_written : (name, v) ∈ written members ↔ (name, some v) ∈ members := by
  unfold written
  rw [List.mem_filterMap]
  constructor
  · rintro ⟨⟨n, o⟩, hm, ho⟩
    obtain ⟨w, rfl, hw⟩ := Option.map_eq_some_iff.1 ho
    obtain ⟨rfl, rfl⟩ := Prod.mk.inj hw
    exact hm
  · exact fun hm => ⟨_, hm, rfl⟩

/-- The names of the members that have a value are some of all names. -/
theorem names_sublist (members : List (String × Option Value)) :
    ((written members).map Prod.fst).Sublist (members.map Prod.fst) := by
  induction members with
  | nil => exact .slnil
  | cons m members ih =>
    obtain ⟨n, o⟩ := m
    cases o with
    | none => exact ih.cons n
    | some v => exact ih.cons_cons n

/-- Where names differ, the value written for a field is the one that stands beside its name. -/
theorem valueFor?_eq_some (h : (members.map Prod.fst).Nodup) : valueFor? members name = some v ↔ (name, some v) ∈ members := by
  unfold valueFor?
  induction members with
  | nil => exact ⟨nofun, nofun⟩
  | cons m members ih =>
    obtain ⟨n, o⟩ := m
    obtain ⟨hn, hd⟩ := List.nodup_cons.1 h
    rw [List.lookup_cons, List.mem_cons]
    by_cases hname : name = n
    · subst hname
      have hnot : (name, some v) ∉ members := fun hm => hn (List.mem_map.2 ⟨_, hm, rfl⟩)
      simp [hnot, eq_comm]
    · simp [hname, beq_false_of_ne hname, ih hd]

theorem memberTreesOf_eq (ms : List (String × Value)) :
    memberTreesOf ms = ms.map fun m => (Atom.text (some m.1), treeOf m.2) := by
  induction ms with
  | nil => rfl
  | cons m ms ih => rw [memberTreesOf, ih, List.map_cons]

/-- What the members of an object give are those among them that have a field. -/
theorem given_sublist (ms : List (String × Value)) (hplain : ∀ f ∈ fields, f.aliases = []) :
    ((given fields (memberTreesOf ms)).map Prod.fst).Sublist (ms.map Prod.fst) := by
  rw [memberTreesOf_eq]
  induction ms with
  | nil => exact .slnil
  | cons m ms ih =>
    obtain ⟨n, v⟩ := m
    cases hf : fieldNamed? fields n with
    | none =>
      have hgiven : given fields ((Atom.text (some n), treeOf v) :: ms.map fun m => (Atom.text (some m.1), treeOf m.2)) =
          given fields (ms.map fun m => (Atom.text (some m.1), treeOf m.2)) := by
        simp [given, Scalar.name?, hf]
      rw [List.map_cons, List.map_cons, hgiven]
      exact ih.cons n
    | some f =>
      have hname : f.name = n := by
        have hn := List.find?_some hf
        simpa [hplain f (List.mem_of_find?_eq_some hf)] using hn
      have hgiven : given fields ((Atom.text (some n), treeOf v) :: ms.map fun m => (Atom.text (some m.1), treeOf m.2)) =
          (n, treeOf v) :: given fields (ms.map fun m => (Atom.text (some m.1), treeOf m.2)) := by
        simp [given, Scalar.name?, hf, hname]
      rw [List.map_cons, List.map_cons, hgiven, List.map_cons]
      exact ih.cons_cons n

/-- An object whose names differ spells a record of any fields. -/
theorem spells_memberTreesOf {ms : List (String × Value)} (h : (ms.map Prod.fst).Nodup) (hplain : ∀ f ∈ fields, f.aliases = []) :
    Spells fields (memberTreesOf ms) where
  named m hm := by
    rw [memberTreesOf_eq] at hm
    obtain ⟨m', -, rfl⟩ := List.mem_map.1 hm
    rfl
  distinct := h.sublist (given_sublist ms hplain)

end RecordsAux

open RecordsAux

variable {members : List (String × Option Value)}

/-- A record that is written is read by any fields, and each of them finds what was written for it. -/
theorem record?_written (fields : List Field) (h : (members.map Prod.fst).Nodup) (hplain : ∀ f ∈ fields, f.aliases = []) :
    ∃ found, (treeOf (.object (written members))).record? fields = some found ∧
      ∀ name ∈ fields.map Field.name, found.get? name = (valueFor? members name).map treeOf := by
  have hspells := spells_memberTreesOf (h.sublist (names_sublist members)) hplain
  refine ⟨_, record?_table.2 ⟨hspells, rfl⟩, fun name hname => ?_⟩
  refine Option.ext fun t => ?_
  rw [Found.get?_eq_some hspells.distinct.reverse, List.mem_reverse, mem_given hplain hname, memberTreesOf_eq,
    Option.map_eq_some_iff]
  constructor
  · rintro ⟨m, hm, hn, rfl⟩
    obtain ⟨⟨n, v⟩, hv, rfl⟩ := List.mem_map.1 hm
    obtain rfl : n = name := Option.some.inj hn
    exact ⟨v, (valueFor?_eq_some h).2 (mem_written.1 hv), rfl⟩
  · rintro ⟨v, hv, rfl⟩
    exact ⟨_, List.mem_map.2 ⟨(name, v), mem_written.2 ((valueFor?_eq_some h).1 hv), rfl⟩, rfl, rfl⟩

/-- The text of a record is read as its tree. -/
theorem read?_renderRecord (h : ∀ m ∈ members, ∀ v, m.2 = some v → Legible v) :
    read? (Bytes.ofText (renderRecord members)) = some (treeOf (.object (written members))) := by
  refine read?_render_object fun m hm => ?_
  exact h (m.1, some m.2) (mem_written.1 hm) m.2 rfl

/-! ## Members read from what was written -/

section

variable {found : Found Atom} {name : String} {β : Type} {read : Tree → Option β} {v : Value} {b default : β}

/-- A field that must be present is read as what was written for it. -/
theorem required?_written (hget : found.get? name = some (treeOf v)) (hread : read (treeOf v) = some b) :
    found.required? name read = some b := by
  unfold Found.required?
  rw [hget]
  exact hread

/-- A field with a default is read as what was written for it. -/
theorem getD_written (hget : found.get? name = some (treeOf v)) (hread : read (treeOf v) = some b) :
    found.getD name default read = some b := by
  unfold Found.getD
  rw [hget]
  exact hread

/-- A field that may be absent is read as what was written for it, or as absent. -/
theorem optional?_written {value : β → Value} {o : Option β} (hget : found.get? name = (o.map value).map treeOf)
    (hread : ∀ b, o = some b → (treeOf (value b)).optional? read = some (some b)) : found.optional? name read = some o := by
  unfold Found.optional? Found.getD
  rw [hget]
  cases o with
  | none => rfl
  | some b => exact hread b rfl

end

/-- A signed word is read back as it was written. -/
theorem i64?_ofInt {n : Int} (h : inI64 n) : (treeOf (.ofInt n)).i64? = some n := by
  unfold inI64 at h
  simp [treeOf, Value.ofInt, Tree.i64?, Tree.integer?, Scalar.integer?, Option.filter, h]

theorem optional?_ofInt {n : Int} (h : inI64 n) : (treeOf (.ofInt n)).optional? Tree.i64? = some (some n) := by
  show ((treeOf (.ofInt n)).i64?).map some = _
  rw [i64?_ofInt h]
  rfl

/-- An unsigned word is read back as it was written. -/
theorem natural?_ofNat {n : Nat} (h : n ≤ maxU64) : (treeOf (.ofNat n)).natural? maxU64 = some n := by
  have hn : ¬ (n : Int) < 0 := Int.not_lt.2 (Int.natCast_nonneg n)
  simp [treeOf, Value.ofNat, Tree.natural?, Scalar.natural?, Option.filter, hn, h]

end InferenceGate.Json
