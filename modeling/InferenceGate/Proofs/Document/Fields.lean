import InferenceGate.Proofs.Document.Records

/-!
# Fields under several names

A record may know a field under several names. Where no name belongs to two fields, what a record reads for a field is the one member of a
table that has a name of it, or the item of a list that stands in its place (`get?_record?`).
-/

namespace InferenceGate.Document

variable {α : Type} [Scalar α] {fields : List Field} {f f' : Field} {ms : List (α × Tree α)} {found : Found α}

/-- All names of a field. -/
def Field.names (f : Field) : List String := f.name :: f.aliases

/-- No name belongs to two fields. -/
def NamesApart (fields : List Field) : Prop := fields.Pairwise fun f g => ∀ n ∈ f.names, n ∉ g.names

instance (fields : List Field) : Decidable (NamesApart fields) :=
  inferInstanceAs (Decidable (fields.Pairwise fun f g => ∀ n ∈ f.names, n ∉ g.names))

/-- What a tree gives a field with some names that has a place among the fields of its record: the first member of a table under one of
the names, or the item of a list in that place. -/
def Tree.field? (place : Nat) (names : List String) : Tree α → Option (Tree α)
  | .leaf _ => none
  | .list items => items[place]?
  | .table ms => (ms.find? fun m => (Scalar.name? m.1).any names.contains).map Prod.snd

/-- A name belongs to one field. -/
theorem NamesApart.eq_of_mem {n : String} (h : NamesApart fields) (hf : f ∈ fields) (hf' : f' ∈ fields) (hn : n ∈ f.names)
    (hn' : n ∈ f'.names) : f = f' := by
  induction fields with
  | nil => nomatch hf
  | cons g fields ih =>
    obtain ⟨hg, hrest⟩ := List.pairwise_cons.1 h
    rcases List.mem_cons.1 hf with rfl | hmem <;> rcases List.mem_cons.1 hf' with rfl | hmem'
    · rfl
    · exact absurd hn' (hg f' hmem' n hn)
    · exact absurd hn (hg f hmem n hn')
    · exact ih hrest hmem hmem'

/-- A name is looked for among the names of each field. -/
theorem fieldNamed?_eq (fields : List Field) (n : String) : fieldNamed? fields n = fields.find? fun f => f.names.contains n := by
  unfold fieldNamed? Field.names
  refine congrArg (List.find? · fields) (funext fun f => ?_)
  rw [List.contains_cons, Bool.beq_comm]

/-- The field of a name is one of the fields, and the name is one of its names. -/
theorem mem_names_of_fieldNamed? {n : String} (h : fieldNamed? fields n = some f) : f ∈ fields ∧ n ∈ f.names := by
  rw [fieldNamed?_eq] at h
  have hcontains := List.find?_some h
  exact ⟨List.mem_of_find?_eq_some h, List.contains_iff_mem.1 hcontains⟩

/-- A name belongs to the one field that has it. -/
theorem fieldNamed?_of_mem {n : String} (h : NamesApart fields) (hf : f ∈ fields) (hn : n ∈ f.names) : fieldNamed? fields n = some f := by
  have hsome : (fieldNamed? fields n).isSome := by
    rw [fieldNamed?_eq]
    exact List.find?_isSome.2 ⟨f, hf, List.contains_iff_mem.2 hn⟩
  obtain ⟨f', hf'⟩ := Option.isSome_iff_exists.1 hsome
  obtain ⟨hmem, hn'⟩ := mem_names_of_fieldNamed? hf'
  rw [hf', h.eq_of_mem hf hmem hn hn']

/-- A field is given by the members of a table under its names. -/
theorem mem_given_of_names {t : Tree α} (h : NamesApart fields) (hf : f ∈ fields) :
    (f.name, t) ∈ given fields ms ↔ ∃ m ∈ ms, (Scalar.name? m.1).any f.names.contains = true ∧ m.2 = t := by
  constructor
  · intro hg
    obtain ⟨m, hm, hg⟩ := List.mem_filterMap.1 hg
    obtain ⟨n, hn, hg⟩ := Option.bind_eq_some_iff.1 hg
    obtain ⟨f', hf', hg⟩ := Option.map_eq_some_iff.1 hg
    obtain ⟨hname, ht⟩ := Prod.mk.inj hg
    obtain ⟨hmem, hn'⟩ := mem_names_of_fieldNamed? hf'
    have hfirst : f.name ∈ f'.names := hname ▸ List.mem_cons_self
    obtain rfl := h.eq_of_mem hf hmem List.mem_cons_self hfirst
    exact ⟨m, hm, by simpa [hn] using hn', ht⟩
  · rintro ⟨m, hm, hany, rfl⟩
    obtain ⟨n, hn, hcontains⟩ := (Option.any_eq_true _ _).1 hany
    refine List.mem_filterMap.2 ⟨m, hm, ?_⟩
    rw [hn, Option.bind_some, fieldNamed?_of_mem h hf (List.contains_iff_mem.1 hcontains), Option.map_some]

/-- What is read of a table for a field is its member under a name of the field. -/
theorem get?_given (hs : Spells fields ms) (h : NamesApart fields) (hf : f ∈ fields) (place : Nat) :
    Found.get? (given fields ms).reverse f.name = (Tree.table ms).field? place f.names :=
  get?_eq_find? hs fun _ => mem_given_of_names h hf

omit [Scalar α] in
/-- What is read of a list for a field is the item in its place. -/
theorem get?_zip {items : List (Tree α)} {place : Nat} (h : NamesApart fields) (hf : fields[place]? = some f) :
    Found.get? ((fields.map Field.name).zip items) f.name = items[place]? := by
  induction fields generalizing items place with
  | nil => simp at hf
  | cons g fields ih =>
    obtain ⟨hg, hrest⟩ := List.pairwise_cons.1 h
    cases items with
    | nil => rfl
    | cons t items =>
      rw [List.map_cons, List.zip_cons_cons, Found.get?_cons]
      cases place with
      | zero =>
        obtain rfl : g = f := by simpa using hf
        simp
      | succ place =>
        have hf : fields[place]? = some f := by simpa using hf
        have hne : f.name ≠ g.name := fun he =>
          hg f (List.mem_of_getElem? hf) g.name List.mem_cons_self (he ▸ List.mem_cons_self)
        rw [if_neg hne, ih hrest hf, List.getElem?_cons_succ]

/-- What a record reads for a field is what its tree gives the field. -/
theorem get?_record? {t : Tree α} (place : Nat) (hlist : Scalar.listForm α = .whole) (h : NamesApart fields)
    (hf : fields[place]? = some f) (hr : t.record? fields = some found) : found.get? f.name = t.field? place f.names := by
  cases t with
  | leaf a =>
    have hleaf : (if Scalar.isEmptyRecord a then some [] else none) = some found := hr
    split at hleaf
    · obtain rfl := Option.some.inj hleaf
      rfl
    · nomatch hleaf
  | list items =>
    rw [record?_list hlist] at hr
    split at hr
    · nomatch hr
    · obtain rfl := Option.some.inj hr
      exact get?_zip h hf
  | table ms =>
    obtain ⟨hs, rfl⟩ := record?_table.1 hr
    exact get?_given hs h (List.mem_of_getElem? hf) place

end InferenceGate.Document
