import InferenceGate.Document.Tree

/-!
# Tables as records

A table spells a record when every member of it has a name that is a text and no field is given twice (`Spells`). Then the members that
give no field do not matter, and a field without other names is the member of the table under its name, wherever that stands
(`get?_eq_member?`).
-/

namespace InferenceGate.Document

variable {α β : Type} {found found' : Found α} {name : String} {t : Tree α}

/-! ## Fields that are found -/

/-- No field is found twice. -/
def Found.Distinct (found : Found α) : Prop := (found.map Prod.fst).Nodup

instance (found : Found α) : Decidable found.Distinct := inferInstanceAs (Decidable (found.map Prod.fst).Nodup)

namespace Found

/-- What is found under a name is the first that stands under it. -/
theorem get?_cons (n : String) (u : Tree α) (found : Found α) :
    get? ((n, u) :: found) name = if name = n then some u else found.get? name := by
  unfold get?
  rw [List.lookup_cons]
  by_cases h : name = n
  · simp [h]
  · simp [h, beq_false_of_ne h]

/-- Where no field is found twice, the tree of a field is the one found. -/
theorem get?_eq_some (h : found.Distinct) : found.get? name = some t ↔ (name, t) ∈ found := by
  induction found with
  | nil => exact ⟨nofun, nofun⟩
  | cons g found ih =>
    obtain ⟨n, u⟩ := g
    obtain ⟨hn, hd⟩ := List.nodup_cons.1 h
    rw [get?_cons, List.mem_cons]
    by_cases hname : name = n
    · subst hname
      have hnot : (name, t) ∉ found := fun hm => hn (List.mem_map.2 ⟨_, hm, rfl⟩)
      simp [hnot, eq_comm]
    · simp [hname, ih hd]

theorem Distinct.reverse (h : found.Distinct) : Distinct (List.reverse found) := by
  unfold Distinct at h ⊢
  rw [List.map_reverse]
  exact List.pairwise_reverse.2 (h.imp Ne.symm)

/-- Names that differ, with trees in their order. -/
theorem distinct_zip {names : List String} (h : names.Nodup) (items : List (Tree α)) : Distinct (names.zip items) := by
  induction names generalizing items with
  | nil => exact List.nodup_nil
  | cons n names ih =>
    obtain ⟨hn, hd⟩ := List.nodup_cons.1 h
    cases items with
    | nil => exact List.nodup_nil
    | cons t items =>
      refine List.nodup_cons.2 ⟨fun hm => ?_, ih hd items⟩
      obtain ⟨⟨n', u⟩, hg, rfl⟩ := List.mem_map.1 hm
      exact hn (List.of_mem_zip hg).1

/-- Where no field is found twice, what holds of the tree of every field holds of all trees found. -/
theorem forall_get? {names : List String} (hd : found.Distinct) (hnames : ∀ g ∈ found, g.1 ∈ names) (p : Tree α → Prop) :
    (∀ name ∈ names, ∀ t, found.get? name = some t → p t) ↔ ∀ g ∈ found, p g.2 := by
  constructor
  · intro h g hg
    exact h g.1 (hnames g hg) g.2 ((get?_eq_some hd).2 hg)
  · intro h name _ t ht
    exact h (name, t) ((get?_eq_some hd).1 ht)

end Found

variable [Scalar α] {fields : List Field} {ms : List (α × Tree α)}

/-- A field that may be absent or null can be read unless it is given and cannot. -/
theorem Found.isSome_optional? {read : Tree α → Option β} :
    (found.optional? name read).isSome ↔ ∀ t, found.get? name = some t → (t.optional? read).isSome := by
  unfold optional? getD
  cases found.get? name <;> simp

/-! ## What members give -/

/-- The members of a table that give a field, each under the first name of its field. -/
def given (fields : List Field) (ms : List (α × Tree α)) : Found α :=
  ms.filterMap fun m => (Scalar.name? m.1).bind fun name => (fieldNamed? fields name).map fun f => (f.name, m.2)

/-- A table spells a record: every member has a name that is a text, and no field is given twice. -/
structure Spells (fields : List Field) (ms : List (α × Tree α)) : Prop where
  named : ∀ m ∈ ms, (Scalar.name? m.1).isSome
  distinct : (given fields ms).Distinct

instance (fields : List Field) (ms : List (α × Tree α)) : Decidable (Spells fields ms) :=
  decidable_of_iff ((∀ m ∈ ms, (Scalar.name? m.1).isSome) ∧ (given fields ms).Distinct) ⟨fun h => ⟨h.1, h.2⟩, fun h => ⟨h.1, h.2⟩⟩

/-- The member of a table under a name, the first if there are several. -/
def Tree.member? (name : String) : Tree α → Option (Tree α)
  | .table ms => (ms.find? fun m => Scalar.name? m.1 == some name).map Prod.snd
  | _ => none

/-- What is given stands under the name of a field. -/
theorem fst_mem_of_mem_given {g : String × Tree α} (h : g ∈ given fields ms) : g.1 ∈ fields.map Field.name := by
  obtain ⟨m, -, hm⟩ := List.mem_filterMap.1 h
  obtain ⟨n, -, hn⟩ := Option.bind_eq_some_iff.1 hm
  obtain ⟨f, hf, rfl⟩ := Option.map_eq_some_iff.1 hn
  exact List.mem_map_of_mem (List.mem_of_find?_eq_some hf)

/-- Fields without other names are given by the members under their names. -/
theorem mem_given (hplain : ∀ f ∈ fields, f.aliases = []) (hname : name ∈ fields.map Field.name) :
    (name, t) ∈ given fields ms ↔ ∃ m ∈ ms, Scalar.name? m.1 = some name ∧ m.2 = t := by
  have hnamed : ∀ {n f}, fieldNamed? fields n = some f → f.name = n := by
    intro n f hf
    have hn := List.find?_some hf
    simpa [hplain f (List.mem_of_find?_eq_some hf)] using hn
  constructor
  · intro h
    obtain ⟨m, hm, hg⟩ := List.mem_filterMap.1 h
    obtain ⟨n, hn, hg⟩ := Option.bind_eq_some_iff.1 hg
    obtain ⟨f, hf, hg⟩ := Option.map_eq_some_iff.1 hg
    obtain ⟨rfl, ht⟩ := Prod.mk.inj hg
    exact ⟨m, hm, hn.trans (congrArg some (hnamed hf).symm), ht⟩
  · rintro ⟨m, hm, hn, rfl⟩
    obtain ⟨f, hf, hfn⟩ := List.mem_map.1 hname
    have hsome : (fieldNamed? fields name).isSome := List.find?_isSome.2 ⟨f, hf, by simp [hfn]⟩
    obtain ⟨f', hf'⟩ := Option.isSome_iff_exists.1 hsome
    refine List.mem_filterMap.2 ⟨m, hm, ?_⟩
    rw [hn, Option.bind_some, hf', Option.map_some, hnamed hf']

/-- What a table gives on top of what has been found. -/
theorem fromMembers_eq_some : fromMembers fields ms found = some found' ↔
    (∀ m ∈ ms, (Scalar.name? m.1).isSome) ∧ (given fields ms).Distinct ∧
      (∀ g ∈ given fields ms, found.get? g.1 = none) ∧ found' = (given fields ms).reverse ++ found := by
  induction ms generalizing found with
  | nil => exact ⟨fun h => ⟨nofun, List.nodup_nil, nofun, (Option.some.inj h).symm⟩, fun h => congrArg some h.2.2.2.symm⟩
  | cons m ms ih =>
    obtain ⟨key, u⟩ := m
    unfold fromMembers
    cases hkey : Scalar.name? key with
    | none => simp [hkey]
    | some n =>
      dsimp only
      cases hf : fieldNamed? fields n with
      | none =>
        have hgiven : given fields ((key, u) :: ms) = given fields ms := by simp [given, hkey, hf]
        rw [hgiven, ih]
        simp [hkey]
      | some f =>
        have hgiven : given fields ((key, u) :: ms) = (f.name, u) :: given fields ms := by simp [given, hkey, hf]
        have hdistinct : Found.Distinct ((f.name, u) :: given fields ms) ↔
            (∀ g ∈ given fields ms, g.1 ≠ f.name) ∧ (given fields ms).Distinct := by
          unfold Found.Distinct
          rw [List.map_cons, List.nodup_cons]
          simp only [List.mem_map, not_exists, not_and]
        have hfree : ∀ n, Found.get? ((f.name, u) :: found) n = none ↔ n ≠ f.name ∧ found.get? n = none := by
          intro n
          rw [Found.get?_cons]
          by_cases hn : n = f.name <;> simp [hn]
        rw [hgiven, hdistinct]
        dsimp only
        by_cases htaken : (found.get? f.name).isSome = true
        · rw [if_pos htaken]
          refine ⟨nofun, fun ⟨_, _, hnone, _⟩ => ?_⟩
          rw [hnone _ List.mem_cons_self] at htaken
          nomatch htaken
        · have hnone : found.get? f.name = none := by simpa using htaken
          rw [if_neg htaken, ih]
          simp only [hfree, List.forall_mem_cons, hkey, hnone, List.reverse_cons, List.append_assoc, List.singleton_append,
            Option.isSome_some, true_and]
          constructor
          · rintro ⟨hnamed, hd, hothers, rfl⟩
            exact ⟨hnamed, ⟨fun g hg => (hothers g hg).1, hd⟩, fun g hg => (hothers g hg).2, rfl⟩
          · rintro ⟨hnamed, ⟨hne, hd⟩, hothers, rfl⟩
            exact ⟨hnamed, hd, fun g hg => ⟨hne g hg, hothers g hg⟩, rfl⟩

/-- A table is read as a record if it spells one. -/
theorem record?_table : (Tree.table ms).record? fields = some found ↔ Spells fields ms ∧ found = (given fields ms).reverse := by
  unfold Tree.record?
  rw [fromMembers_eq_some]
  constructor
  · rintro ⟨hnamed, hdistinct, -, rfl⟩
    exact ⟨⟨hnamed, hdistinct⟩, List.append_nil _⟩
  · rintro ⟨⟨hnamed, hdistinct⟩, rfl⟩
    exact ⟨hnamed, hdistinct, fun _ _ => rfl, (List.append_nil _).symm⟩

/-- A list that gives the fields in order may be shorter than they are. -/
theorem record?_list (h : Scalar.listForm α = .whole) (items : List (Tree α)) :
    (Tree.list items).record? fields =
      if fields.length < items.length then none else some ((fields.map Field.name).zip items) := by
  unfold Tree.record?
  rw [h]

/-- What is read of a table for a field is its first member that gives the field. -/
theorem get?_eq_find? {p : α × Tree α → Bool} (h : Spells fields ms)
    (hgiven : ∀ t, (name, t) ∈ given fields ms ↔ ∃ m ∈ ms, p m = true ∧ m.2 = t) :
    Found.get? (given fields ms).reverse name = (ms.find? p).map Prod.snd := by
  have hget : ∀ t, Found.get? (given fields ms).reverse name = some t ↔ ∃ m ∈ ms, p m = true ∧ m.2 = t := by
    intro t
    rw [Found.get?_eq_some h.distinct.reverse, List.mem_reverse, hgiven]
  cases hfind : ms.find? p with
  | none =>
    rw [Option.map_none, Option.eq_none_iff_forall_ne_some]
    intro t ht
    obtain ⟨m, hm, hp, -⟩ := (hget t).1 ht
    exact List.find?_eq_none.1 hfind m hm hp
  | some m => exact (hget m.2).2 ⟨m, List.mem_of_find?_eq_some hfind, List.find?_some hfind, rfl⟩

/-- A field without other names is the member under its name. -/
theorem get?_eq_member? (h : Spells fields ms) (hplain : ∀ f ∈ fields, f.aliases = []) (hname : name ∈ fields.map Field.name) :
    Found.get? (given fields ms).reverse name = (Tree.table ms).member? name := by
  refine get?_eq_find? h fun t => ?_
  simp only [mem_given hplain hname, beq_iff_eq]

end InferenceGate.Document
