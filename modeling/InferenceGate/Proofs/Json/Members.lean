import InferenceGate.Json.Value

/-!
# Members by name

What putting a member in and taking one out do to the value under each name.
-/

namespace InferenceGate.Json.Members

/-- The value under a name is that of the first member of the name. -/
theorem get?_cons (name n : String) (v : Value) (ms : Members) :
    get? ((n, v) :: ms) name = if name = n then some v else get? ms name := by
  unfold get?
  rw [List.lookup_cons]
  by_cases h : name = n
  · simp [h]
  · simp [h, beq_false_of_ne h]

/-- A member put in is found under its name, and all others as before. -/
theorem get?_insert (ms : Members) (name : String) (value : Value) (k : String) :
    (ms.insert name value).get? k = if k = name then some value else ms.get? k := by
  induction ms with
  | nil => exact get?_cons k name value []
  | cons m ms ih =>
    obtain ⟨n, v⟩ := m
    unfold insert
    split
    · rename_i hn
      subst hn
      rw [get?_cons, get?_cons]
      split <;> rfl
    · rename_i hn
      split
      · rw [get?_cons]
      · rw [get?_cons, ih, get?_cons]
        by_cases hk : k = n
        · rw [if_pos hk, if_pos hk, if_neg]
          rintro rfl
          exact hn hk
        · rw [if_neg hk, if_neg hk]

/-- A name under which there is a value is one of the names. -/
theorem mem_names_of_get? {ms : Members} {name : String} {v : Value} (h : ms.get? name = some v) : name ∈ ms.map Prod.fst := by
  induction ms with
  | nil => nomatch h
  | cons m ms ih =>
    obtain ⟨n, w⟩ := m
    rw [get?_cons] at h
    rw [List.map_cons, List.mem_cons]
    split at h
    · rename_i hn
      exact .inl hn
    · exact .inr (ih h)

/-- Of two values put in under one name the later stays, in the place of the first. -/
theorem insert_insert (ms : Members) (name : String) (value value' : Value) :
    (ms.insert name value).insert name value' = ms.insert name value' := by
  induction ms with
  | nil => simp [insert]
  | cons m ms ih =>
    obtain ⟨n, v⟩ := m
    by_cases hn : name = n
    · simp [insert, hn]
    · by_cases hlt : name < n
      · simp [insert, hn, hlt]
      · simp [insert, hn, hlt, ih]

/-- A value put in under a name that is there leaves the names as they are. -/
theorem names_insert {ms : Members} {name : String} (h : (ms.map Prod.fst).Pairwise (· < ·)) (hm : name ∈ ms.map Prod.fst)
    (value : Value) : (ms.insert name value).map Prod.fst = ms.map Prod.fst := by
  induction ms with
  | nil => simp at hm
  | cons m ms ih =>
    obtain ⟨n, v⟩ := m
    rw [List.map_cons, List.pairwise_cons] at h
    rw [List.map_cons, List.mem_cons] at hm
    by_cases hn : name = n
    · simp [insert, hn]
    · have hmem : name ∈ ms.map Prod.fst := hm.resolve_left hn
      have hlt : ¬ name < n := String.lt_asymm (h.1 name hmem)
      simp [insert, hn, hlt, ih h.2 hmem]

/-- A member taken out is no longer found, and all others are as before. -/
theorem get?_erase (ms : Members) (name k : String) : (ms.erase name).get? k = if k = name then none else ms.get? k := by
  induction ms with
  | nil => simp [erase, get?]
  | cons m ms ih =>
    obtain ⟨n, v⟩ := m
    unfold erase at ih ⊢
    rw [List.filter_cons]
    by_cases hn : n = name
    · subst hn
      rw [if_neg (by simp), ih, get?_cons]
      split <;> rfl
    · rw [if_pos (by simpa using hn), get?_cons, ih, get?_cons]
      by_cases hk : k = n
      · rw [if_pos hk, if_neg, if_pos hk]
        rintro rfl
        exact hn hk.symm
      · rw [if_neg hk, if_neg hk]

end InferenceGate.Json.Members
