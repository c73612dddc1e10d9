import InferenceGate.Http.Fields
import InferenceGate.Proofs.Text.Ascii

/-!
# The values of a name

What each change of header fields leaves of the values of a name. A list of fields is read through these values alone, so two
lists with the same values of every name are the same to whoever gets them. A value is read as text when all its bytes are printable.
-/

namespace InferenceGate.Http

/-! ## Values that are text -/

/-- A byte of printable ASCII, or a tab. -/
def IsPrintable (b : UInt8) : Prop := (0x20 ≤ b ∧ b < 0x7f) ∨ b = 0x09

/-- A text of printable ASCII and tabs. -/
def PrintableText (s : String) : Prop := ∀ b ∈ Bytes.ofText s, IsPrintable b

instance (b : UInt8) : Decidable (IsPrintable b) := inferInstanceAs (Decidable ((0x20 ≤ b ∧ b < 0x7f) ∨ b = 0x09))

instance (s : String) : Decidable (PrintableText s) := List.decidableBAll IsPrintable (Bytes.ofText s)

theorem IsPrintable.lt {b : UInt8} (h : IsPrintable b) : b.toNat < 128 := by
  rcases h with ⟨-, h⟩ | rfl
  · have : b.toNat < 127 := h
    omega
  · decide

/-- A printable text is read. -/
theorem printable?_ofText {s : String} (h : PrintableText s) : printable? (Bytes.ofText s) = some s := by
  have hall : (Bytes.ofText s).all (fun b => (0x20 ≤ b && b < 0x7f) || b == 0x09) = true := by
    rw [List.all_eq_true]
    intro b hb
    simpa [IsPrintable] using h b hb
  unfold printable?
  rw [if_pos hall, Bytes.text?_ofText]

/-- A value with another byte in it is no text. -/
theorem printable?_eq_none {value : Bytes} (h : ∃ b ∈ value, ¬ IsPrintable b) : printable? value = none := by
  obtain ⟨b, hb, hnot⟩ := h
  unfold printable?
  rw [if_neg]
  intro hall
  exact hnot (by simpa [IsPrintable] using List.all_eq_true.1 hall b hb)

/-- A value has another byte in it or is a printable text. -/
theorem exists_printableText (value : Bytes) :
    (∃ b ∈ value, ¬ IsPrintable b) ∨ ∃ s, PrintableText s ∧ value = Bytes.ofText s := by
  by_cases h : ∃ b ∈ value, ¬ IsPrintable b
  · exact .inl h
  · have hall : ∀ b ∈ value, IsPrintable b := by
      intro b hb
      refine Classical.byContradiction fun hnot => ?_
      exact h ⟨b, hb, hnot⟩
    obtain ⟨s, -, rfl⟩ := Bytes.exists_ofText fun b hb => (hall b hb).lt
    exact .inr ⟨s, hall, rfl⟩

/-- What a value says as text is printable, and the value is its spelling. -/
theorem printable?_eq_some {value : Bytes} {s : String} : printable? value = some s ↔ PrintableText s ∧ value = Bytes.ofText s := by
  rcases exists_printableText value with hnot | ⟨t, ht, rfl⟩
  · rw [printable?_eq_none hnot]
    refine ⟨nofun, ?_⟩
    rintro ⟨hs, rfl⟩
    obtain ⟨b, hb, hbad⟩ := hnot
    exact absurd (hs b hb) hbad
  · rw [printable?_ofText ht]
    constructor
    · intro h
      obtain rfl := Option.some.inj h
      exact ⟨ht, rfl⟩
    · rintro ⟨hs, hbytes⟩
      rw [← printable?_ofText ht, hbytes, printable?_ofText hs]

/-! ## Values of a name -/

namespace Fields

variable (fs more : Fields) (name k : String) (value : Bytes)

theorem getAll_nil : getAll [] k = [] := rfl

theorem getAll_cons (f : String × Bytes) : getAll (f :: fs) k = if f.1 = k then f.2 :: fs.getAll k else fs.getAll k := by
  unfold getAll
  by_cases h : f.1 = k <;> simp [h]

/-- The value that is found first is the first of all. -/
theorem get?_eq_head? : fs.get? k = (fs.getAll k).head? := by
  induction fs with
  | nil => rfl
  | cons f fs ih =>
    obtain ⟨n, v⟩ := f
    rw [getAll_cons]
    unfold get? at ih ⊢
    rw [List.lookup_cons, ih]
    by_cases h : k = n
    · simp [h]
    · simp [beq_false_of_ne h, Ne.symm h]

/-- A name occurs when it has a value. -/
theorem contains_iff : fs.contains k = true ↔ fs.getAll k ≠ [] := by
  unfold contains getAll
  rw [Ne, List.map_eq_nil_iff, List.filter_eq_nil_iff]
  simp

/-- The values of a name among more fields stand behind those among the first. -/
theorem getAll_concat : (fs ++ more).getAll k = fs.getAll k ++ more.getAll k := by
  unfold getAll
  rw [List.filter_append, List.map_append]

/-- A selection by names leaves all values of a name or none. -/
theorem getAll_filter (p : String → Bool) : getAll (fs.filter fun f => p f.1) k = if p k then fs.getAll k else [] := by
  induction fs with
  | nil => simp [getAll_nil]
  | cons f fs ih =>
    rw [List.filter_cons]
    by_cases hp : p f.1 <;> by_cases hk : f.1 = k
    · subst hk
      simp [hp, getAll_cons, ih]
    · simp [hp, getAll_cons, hk, ih]
    · subst hk
      simp [hp, ih]
    · simp [hp, getAll_cons, hk, ih]

/-- A name that is taken out has no values, any other those it had. -/
theorem getAll_erase : (fs.erase name).getAll k = if k = name then [] else fs.getAll k := by
  unfold erase
  rw [getAll_filter fs k fun n => n != name]
  by_cases h : k = name <;> simp [h]

/-- Names that are taken out have no values, all others those they had. -/
theorem getAll_eraseAll (names : List String) : (fs.eraseAll names).getAll k = if k ∈ names then [] else fs.getAll k := by
  unfold eraseAll
  rw [getAll_filter fs k fun n => !names.contains n]
  by_cases h : k ∈ names <;> simp [h]

/-- A value that is put in takes the place of all values of its name, and of none else. -/
theorem getAll_insert : (fs.insert name value).getAll k = if k = name then [value] else fs.getAll k := by
  unfold insert append
  rw [getAll_concat, getAll_erase, getAll_cons, getAll_nil]
  by_cases h : k = name
  · subst h
    simp
  · have h' : name ≠ k := fun e => h e.symm
    simp [h, h']

/-- Of several values put in for one name the last stays. -/
theorem getAll_insertAll :
    (fs.insertAll more).getAll k = match (more.getAll k).getLast? with | some v => [v] | none => fs.getAll k := by
  induction more generalizing fs with
  | nil => rfl
  | cons f more ih =>
    show ((fs.insert f.1 f.2).insertAll more).getAll k = _
    rw [ih, getAll_insert, getAll_cons]
    by_cases h : f.1 = k
    · rw [if_pos h, if_pos h.symm, List.getLast?_cons]
      cases (getAll more k).getLast? <;> rfl
    · rw [if_neg h, if_neg fun e => h e.symm]

end Fields

end InferenceGate.Http
