import InferenceGate.Text.Blank

/-!
# What trimming leaves

Trimming takes away the blanks at the two ends and nothing else: what it leaves is nothing, or has no blank at either end
(`Firm`), and the whole is what it leaves between blanks. So trimming what was trimmed changes nothing.
-/

namespace InferenceGate.Text

variable {α : Type} {p : α → Bool} {l before mid after : List α}

/-- A list that neither begins nor ends with an element that satisfies a test. -/
structure Firm (p : α → Bool) (l : List α) : Prop where
  first : ∃ x, l.head? = some x ∧ p x = false
  last : ∃ x, l.getLast? = some x ∧ p x = false

theorem Firm.ne_nil (h : Firm p l) : l ≠ [] := by
  obtain ⟨x, hx, -⟩ := h.first
  rintro rfl
  exact nomatch hx

/-- What begins and ends firmly is firm, whatever stands between. -/
theorem Firm.append_append (hb : Firm p before) (mid : List α) (ha : Firm p after) : Firm p (before ++ mid ++ after) := by
  obtain ⟨x, hx, hpx⟩ := hb.first
  obtain ⟨y, hy, hpy⟩ := ha.last
  refine ⟨⟨x, ?_, hpx⟩, ⟨y, ?_, hpy⟩⟩
  · simp [List.head?_append, hx]
  · simp [List.getLast?_append, hy]

/-- A list of no blanks is firm, if it is not empty. -/
theorem firm_of_forall (hne : l ≠ []) (h : ∀ x ∈ l, p x = false) : Firm p l :=
  ⟨⟨_, List.head?_eq_some_head hne, h _ (List.head_mem hne)⟩, ⟨_, List.getLast?_eq_some_getLast hne, h _ (List.getLast_mem hne)⟩⟩

/-- Nothing is dropped before an item that stays. -/
theorem dropWhile_of_head? {x : α} (h : l.head? = some x) (hx : p x = false) (rest : List α) :
    (l ++ rest).dropWhile p = l ++ rest := by
  cases l with
  | nil => exact nomatch h
  | cons y l =>
    obtain rfl := Option.some.inj h
    exact List.dropWhile_cons_of_neg (by simp [hx])

/-- What stands between two runs of blanks is what stripping leaves. -/
theorem strip_append (hb : ∀ x ∈ before, p x = true) (hm : Firm p mid) (ha : ∀ x ∈ after, p x = true) :
    strip p (before ++ mid ++ after) = mid := by
  obtain ⟨x, hx, hpx⟩ := hm.first
  obtain ⟨y, hy, hpy⟩ := hm.last
  have hy' : mid.reverse.head? = some y := by rw [List.head?_reverse, hy]
  unfold strip dropEnd
  rw [List.append_assoc, List.dropWhile_append_of_pos hb, dropWhile_of_head? hx hpx, List.reverse_append,
    List.dropWhile_append_of_pos fun z hz => ha z (List.mem_reverse.1 hz)]
  have hkeep := dropWhile_of_head? hy' hpy []
  rw [List.append_nil] at hkeep
  rw [hkeep, List.reverse_reverse]

/-- What goes in front of a firm list is stripped. -/
theorem strip_append_left (hb : ∀ x ∈ before, p x = true) (hm : Firm p mid) : strip p (before ++ mid) = mid := by
  have h := strip_append hb hm (fun x hx => nomatch (hx : x ∈ []))
  rwa [List.append_nil] at h

/-- What goes behind a firm list is stripped. -/
theorem strip_append_right (hm : Firm p mid) (ha : ∀ x ∈ after, p x = true) : strip p (mid ++ after) = mid :=
  strip_append (fun x hx => nomatch (hx : x ∈ [])) hm ha

theorem strip_of_firm (h : Firm p l) : strip p l = l := strip_append_left (fun x hx => nomatch (hx : x ∈ [])) h

theorem strip_of_all (h : ∀ x ∈ l, p x = true) : strip p l = [] := by
  unfold strip
  rw [← List.append_nil l, List.dropWhile_append_of_pos h]
  rfl

/-- An item that stays keeps what is before it from being dropped at the end. -/
theorem dropEnd_cons_of_neg {x : α} (h : p x = false) (l : List α) : dropEnd p (x :: l) = x :: dropEnd p l := by
  unfold dropEnd
  rw [List.reverse_cons, List.dropWhile_append]
  cases l.reverse.dropWhile p <;> simp [h]

/-- A first element that is not blank stays. -/
theorem strip_cons_of_neg {x : α} (h : p x = false) (l : List α) : strip p (x :: l) = x :: dropEnd p l := by
  unfold strip
  rw [List.dropWhile_cons_of_neg (by simp [h]), dropEnd_cons_of_neg h]

/-- Blanks at the end go. -/
theorem dropEnd_append_of_all (l : List α) (h : ∀ x ∈ after, p x = true) : dropEnd p (l ++ after) = dropEnd p l := by
  have hrev : ∀ x ∈ after.reverse, p x = true := by
    intro x hx
    exact h x (List.mem_reverse.1 hx)
  unfold dropEnd
  rw [List.reverse_append, List.dropWhile_append_of_pos hrev]

/-- A last element that is not blank stays, and all before it. -/
theorem dropEnd_of_getLast? (h : ∀ x, l.getLast? = some x → p x = false) : dropEnd p l = l := by
  rcases List.eq_nil_or_concat l with rfl | ⟨front, x, rfl⟩
  · rfl
  · have hx : p x = false := h x (by simp)
    simp [dropEnd, hx]

/-- What is left begins with an item that stays. -/
theorem head?_dropWhile {x : α} (h : (l.dropWhile p).head? = some x) : p x = false := by
  have hnot := List.head?_dropWhile_not p l
  rwa [h] at hnot

theorem dropEnd_prefix (p : α → Bool) (l : List α) : dropEnd p l <+: l := by
  unfold dropEnd
  rw [← List.reverse_suffix, List.reverse_reverse]
  exact List.dropWhile_suffix p

/-- What stripping leaves is nothing or firm. -/
theorem strip_eq_nil_or_firm (p : α → Bool) (l : List α) : strip p l = [] ∨ Firm p (strip p l) := by
  cases hs : strip p l with
  | nil => exact .inl rfl
  | cons x rest =>
    refine .inr ⟨⟨x, rfl, ?_⟩, ?_⟩
    · have hpre : strip p l <+: l.dropWhile p := dropEnd_prefix p _
      obtain ⟨more, hmore⟩ := hs ▸ hpre
      exact head?_dropWhile (l := l) (by rw [← hmore]; rfl)
    · have hlast : (strip p l).getLast? = ((l.dropWhile p).reverse.dropWhile p).head? := List.getLast?_reverse
      rw [hs] at hlast
      obtain ⟨y, hy⟩ := Option.isSome_iff_exists.1 (show (x :: rest).getLast?.isSome by simp)
      exact ⟨y, hy, head?_dropWhile (hlast ▸ hy)⟩

/-- A list is what stripping leaves between two runs of blanks. -/
theorem exists_strip (p : α → Bool) (l : List α) :
    ∃ before after, (∀ x ∈ before, p x = true) ∧ (∀ x ∈ after, p x = true) ∧ l = before ++ strip p l ++ after := by
  have hafter : ∀ x ∈ ((l.dropWhile p).reverse.takeWhile p).reverse, p x = true := by
    intro x hx
    exact List.all_eq_true.1 List.all_takeWhile x (List.mem_reverse.1 hx)
  refine ⟨l.takeWhile p, ((l.dropWhile p).reverse.takeWhile p).reverse, List.all_eq_true.1 List.all_takeWhile, hafter, ?_⟩
  unfold strip dropEnd
  rw [List.append_assoc, ← List.reverse_append, List.takeWhile_append_dropWhile, List.reverse_reverse,
    List.takeWhile_append_dropWhile]

/-- Stripping leaves nothing of blanks alone, and of them only. -/
theorem strip_eq_nil_iff : strip p l = [] ↔ ∀ x ∈ l, p x = true := by
  constructor
  · intro h
    obtain ⟨before, after, hb, ha, hl⟩ := exists_strip p l
    rw [h, List.append_nil] at hl
    intro x hx
    rcases List.mem_append.1 (hl ▸ hx) with hx | hx
    · exact hb x hx
    · exact ha x hx
  · exact strip_of_all

/-- Stripping twice is stripping once. -/
theorem strip_strip (p : α → Bool) (l : List α) : strip p (strip p l) = strip p l := by
  rcases strip_eq_nil_or_firm p l with h | h
  · rw [h]
    rfl
  · exact strip_of_firm h

/-- A text is trimmed to what stands firmly between its blanks. -/
theorem trim_of_toList {s : String} {before mid after : List Char} (hs : s.toList = before ++ mid ++ after)
    (hb : ∀ c ∈ before, isBlank c = true) (hm : Firm isBlank mid) (ha : ∀ c ∈ after, isBlank c = true) :
    trim s = String.ofList mid := by
  unfold trim
  rw [hs, strip_append hb hm ha]

theorem trim_trim (s : String) : trim (trim s) = trim s := by
  unfold trim
  rw [String.toList_ofList, strip_strip]

/-- A text is blank when nothing is left of it once it is trimmed. -/
theorem isEmpty_trim (s : String) : (trim s).isEmpty = isBlankText s := by
  rw [Bool.eq_iff_iff, String.isEmpty_iff]
  unfold trim isBlankText
  rw [String.ofList_eq_empty_iff, strip_eq_nil_iff, List.all_eq_true]

/-- A text trimmed to some words is those words when it is trimmed again. -/
theorem trimmed?_of_trimmed? {s t : String} (h : trimmed? s = some t) : trimmed? t = some t := by
  unfold trimmed? at h ⊢
  dsimp only at h ⊢
  split at h
  · exact nomatch h
  · rename_i hne
    obtain rfl := Option.some.inj h
    rw [trim_trim, if_neg hne]

end InferenceGate.Text
