import InferenceGate.Proofs.Text.Blanks

/-!
# Texts in lower case

Putting the letters of ASCII in lower case changes no blank and makes none, so a text is trimmed before or after it alike.
-/

namespace InferenceGate.Text

/-- A character of ASCII in lower case, by its number. -/
theorem toNat_toLower (c : Char) : c.toLower.toNat = if 65 ≤ c.toNat ∧ c.toNat ≤ 90 then c.toNat + 32 else c.toNat := by
  have hword : (c.val ≥ 'A'.val ∧ c.val ≤ 'Z'.val) ↔ (65 ≤ c.toNat ∧ c.toNat ≤ 90) := Iff.rfl
  unfold Char.toLower
  split
  · rename_i h
    rw [if_pos (hword.1 h)]
    have hadd : (c.val + ('a'.val - 'A'.val)).toNat = c.val.toNat + 32 := by
      rw [UInt32.toNat_add]
      have hc : c.val.toNat ≤ 90 := (hword.1 h).2
      have h32 : ('a'.val - 'A'.val).toNat = 32 := rfl
      omega
    exact hadd
  · rename_i h
    rw [if_neg fun h' => h (hword.2 h')]

/-- Only the letters `A` to `Z` change. -/
theorem toLower_of_not (c : Char) (h : ¬ (65 ≤ c.toNat ∧ c.toNat ≤ 90)) : c.toLower = c := by
  apply Char.toNat_inj.1
  rw [toNat_toLower, if_neg h]

theorem toLower_toLower (c : Char) : c.toLower.toLower = c.toLower := by
  apply toLower_of_not
  rw [toNat_toLower]
  split <;> omega

/-- A letter is not blank. -/
theorem isBlank_of_letter {c : Char} (hlow : 65 ≤ c.toNat) (hhigh : c.toNat ≤ 122) : isBlank c = false := by
  unfold isBlank
  simp
  omega

/-- A character is blank in lower case when it is blank. -/
theorem isBlank_toLower (c : Char) : isBlank c.toLower = isBlank c := by
  by_cases h : 65 ≤ c.toNat ∧ c.toNat ≤ 90
  · have hc : c.toLower.toNat = c.toNat + 32 := by rw [toNat_toLower, if_pos h]
    rw [isBlank_of_letter (by omega) (by omega), isBlank_of_letter (by omega) (by omega)]
  · rw [toLower_of_not c h]

/-- Stripping items that were mapped is mapping what is stripped by the same test. -/
theorem strip_map {α β : Type} (f : α → β) (p : β → Bool) (l : List α) : strip p (l.map f) = (strip (p ∘ f) l).map f := by
  unfold strip dropEnd
  rw [List.dropWhile_map, ← List.map_reverse, List.dropWhile_map, List.map_reverse]

/-- Trimming and lower case do not stand in each other's way. -/
theorem trim_lowerAscii (s : String) : trim (lowerAscii s) = lowerAscii (trim s) := by
  have hblank : isBlank ∘ Char.toLower = isBlank := funext isBlank_toLower
  unfold trim lowerAscii
  rw [String.toList_ofList, String.toList_ofList, strip_map, hblank]

theorem lowerAscii_lowerAscii (s : String) : lowerAscii (lowerAscii s) = lowerAscii s := by
  unfold lowerAscii
  rw [String.toList_ofList, List.map_map]
  exact congrArg String.ofList (List.map_congr_left fun c _ => toLower_toLower c)

/-- A text in lower case is empty when the text is. -/
theorem isEmpty_lowerAscii (s : String) : (lowerAscii s).isEmpty = s.isEmpty := by
  rw [Bool.eq_iff_iff, String.isEmpty_iff, String.isEmpty_iff]
  unfold lowerAscii
  rw [String.ofList_eq_empty_iff, List.map_eq_nil_iff, String.toList_eq_nil_iff]

end InferenceGate.Text
