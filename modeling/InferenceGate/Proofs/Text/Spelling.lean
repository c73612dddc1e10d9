import InferenceGate.Text.Lossy

/-!
# Texts and their spellings

A text has one spelling and a spelling one text. A lossy reading that holds no replacement character has replaced nothing, so its bytes
are the spelling of what was read.
-/

namespace InferenceGate.Bytes

/-- A text is read back from its bytes. -/
@[simp]
theorem text?_ofText (s : String) : text? (ofText s) = some s := by
  unfold text? ofText String.fromUTF8?
  rw [Array.toArray_toList]
  exact dif_pos s.isValidUTF8

/-- Bytes that are a text are the bytes of that text. -/
theorem ofText_of_text? {bs : Bytes} {s : String} (h : text? bs = some s) : ofText s = bs := by
  unfold text? String.fromUTF8? at h
  split at h
  · obtain rfl := Option.some.inj h
    rfl
  · exact nomatch h

theorem ofText_append (s t : String) : ofText (s ++ t) = ofText s ++ ofText t := by
  unfold ofText String.toUTF8
  rw [String.toByteArray_append, ByteArray.toList_data_append]

theorem ofText_ofList (cs : List Char) : ofText (String.ofList cs) = cs.flatMap String.utf8EncodeChar := by
  unfold ofText String.toUTF8
  rw [String.toByteArray_ofList]
  exact List.toList_data_toByteArray

/-! ## Lossy readings -/

/-- The replacement character. -/
def replacement : Char := '\ufffd'

/-- A piece that is read without the replacement character is read as what it spells. -/
theorem ofText_pieceText {bs : Bytes} (h : replacement ∉ (pieceText bs).toList) : ofText (pieceText bs) = bs := by
  unfold pieceText at h ⊢
  cases ht : text? bs with
  | some s => exact ofText_of_text? ht
  | none =>
    rw [ht] at h
    exact absurd (by decide) h

/-- A first piece read so, before a rest read so. -/
theorem ofText_join_cons {piece bs : Bytes} {texts : List String}
    (ih : replacement ∉ (String.join texts).toList → ofText (String.join texts) = bs)
    (h : replacement ∉ (String.join (pieceText piece :: texts)).toList) :
    ofText (String.join (pieceText piece :: texts)) = piece ++ bs := by
  rw [String.join_cons, String.toList_append, List.mem_append, not_or] at h
  rw [String.join_cons, ofText_append, ofText_pieceText h.1, ih h.2]

/-- Pieces read without a replacement are spelled by the bytes that they were read from. -/
theorem ofText_lossyPieces (fuel : Nat) (bs : Bytes) (hf : bs.length ≤ fuel)
    (h : replacement ∉ (String.join (lossyPieces fuel bs)).toList) : ofText (String.join (lossyPieces fuel bs)) = bs := by
  induction fuel generalizing bs with
  | zero =>
    rw [List.eq_nil_of_length_eq_zero (Nat.le_zero.1 hf)]
    rfl
  | succ fuel ih =>
    cases bs with
    | nil => rfl
    | cons b bs =>
      have hlen : bs.length ≤ fuel := Nat.le_of_succ_le_succ hf
      unfold lossyPieces at h ⊢
      cases hl : leadOf? b with
      | none =>
        simp only [hl] at h ⊢
        exact ofText_join_cons (ih bs hlen) h
      | some lead =>
        obtain ⟨owed, low, high⟩ := lead
        simp only [hl] at h ⊢
        rw [ofText_join_cons (ih _ (Nat.le_trans (List.length_drop ▸ Nat.sub_le ..) hlen)) h]
        exact congrArg (b :: ·) (List.take_append_drop _ bs)

/-- A lossy reading without a replacement is spelled by the bytes that were read. -/
theorem ofText_lossyText {bs : Bytes} (h : replacement ∉ (lossyText bs).toList) : ofText (lossyText bs) = bs :=
  ofText_lossyPieces _ bs (Nat.le_refl _) h

end InferenceGate.Bytes
