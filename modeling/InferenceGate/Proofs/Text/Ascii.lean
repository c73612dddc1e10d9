import InferenceGate.Proofs.Text.Blanks
import InferenceGate.Proofs.Text.Spelling
import InferenceGate.Text.Integer

/-!
# Texts of ASCII, and decimal numbers among them

A text of ASCII is spelled with one byte for each character, and a lossy reading of these bytes gives it back. The decimal text of a
number is such a text: it has no blanks to trim, and reading it gives the number.
-/

namespace InferenceGate

/-- A text of ASCII characters. -/
def Text.IsAscii (s : String) : Prop := ∀ c ∈ s.toList, c.toNat < 128

namespace Bytes

open Text

/-- The byte that spells a character of ASCII. -/
theorem utf8EncodeChar_of_lt {c : Char} (h : c.toNat < 128) : String.utf8EncodeChar c = [UInt8.ofNat c.toNat] := by
  unfold String.utf8EncodeChar
  have hv : c.val.toNat ≤ 127 := by
    have : c.val.toNat = c.toNat := rfl
    omega
  simp only [hv, if_true]
  rfl

/-- A text of ASCII is spelled byte by byte. -/
theorem ofText_ascii {s : String} (h : IsAscii s) : ofText s = s.toList.map fun c => UInt8.ofNat c.toNat := by
  conv => lhs; rw [← String.ofList_toList (s := s), ofText_ofList]
  unfold IsAscii at h
  induction hs : s.toList generalizing s with
  | nil => rfl
  | cons c cs ih =>
    rw [hs] at h
    have hcs := ih (s := String.ofList cs)
    rw [String.toList_ofList] at hcs
    rw [List.flatMap_cons, utf8EncodeChar_of_lt (h c List.mem_cons_self), hcs (fun d hd => h d (List.mem_cons_of_mem _ hd)) rfl]
    rfl

/-- Bytes of ASCII spell a text. -/
theorem exists_ofText {bs : Bytes} (h : ∀ b ∈ bs, b.toNat < 128) : ∃ s, IsAscii s ∧ bs = ofText s := by
  have hchar : ∀ b ∈ bs, (Char.ofNat b.toNat).toNat = b.toNat := by
    intro b hb
    have hvalid : b.toNat.isValidChar := .inl (by have := h b hb; omega)
    unfold Char.ofNat
    rw [dif_pos hvalid]
    rfl
  have hascii : IsAscii (String.ofList (bs.map fun b => Char.ofNat b.toNat)) := by
    intro c hc
    rw [String.toList_ofList] at hc
    obtain ⟨b, hb, rfl⟩ := List.mem_map.1 hc
    rw [hchar b hb]
    exact h b hb
  refine ⟨_, hascii, ?_⟩
  rw [ofText_ascii hascii, String.toList_ofList, List.map_map]
  conv => lhs; rw [← List.map_id bs]
  refine List.map_congr_left fun b hb => ?_
  simp [hchar b hb]

/-- A byte spells one character of ASCII only. -/
theorem ofNat_toNat_inj {c d : Char} (hc : c.toNat < 128) (hd : d.toNat < 128) (h : UInt8.ofNat c.toNat = UInt8.ofNat d.toNat) :
    c = d := by
  have hn := congrArg UInt8.toNat h
  rw [UInt8.toNat_ofNat', UInt8.toNat_ofNat', Nat.mod_eq_of_lt (by omega), Nat.mod_eq_of_lt (by omega)] at hn
  exact Char.toNat_inj.1 hn

/-- A byte of ASCII is in the spelling of a text of ASCII just when the text has its character. -/
theorem mem_ofText_ascii {s : String} (h : IsAscii s) {d : Char} (hd : d.toNat < 128) :
    UInt8.ofNat d.toNat ∈ ofText s ↔ d ∈ s.toList := by
  rw [ofText_ascii h, List.mem_map]
  constructor
  · rintro ⟨c, hc, he⟩
    exact ofNat_toNat_inj (h c hc) hd he ▸ hc
  · intro hm
    exact ⟨d, hm, rfl⟩

/-- No byte of ASCII leads a character of more bytes. -/
theorem leadOf?_of_lt : ∀ n < 128, leadOf? (UInt8.ofNat n) = none := by decide

/-- The spelling of a text is read as the text. -/
theorem pieceText_ofText (s : String) : pieceText (ofText s) = s := by
  unfold pieceText
  rw [text?_ofText]
  rfl

/-- A text of ASCII is read character by character. -/
theorem lossyPieces_ascii {cs : List Char} (h : ∀ c ∈ cs, c.toNat < 128) :
    lossyPieces cs.length (cs.map fun c => UInt8.ofNat c.toNat) = cs.map String.singleton := by
  induction cs with
  | nil => rfl
  | cons c cs ih =>
    have hc := h c List.mem_cons_self
    have hpiece : pieceText [UInt8.ofNat c.toNat] = String.singleton c := by
      rw [← utf8EncodeChar_of_lt hc, ← List.flatMap_singleton String.utf8EncodeChar c, ← ofText_ofList, pieceText_ofText]
      rfl
    rw [List.map_cons, List.length_cons, lossyPieces, leadOf?_of_lt _ hc, hpiece, ih fun d hd => h d (List.mem_cons_of_mem _ hd)]
    rfl

theorem join_singletons (cs : List Char) : String.join (cs.map String.singleton) = String.ofList cs := by
  induction cs with
  | nil => rfl
  | cons c cs ih =>
    rw [List.map_cons, String.join_cons, ih]
    apply String.toList_inj.1
    simp

/-- The spelling of a text of ASCII is read as the text. -/
theorem lossyText_ofText {s : String} (h : IsAscii s) : lossyText (ofText s) = s := by
  unfold lossyText
  rw [ofText_ascii h, List.length_map, lossyPieces_ascii h, join_singletons, String.ofList_toList]

end Bytes

namespace Text

variable {n : Nat}

/-! ## Decimal numbers -/

/-- The decimal text of a number is its digits. -/
theorem toList_toString (n : Nat) : (toString n).toList = Nat.toDigits 10 n := by
  rw [Nat.toString_eq_ofList_toDigits, String.toList_ofList]

/-- The decimal text of a number is digits. -/
theorem isDigit_of_mem {c : Char} (h : c ∈ (toString n).toList) : isDigit c = true := by
  rw [toList_toString] at h
  exact Nat.isDigit_of_mem_toDigits (by decide) (by decide) h

/-- A digit is between zero and nine. -/
theorem bounds_of_isDigit {c : Char} (h : isDigit c = true) : 48 ≤ c.toNat ∧ c.toNat ≤ 57 :=
  Char.isDigit_iff_toNat.1 h

theorem isAscii_toString (n : Nat) : IsAscii (toString n) := by
  intro c hc
  have := bounds_of_isDigit (isDigit_of_mem hc)
  omega

theorem toDigits_ne_nil (n : Nat) : Nat.toDigits 10 n ≠ [] := by
  intro h
  have hlen := Nat.length_toDigits_pos (b := 10) (n := n)
  rw [h] at hlen
  exact absurd hlen (Nat.lt_irrefl 0)

/-- A digit is not blank. -/
theorem isBlank_of_isDigit {c : Char} (h : isDigit c = true) : isBlank c = false := by
  have := bounds_of_isDigit h
  unfold isBlank
  simp
  omega

/-- There is nothing to trim about the decimal text of a number. -/
theorem trim_toString (n : Nat) : trim (toString n) = toString n := by
  have hblank : ∀ c ∈ (toString n).toList, isBlank c = false := fun c hc => isBlank_of_isDigit (isDigit_of_mem hc)
  have hne : (toString n).toList ≠ [] := by
    rw [toList_toString]
    exact toDigits_ne_nil n
  have hfirm : Firm isBlank (toString n).toList :=
    ⟨⟨_, List.head?_eq_some_head hne, hblank _ (List.head_mem hne)⟩,
      ⟨_, List.getLast?_eq_some_getLast hne, hblank _ (List.getLast_mem hne)⟩⟩
  unfold trim
  rw [strip_of_firm hfirm, String.ofList_toList]

/-- The decimal text of a number is read as the number. -/
theorem natural?_toString (n : Nat) : natural? (toString n).toList = some n := by
  have hall : (toString n).toList.all isDigit = true := List.all_eq_true.2 fun c hc => isDigit_of_mem hc
  have hvalue : digitsValue (toString n).toList = n := by
    rw [toList_toString]
    exact Nat.ofDigitChars_toDigits (b := 10) (by decide) (by decide)
  unfold natural?
  rw [hall, hvalue, toList_toString]
  simp

/-- The decimal text of a number that a signed word holds is read as the word. -/
theorem i64?_toString (h : (n : Int) ≤ maxI64) : i64? (toString n) = some (n : Int) := by
  have hsigned : signed? (toString n).toList = some (n : Int) := by
    have hnat := natural?_toString n
    have hdigits := fun c => isDigit_of_mem (n := n) (c := c)
    cases hs : (toString n).toList with
    | nil => rw [hs] at hnat; exact nomatch hnat
    | cons c cs =>
      rw [hs] at hnat hdigits
      have hc := bounds_of_isDigit (hdigits c List.mem_cons_self)
      unfold signed?
      split
      · exact absurd hc (by rename_i heq; rw [(List.cons.inj heq).1]; decide)
      · exact absurd hc (by rename_i heq; rw [(List.cons.inj heq).1]; decide)
      · rw [hnat]
        rfl
  have hrange : inI64 (n : Int) = true := by
    refine inI64_iff.2 ⟨?_, h⟩
    unfold minI64
    omega
  unfold i64?
  rw [hsigned, Option.filter_some, if_pos hrange]

end Text

end InferenceGate
