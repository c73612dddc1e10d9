import InferenceGate.Proofs.Chat.Acceptance
import InferenceGate.Proofs.Decimal.Exact
import InferenceGate.Proofs.Decimal.Rounding
import InferenceGate.Proofs.Text.Numbers

/-!
# The number of a conversation

A payload names a conversation by a positive signed word: as a number that is one exactly, or as a text that spells one between blanks
(`Names`). Nothing else names one, but for the numbers next above the greatest signed word whose nearest binary64 number is the power of
two there: these are compared with that power and then cut to the greatest word. `conversation_number_iff` says which number is taken and
when the payload is at fault.
-/

namespace InferenceGate.Chat

open Json

/-- A value names a conversation: a number that is exactly a positive signed word, or a text that spells one; and the greatest signed word
is named also by the power of two above it, and by the whole numbers whose nearest binary64 number is that power. -/
inductive Names : Value → Int → Prop where
  | number {x : Number} {n : Int} : x.exact = n → 0 < n → n ≤ maxI64 → Names (.number x) n
  | text {s : String} {n : Int} : Text.Spells (Text.trim s).toList n → 0 < n → n ≤ maxI64 → Names (.string s) n
  | above {x : Binary64} : x.exact = (maxI64 + 1 : Int) → Names (.number (.real x)) maxI64
  | rounded {k : Int} : maxI64 < k → k ≤ maxI64 + 1025 → Names (.number (.integer k)) maxI64

namespace ConversationNumberAux

open AcceptanceAux Binary64

variable {x : Binary64} {k n : Int} {v : Value} {payload : Members}

/-! ## Numbers -/

/-- Cutting to the signed words leaves a signed word as it is. -/
theorem clampI64_word (hmin : minI64 ≤ k) (hmax : k ≤ maxI64) : clampI64 k = k := by
  unfold clampI64
  omega

/-- An integer that is a signed word is taken as it is. -/
theorem wholeI64?_word (hmin : minI64 ≤ k) (hmax : k ≤ maxI64) : wholeI64? (.integer k) = some k := by
  unfold wholeI64?
  rw [Number.i64?_integer, if_pos ⟨hmin, hmax⟩]

/-- An integer that is no signed word is not read as one. -/
theorem i64?_eq_none (h : ¬ (minI64 ≤ k ∧ k ≤ maxI64)) : (Number.integer k).i64? = none := by
  rw [Number.i64?_integer, if_neg h]

/-- Any other number is taken by its nearest binary64 number. -/
theorem wholeI64?_eq_some {m : Number} (h : m.i64? = none) : wholeI64? m = some n ↔
    m.toReal.isWhole = true ∧ minI64 ≤ m.toReal.truncate ∧ m.toReal.truncate ≤ maxI64 + 1 ∧ clampI64 m.toReal.truncate = n := by
  unfold wholeI64?
  rw [h]
  simp [and_assoc]

/-- An integer below the signed words is not taken for a number above zero: it is rounded to none. -/
theorem wholeI64?_below (h : k < minI64) (hn : 0 < n) : wholeI64? (.integer k) ≠ some n := by
  intro htaken
  have hneg : k < 0 := by
    unfold minI64 at h
    omega
  have hround := truncate_ofInt_nonpos hneg
  obtain ⟨-, -, -, hclamp⟩ := (wholeI64?_eq_some (i64?_eq_none (by omega))).1 htaken
  have hclamp' : clampI64 (ofInt k).truncate = n := hclamp
  unfold clampI64 minI64 maxI64 at hclamp'
  omega

/-- An integer beyond the signed words is taken when its nearest binary64 number is `2 ^ 63`, and then for the greatest of them. -/
theorem wholeI64?_beyond (h : maxI64 < k) (hn : 0 < n) : wholeI64? (.integer k) = some n ↔ k ≤ maxI64 + 1025 ∧ n = maxI64 := by
  have hnone : (Number.integer k).i64? = none := i64?_eq_none (by omega)
  obtain ⟨m, rfl⟩ := Int.eq_ofNat_of_zero_le (show 0 ≤ k by unfold maxI64 at h; omega)
  have hm : 9223372036854775808 ≤ m := by
    unfold maxI64 at h
    omega
  have hlow := twoTo_log2_le_rounded (n := m) (Nat.le_trans (by decide) hm)
  have hiff := rounded_le_iff hm
  have hleast : 9223372036854775808 ≤ twoTo (Nat.log2 m) := twoTo_le_twoTo (a := 63) ((le_log2 (by omega)).2 hm)
  rw [wholeI64?_eq_some hnone]
  unfold clampI64 minI64 maxI64
  show (ofInt m).isWhole = true ∧ _ ≤ (ofInt m).truncate ∧ (ofInt m).truncate ≤ _ ∧ max _ (min (ofInt m).truncate _) = n ↔ _
  rcases truncate_ofInt_whole (n := m) (Nat.le_trans (by decide) hm) with ⟨hzero, hlog⟩ | ⟨hwhole, htruncate⟩
  · have hgreat : 18446744073709551616 ≤ m := (le_log2 (k := 64) (by omega)).1 (by omega)
    rw [hzero]
    omega
  · rw [htruncate]
    simp only [hwhole, true_and]
    omega

/-- An integer is taken for a conversation when it names it. -/
theorem wholeI64?_integer (hn : 0 < n) : wholeI64? (.integer k) = some n ↔ Names (.number (.integer k)) n := by
  constructor
  · intro h
    by_cases hbeyond : maxI64 < k
    · obtain ⟨hk, rfl⟩ := (wholeI64?_beyond hbeyond hn).1 h
      exact .rounded hbeyond hk
    · have hmax : k ≤ maxI64 := by omega
      by_cases hmin : minI64 ≤ k
      · obtain rfl : k = n := Option.some.inj ((wholeI64?_word hmin hmax).symm.trans h)
        exact .number rfl hn hmax
      · exact absurd h (wholeI64?_below (by omega) hn)
  · intro h
    cases h with
    | number hexact _ hmax =>
      obtain rfl : k = n := Int.cast_inj.1 hexact
      have hmin : minI64 ≤ k := by
        unfold minI64
        omega
      exact wholeI64?_word hmin hmax
    | rounded hbeyond hk => exact (wholeI64?_beyond hbeyond hn).2 ⟨hk, rfl⟩

/-- A binary64 number is taken for a conversation when it names it. -/
theorem wholeI64?_real (hn : 0 < n) : wholeI64? (.real x) = some n ↔ Names (.number (.real x)) n := by
  rw [wholeI64?_eq_some rfl]
  show x.isWhole = true ∧ minI64 ≤ x.truncate ∧ x.truncate ≤ maxI64 + 1 ∧ clampI64 x.truncate = n ↔ _
  constructor
  · rintro ⟨hwhole, hmin, hmax, rfl⟩
    have hexact : x.exact = x.truncate := exact_eq_intCast.2 ⟨hwhole, rfl⟩
    rcases Int.lt_or_eq_of_le hmax with hlt | heq
    · have hword : x.truncate ≤ maxI64 := by omega
      rw [clampI64_word hmin hword] at hn ⊢
      exact .number hexact hn hword
    · have hclamp : clampI64 x.truncate = maxI64 := by
        rw [heq]
        rfl
      rw [hclamp]
      exact .above (hexact.trans (congrArg Int.cast heq))
  · intro h
    cases h with
    | number hexact _ hmax =>
      obtain ⟨hwhole, rfl⟩ := exact_eq_intCast.1 hexact
      have hmin : minI64 ≤ x.truncate := by
        unfold minI64
        omega
      exact ⟨hwhole, hmin, by omega, clampI64_word hmin hmax⟩
    | above hexact =>
      obtain ⟨hwhole, htruncate⟩ := exact_eq_intCast.1 hexact
      rw [htruncate]
      exact ⟨hwhole, by decide, Int.le_refl _, rfl⟩

/-! ## Values -/

/-- A value is taken for a conversation when it names it. -/
theorem integer?_iff_names (hn : 0 < n) : integer? v = some n ↔ Names v n := by
  cases v with
  | number m =>
    cases m with
    | integer k => exact wholeI64?_integer hn
    | real x => exact wholeI64?_real hn
  | string s =>
    show Text.i64? (Text.trim s) = some n ↔ _
    rw [Text.i64?_eq_some]
    constructor
    · rintro ⟨hspells, -, hmax⟩
      exact .text hspells hn hmax
    · intro h
      cases h with
      | text hspells _ hmax =>
        refine ⟨hspells, ?_, hmax⟩
        unfold minI64
        omega
  | _ => exact ⟨nofun, nofun⟩

/-- A number that is named is above zero. -/
theorem pos_of_names (h : Names v n) : 0 < n := by
  cases h with
  | number _ hpos => exact hpos
  | text _ hpos => exact hpos
  | above => decide
  | rounded => decide

/-- The number of a payload reads when its value names a conversation, if there is one. -/
theorem numberReads_iff : NumberReads payload ↔ ∀ v, payload.get? "conversation_id" = some v → ∃ n, Names v n := by
  unfold NumberReads
  refine forall₂_congr fun v _ => exists_congr fun n => ?_
  constructor
  · rintro ⟨hint, hpos⟩
    exact (integer?_iff_names hpos).1 hint
  · intro h
    exact ⟨(integer?_iff_names (pos_of_names h)).2 h, pos_of_names h⟩

/-- When both options read, the conversation that is taken is the one that the value names. -/
theorem taken_iff_names (hf : FlagReads payload) (hreads : NumberReads payload) :
    (∃ options, (takeOptions payload).1 = .ok options ∧ options.conversation = some n) ↔
      ∃ v, payload.get? "conversation_id" = some v ∧ Names v n := by
  rw [takeOptions_eq_ok hf hreads]
  constructor
  · rintro ⟨options, heq, hn⟩
    obtain rfl := Except.ok.inj heq
    obtain ⟨v, hv, hint⟩ := Option.bind_eq_some_iff.1 hn
    obtain ⟨m, hm⟩ := numberReads_iff.1 hreads v hv
    obtain rfl : m = n := Option.some.inj (((integer?_iff_names (pos_of_names hm)).2 hm).symm.trans hint)
    exact ⟨v, hv, hm⟩
  · rintro ⟨v, hv, hn⟩
    refine ⟨_, rfl, ?_⟩
    simp only [hv, Option.bind_some]
    exact (integer?_iff_names (pos_of_names hn)).2 hn

/-- The number of a payload does not read when its value names no conversation. -/
theorem not_numberReads_iff : ¬ NumberReads payload ↔ ∃ v, payload.get? "conversation_id" = some v ∧ ∀ n, ¬ Names v n := by
  simp [numberReads_iff]

end ConversationNumberAux

open ConversationNumberAux AcceptanceAux

/-- A payload whose flag reads is taken to name just the conversation that its value names, and is at fault just when its value names
none. -/
theorem conversation_number_iff (payload : Members) :
    (∀ n, (∃ options, (takeOptions payload).1 = .ok options ∧ options.conversation = some n) ↔
        FlagReads payload ∧ ∃ v, payload.get? "conversation_id" = some v ∧ Names v n) ∧
      ((takeOptions payload).1 = .error .invalidConversationId ↔
        FlagReads payload ∧ ∃ v, payload.get? "conversation_id" = some v ∧ ∀ n, ¬ Names v n) := by
  rw [← not_numberReads_iff]
  by_cases hf : FlagReads payload
  · by_cases hreads : NumberReads payload
    · constructor
      · intro n
        rw [taken_iff_names hf hreads]
        simp [hf]
      · rw [takeOptions_eq_ok hf hreads]
        simp [hreads]
    · rw [takeOptions_of_not_numberReads hf hreads]
      constructor
      · intro n
        constructor
        · rintro ⟨options, heq, -⟩
          nomatch heq
        · rintro ⟨-, v, hv, hn⟩
          obtain ⟨v', hv', hnone⟩ := not_numberReads_iff.1 hreads
          obtain rfl : v' = v := Option.some.inj (hv'.symm.trans hv)
          exact absurd hn (hnone n)
      · simp [hf, hreads]
  · rw [takeOptions_of_not_flagReads hf]
    simp [hf]

/-- A text with a sign, a leading zero and blanks about it names its number. -/
theorem conversation_number_iff_signed :
    let payload : Members := [("conversation_id", .string " +042\n")]
    FlagReads payload ∧ Names (.string " +042\n") 42 ∧
      ∃ options, (takeOptions payload).1 = .ok options ∧ options.conversation = some 42 := by
  intro payload
  have hflag : FlagReads payload := by
    intro v hv
    nomatch hv
  have hnumeral : Text.IsNumeral ['0', '4', '2'] := ⟨by simp, by simp [Text.isDigit]⟩
  have hspells : Text.Spells ['+', '0', '4', '2'] 42 := .plus hnumeral
  have hnames : Names (.string " +042\n") 42 := .text hspells (by decide) (by decide)
  exact ⟨hflag, hnames, ((conversation_number_iff payload).1 42).2 ⟨hflag, _, rfl, hnames⟩⟩

/-- The power of two above the greatest signed word is taken for that word. -/
theorem power_taken_for_word :
    (takeOptions [("conversation_id", .number (.integer 9223372036854775808))]).1 = .ok { conversation := some 9223372036854775807 } ∧
      (Number.integer 9223372036854775808).exact ≠ (9223372036854775807 : Int) := by
  constructor
  · rfl
  · unfold Number.exact
    rw [Ne, Int.cast_inj]
    decide

end InferenceGate.Chat
