import InferenceGate.Chat.Tokens
import InferenceGate.Proofs.Decimal.Exact
import InferenceGate.Proofs.Decimal.Reading

/-!
# The size of a reply

A request names the size of its reply by a number or by a text that spells one between blanks (`Asks`): a signed word as it is, any other
number as the binary64 number nearest to it. What is named and not below zero is the size without its fraction, up to the greatest signed
word; where nothing is named, or a number of minus one or below, the fallback stands in (`reply_size`). Between these two the fraction is
cut before the sign is looked at: a number above minus one and below zero asks for a reply of no tokens, and not for the fallback.
-/

namespace InferenceGate.Chat

open Json Binary64

/-- What a value asks for: a signed word, in a number or a text, as it is; any other number as a binary64 number, which for a decimal text
is the one nearest to what it spells unless that overflows. -/
inductive Asks : Value → ℚ → Prop where
  | word {k : ℤ} : minI64 ≤ k → k ≤ maxI64 → Asks (.number (.integer k)) k
  | beyond {k : ℤ} : k < minI64 ∨ maxI64 < k → Asks (.number (.integer k)) (ofInt k).exact
  | double {x : Binary64} : Asks (.number (.real x)) x.exact
  | text {s : String} {k : ℤ} : Text.Spells (Text.trim s).toList k → minI64 ≤ k → k ≤ maxI64 → Asks (.string s) k
  | decimal {s : String} {q : ℚ} {x : Binary64} : (∀ k, Text.Spells (Text.trim s).toList k → k < minI64 ∨ maxI64 < k) →
      SpellsDecimal (Text.trim s).toList q → |q| < overflowLimit → IsNearest q x → Asks (.string s) x.exact

namespace ReplySizeAux

variable {v : Value} {r : ℚ} {k word : ℤ} {x : Binary64} {payload : Members} {fallback : ℕ}

/-- The word that a rational is cut to: its floor up to the greatest word, zero between minus one and zero, and a word below zero for all
that is less. -/
structure CutTo (r : ℚ) (word : ℤ) : Prop where
  whole : 0 ≤ r → word = min (⌊r⌋₊ : ℤ) maxI64
  fraction : -1 < r → r < 0 → word = 0
  below : r ≤ -1 → word < 0

theorem cutTo_word (h : k ≤ maxI64) : CutTo k k := by
  refine ⟨fun hnonneg => ?_, fun hlow hneg => ?_, fun hlow => ?_⟩
  · obtain ⟨n, rfl⟩ := Int.eq_ofNat_of_zero_le (Int.cast_nonneg_iff.1 hnonneg)
    rw [Int.cast_natCast, Nat.floor_natCast]
    exact (min_eq_left h).symm
  · have hlow' : -1 < k := by exact_mod_cast hlow
    have hneg' : k < 0 := by exact_mod_cast hneg
    omega
  · have hlow' : k ≤ -1 := by exact_mod_cast hlow
    omega

/-- A binary64 number is cut to its whole part, clamped. -/
theorem cutTo_clamp (x : Binary64) : CutTo x.exact (clampI64 x.truncate) := by
  unfold clampI64 minI64
  refine ⟨fun hnonneg => ?_, fun hlow hneg => ?_, fun hlow => ?_⟩
  · rw [truncate_of_nonneg hnonneg]
    unfold maxI64
    omega
  · have hzero : ⌊-x.exact⌋₊ = 0 := Nat.floor_eq_zero.2 (by linarith)
    rw [truncate_of_neg hneg, hzero]
    rfl
  · have hone : 1 ≤ ⌊-x.exact⌋₊ := Nat.le_floor (by rw [Nat.cast_one]; linarith)
    rw [truncate_of_neg (by linarith)]
    unfold maxI64
    omega

/-- Words of sixty-four bits do not overflow. -/
theorem two_pow_lt_overflowLimit : (2 : ℚ) ^ 64 < overflowLimit := by
  have hmono : (2 : ℚ) ^ 64 ≤ 2 ^ 970 := pow_le_pow_right₀ one_le_two (by norm_num)
  have hpos : (0 : ℚ) < 2 ^ 970 := by positivity
  unfold overflowLimit
  generalize (2 : ℚ) ^ 970 = power at hmono hpos
  linarith

/-- A word of sixty-four bits is rounded to the number nearest to it. -/
theorem isNearest_word (hmin : minI64 ≤ k) (hmax : k ≤ (maxU64 : ℤ)) : IsNearest k (ofInt k) := by
  have hbound : |k| ≤ 2 ^ 64 := by
    unfold minI64 at hmin
    unfold maxU64 at hmax
    rw [abs_le]
    omega
  have hbound' : |(k : ℚ)| ≤ 2 ^ 64 := by exact_mod_cast hbound
  exact isNearest_ofInt (lt_of_le_of_lt hbound' two_pow_lt_overflowLimit)

/-! ## Values -/

/-- The word of a number is the number itself or, with a point or beyond the words, its whole part clamped. -/
theorem replyWord?_number (m : Number) : replyWord? (.number m) = some (m.i64?.getD (clampI64 m.toReal.truncate)) := by
  unfold replyWord?
  dsimp only
  cases m.i64? <;> rfl

/-- The word of a text is the word it spells or the whole part of the number it spells, clamped. -/
theorem replyWord?_string (s : String) : replyWord? (.string s) =
    (Text.i64? (Text.trim s)).or ((nearest? (Text.trim s)).map fun x => clampI64 x.truncate) := by
  unfold replyWord?
  dsimp only
  cases Text.i64? (Text.trim s) <;> rfl

/-- What a value asks for is cut to the word that is read. -/
theorem replyWord?_of_asks (h : Asks v r) : ∃ word, replyWord? v = some word ∧ CutTo r word := by
  cases h with
  | @word k hmin hmax =>
    rw [replyWord?_number, Number.i64?_integer, if_pos ⟨hmin, hmax⟩]
    exact ⟨_, rfl, cutTo_word hmax⟩
  | @beyond k hbeyond =>
    rw [replyWord?_number, Number.i64?_integer, if_neg (by omega)]
    exact ⟨_, rfl, cutTo_clamp (ofInt k)⟩
  | @double x => exact ⟨_, replyWord?_number _, cutTo_clamp x⟩
  | text hspells hmin hmax =>
    rw [replyWord?_string, Text.i64?_eq_some.2 ⟨hspells, hmin, hmax⟩]
    exact ⟨_, rfl, cutTo_word hmax⟩
  | @decimal s q x hnoWord hspells hfits hnearest =>
    have hrounds := rounds_nearest? hspells
    rw [replyWord?_string, Text.i64?_eq_none.2 hnoWord]
    cases hread : nearest? (Text.trim s) with
    | none =>
      rw [hread] at hrounds
      exact absurd hfits (not_lt.2 hrounds)
    | some y =>
      rw [hread] at hrounds
      obtain ⟨-, -, hunique⟩ := hrounds
      rw [hunique x hnearest]
      exact ⟨_, rfl, cutTo_clamp y⟩

/-- A value of which a word is read asks for something. -/
theorem asks_of_replyWord? (h : replyWord? v = some word) : ∃ r, Asks v r := by
  cases v with
  | number m =>
    cases m with
    | integer k =>
      by_cases hword : minI64 ≤ k ∧ k ≤ maxI64
      · exact ⟨k, .word hword.1 hword.2⟩
      · exact ⟨_, .beyond (by omega)⟩
    | real x => exact ⟨_, .double⟩
  | string s =>
    rw [replyWord?_string] at h
    cases hword : Text.i64? (Text.trim s) with
    | some k =>
      obtain ⟨hspells, hmin, hmax⟩ := Text.i64?_eq_some.1 hword
      exact ⟨k, .text hspells hmin hmax⟩
    | none =>
      rw [hword, Option.none_or] at h
      obtain ⟨x, hread, -⟩ := Option.map_eq_some_iff.1 h
      obtain ⟨q, hspells⟩ := decimal_of_nearest?_eq_some hread
      have hrounds := rounds_nearest? hspells
      rw [hread] at hrounds
      obtain ⟨hfits, hnearest, -⟩ := hrounds
      exact ⟨_, .decimal (Text.i64?_eq_none.1 hword) hspells hfits hnearest⟩
  | _ => nomatch h

/-! ## Payloads -/

/-- A word that is asked for is the size of the reply unless it is below zero. -/
theorem maxTokens_of_word (hv : payload.get? "max_tokens" = some v) (hword : replyWord? v = some word) :
    maxTokens payload fallback = if 0 ≤ word then word.toNat else if fallback = 0 then usualReply else fallback := by
  unfold maxTokens
  rw [hv, Option.bind_some, hword]
  simp only [beq_iff_eq]

/-- Where no word is asked for the size of the reply is the fallback. -/
theorem maxTokens_of_none (h : (payload.get? "max_tokens").bind replyWord? = none) :
    maxTokens payload fallback = if fallback = 0 then usualReply else fallback := by
  unfold maxTokens
  rw [h]
  simp only [beq_iff_eq]

end ReplySizeAux

open ReplySizeAux

/-- The size of a reply is what the request asks for without its fraction, up to the greatest signed word; the fallback where it asks for
nothing or for minus one or less; and zero where it asks for less than zero but more than minus one. An integer that is no signed word is
taken as the binary64 number nearest to it. -/
theorem reply_size (payload : Members) (fallback : ℕ) :
    (∀ v r, payload.get? "max_tokens" = some v → Asks v r → 0 ≤ r → maxTokens payload fallback = min ⌊r⌋₊ maxI64.toNat) ∧
      (∀ v r, payload.get? "max_tokens" = some v → Asks v r → -1 < r → r < 0 → maxTokens payload fallback = 0) ∧
      ((∀ v r, payload.get? "max_tokens" = some v → Asks v r → r ≤ -1) →
        maxTokens payload fallback = if fallback = 0 then 256 else fallback) ∧
      ∀ k : ℤ, minI64 ≤ k → k ≤ (maxU64 : ℤ) → IsNearest k (ofInt k) := by
  refine ⟨fun v r hv hasks hnonneg => ?_, fun v r hv hasks hlow hneg => ?_, fun hnone => ?_, fun k hmin hmax => ?_⟩
  · obtain ⟨word, hword, hcut⟩ := replyWord?_of_asks hasks
    have hwhole := hcut.whole hnonneg
    have hword' : 0 ≤ word := by
      unfold maxI64 at hwhole
      omega
    rw [maxTokens_of_word hv hword, if_pos hword', hwhole]
    omega
  · obtain ⟨word, hword, hcut⟩ := replyWord?_of_asks hasks
    rw [maxTokens_of_word hv hword, hcut.fraction hlow hneg]
    rfl
  · cases hbind : (payload.get? "max_tokens").bind replyWord? with
    | none => exact maxTokens_of_none hbind
    | some word =>
      obtain ⟨v, hv, hword⟩ := Option.bind_eq_some_iff.1 hbind
      obtain ⟨r, hasks⟩ := asks_of_replyWord? hword
      obtain ⟨word', hword', hcut⟩ := replyWord?_of_asks hasks
      obtain rfl : word = word' := Option.some_inj.1 (hword.symm.trans hword')
      have hbelow := hcut.below (hnone v r hv hasks)
      rw [maxTokens_of_word hv hword, if_neg (not_le.2 hbelow)]
      rfl
  · exact isNearest_word hmin hmax

/-- A decimal text between blanks asks for its whole part. -/
theorem reply_size_decimal :
    let payload : Members := [("max_tokens", .string " +6.45e1\n")]
    Asks (.string " +6.45e1\n") (129 / 2) ∧ maxTokens payload 256 = 64 := by
  intro payload
  have hnumeral : Text.IsNumeral (['6'] ++ ['4', '5']) := ⟨by simp, by simp [Text.isDigit]⟩
  have hpower : SpellsPower ['e', '1'] 1 := .marked (.inl rfl) (.unsigned ⟨by simp, by simp [Text.isDigit]⟩)
  have hspells : SpellsDecimal (Text.trim " +6.45e1\n").toList _ := .plus (.pointed hnumeral hpower)
  have hround : nearest? (Text.trim " +6.45e1\n") = some ⟨false, 4538783999459328, -46⟩ := rfl
  have hrounds := rounds_nearest? hspells
  rw [hround] at hrounds
  obtain ⟨hfits, hnearest, -⟩ := hrounds
  have hnoWord : Text.i64? (Text.trim " +6.45e1\n") = none := rfl
  have hexact : (Binary64.mk false 4538783999459328 (-46)).exact = 129 / 2 := by
    rw [NearestAux.exact_mk]
    norm_num
  have hasks : Asks (.string " +6.45e1\n") (129 / 2) := hexact ▸ .decimal (Text.i64?_eq_none.1 hnoWord) hspells hfits hnearest
  have hsize := (reply_size payload 256).1 _ _ rfl hasks (by norm_num)
  have hfloor : ⌊(129 / 2 : ℚ)⌋₊ = 64 := by
    rw [Nat.floor_eq_iff (by norm_num)]
    norm_num
  rw [hfloor] at hsize
  exact ⟨hasks, hsize⟩

/-- Half a token less than none asks for a reply of no tokens, and not for the fallback. -/
theorem half_below_zero_is_none :
    Asks (.number (.real ⟨true, 4503599627370496, -53⟩)) (-1 / 2) ∧
      maxTokens [("max_tokens", .number (.real ⟨true, 4503599627370496, -53⟩))] 128 = 0 := by
  have hexact : (Binary64.mk true 4503599627370496 (-53)).exact = -1 / 2 := by
    unfold exact
    rw [if_pos rfl, NearestAux.magnitude_eq]
    norm_num
  exact ⟨hexact ▸ .double, rfl⟩

end InferenceGate.Chat
