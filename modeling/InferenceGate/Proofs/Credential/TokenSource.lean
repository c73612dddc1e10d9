import InferenceGate.Credential.Gate
import InferenceGate.Proofs.Http.Fields
import InferenceGate.Proofs.Http.Queries
import InferenceGate.Proofs.Text.LowerCase

/-!
# Where the token of a call stands

The authorization field of a call says its token or says none (`Says`), and where it says none the query is asked (`Gives`); a call has a
token just when one of the two gives it (`token_read`). Behind the scheme stands the token, and a field that is absent, blank or no text
says none. A field of the word of the scheme and nothing else says that word: its blanks are taken away before the scheme is looked for,
and with them the space that belongs to the scheme.
-/

namespace InferenceGate.Credential

open Http

/-- The word of the scheme, in any case of letters. -/
def IsScheme (word : String) : Prop := Text.lowerAscii word = "bearer"

/-- Spaces. -/
def spaces (n : Nat) : String := String.ofList (List.replicate n ' ')

/-- A token stands in a value behind the word of the scheme and one or more spaces. -/
def StandsBehindScheme (value token : String) : Prop :=
  ∃ before word n rest, Text.isBlankText before = true ∧ IsScheme word ∧ Text.isBlankText rest = false ∧
    value = before ++ word ++ spaces (n + 1) ++ rest ∧ token = Text.trim rest

/-- A value is the word of the scheme between blanks. -/
def IsSchemeAlone (value word : String) : Prop :=
  ∃ before after, Text.isBlankText before = true ∧ IsScheme word ∧ Text.isBlankText after = true ∧ value = before ++ word ++ after

/-- What an authorization field says: no token when there is none, when it is no text or when it is blank; else the token behind the
scheme, the word of the scheme where that is all, and any other value as a whole, without the blanks at its ends. -/
inductive Says : Option Bytes → Option String → Prop where
  | absent : Says none none
  | illegible {value : Bytes} : (∃ b ∈ value, ¬ IsPrintable b) → Says (some value) none
  | blank {value : String} : PrintableText value → Text.isBlankText value = true → Says (some (Bytes.ofText value)) none
  | token {value token : String} : PrintableText value → StandsBehindScheme value token →
      Says (some (Bytes.ofText value)) (some token)
  | scheme {value word : String} : PrintableText value → IsSchemeAlone value word → Says (some (Bytes.ofText value)) (some word)
  | whole {value : String} : PrintableText value → Text.isBlankText value = false → (∀ token, ¬ StandsBehindScheme value token) →
      (∀ word, ¬ IsSchemeAlone value word) → Says (some (Bytes.ofText value)) (some (Text.trim value))

/-- The token that a query gives: the value of its last parameter of that name, trimmed, if it is not blank. -/
def Gives (query : Option Bytes) (token : String) : Prop :=
  ∃ before value after, formPairs (query.getD []) = before ++ ("token", value) :: after ∧ (∀ p ∈ after, p.1 ≠ "token") ∧
    Text.isBlankText value = false ∧ token = Text.trim value

namespace TokenSourceAux

variable {value word token : String} {rest : List Char} {fields : Fields} {field : Option Bytes} {said : Option String}

/-! ## The scheme -/

theorem blank_iff {s : String} : Text.isBlankText s = true ↔ ∀ c ∈ s.toList, Text.isBlank c = true := List.all_eq_true

/-- The scheme is the same word in any case of letters. -/
theorem map_toLower_scheme (h : IsScheme word) : word.toList.map Char.toLower = ['b', 'e', 'a', 'r', 'e', 'r'] := by
  have hlist := congrArg String.toList h
  unfold Text.lowerAscii at hlist
  rw [String.toList_ofList] at hlist
  exact hlist

theorem length_scheme (h : IsScheme word) : word.toList.length = 6 := by
  have hlen := congrArg List.length (map_toLower_scheme h)
  rwa [List.length_map] at hlen

/-- No letter of the scheme is blank. -/
theorem firm_scheme (h : IsScheme word) : Text.Firm Text.isBlank word.toList := by
  apply Text.firm_of_forall
  · intro hnil
    have hlen := length_scheme h
    rw [hnil] at hlen
    nomatch hlen
  · intro c hc
    have hm : c.toLower ∈ word.toList.map Char.toLower := List.mem_map_of_mem hc
    rw [map_toLower_scheme h] at hm
    rw [← Text.isBlank_toLower]
    have hnone : ∀ d ∈ ['b', 'e', 'a', 'r', 'e', 'r'], Text.isBlank d = false := by simp [Text.isBlank]
    exact hnone _ hm

/-- Behind the word of the scheme and a space stands what is taken for the token. -/
theorem withoutScheme_of_scheme (h : IsScheme word) (rest : List Char) :
    withoutScheme (String.ofList (word.toList ++ ' ' :: rest)) = Text.trim (String.ofList rest) := by
  have hsplit : word.toList ++ ' ' :: rest = (word.toList ++ [' ']) ++ rest := by simp
  have hlen : (word.toList ++ [' ']).length = scheme.length := by
    rw [List.length_append, length_scheme h]
    rfl
  have hlower : Text.lowerAscii (String.ofList (word.toList ++ [' '])) = scheme := by
    unfold Text.lowerAscii
    rw [String.toList_ofList, List.map_append, map_toLower_scheme h]
    rfl
  unfold withoutScheme
  simp only [String.toList_ofList]
  rw [hsplit, List.take_left' hlen, List.drop_left' hlen, hlower, if_pos (beq_self_eq_true _)]

/-- Only the space is a space in lower case. -/
theorem eq_space_of_toLower {c : Char} (h : c.toLower = ' ') : c = ' ' := by
  have hn := congrArg Char.toNat h
  rw [Text.toNat_toLower] at hn
  apply Char.toNat_inj.1
  have hspace : ' '.toNat = 32 := rfl
  split at hn <;> omega

/-- A value that does not begin with the scheme and a space stays as it is. -/
theorem withoutScheme_of_not (h : ∀ word rest, IsScheme word → value.toList ≠ word.toList ++ ' ' :: rest) :
    withoutScheme value = value := by
  unfold withoutScheme
  dsimp only
  refine if_neg fun hb => ?_
  have hlower : (value.toList.take scheme.length).map Char.toLower = "bearer".toList ++ [' '] := by
    have hlist := congrArg String.toList (eq_of_beq hb)
    unfold Text.lowerAscii at hlist
    rwa [String.toList_ofList, String.toList_ofList] at hlist
  obtain ⟨letters, space, htake, hletters, hspace⟩ := List.map_eq_append_iff.1 hlower
  obtain ⟨c, rfl, hc⟩ := List.map_eq_singleton_iff.1 hspace
  obtain rfl := eq_space_of_toLower hc
  have hword : IsScheme (String.ofList letters) := by
    unfold IsScheme Text.lowerAscii
    rw [String.toList_ofList, hletters, String.ofList_toList]
  have hsplit := List.take_append_drop scheme.length value.toList
  rw [htake, List.append_assoc] at hsplit
  refine h _ (value.toList.drop scheme.length) hword ?_
  rw [String.toList_ofList]
  exact hsplit.symm

/-! ## What a value says -/

/-- What trimming leaves of a text that is not blank has firm ends. -/
theorem firm_strip (h : Text.isBlankText value = false) : Text.Firm Text.isBlank (Text.strip Text.isBlank value.toList) := by
  refine (Text.strip_eq_nil_or_firm _ _).resolve_left fun hnil => ?_
  have hblank := blank_iff.2 (Text.strip_eq_nil_iff.1 hnil)
  rw [h] at hblank
  nomatch hblank

/-- What trimming leaves does not end in a space, so behind a space in it stands something that is not blank. -/
theorem exists_behind_space {l front : List Char} (h : Text.strip Text.isBlank l = front ++ ' ' :: rest) :
    ∃ c ∈ rest, Text.isBlank c = false := by
  rcases Text.strip_eq_nil_or_firm Text.isBlank l with hnil | hfirm
  · simp [h] at hnil
  · obtain ⟨c, hc, hcb⟩ := hfirm.last
    rw [h, List.getLast?_append] at hc
    have hmem : c ∈ ' ' :: rest := List.mem_of_getLast? (by simpa using hc)
    rcases List.mem_cons.1 hmem with rfl | hmem
    · nomatch hcb
    · exact ⟨c, hmem, hcb⟩

/-- The token behind the scheme is what a value without its scheme comes to. -/
theorem withoutScheme_of_stands (h : StandsBehindScheme value token) :
    withoutScheme (Text.trim value) = token ∧ token.isEmpty = false := by
  obtain ⟨before, word, n, rest, hbefore, hword, hrest, rfl, rfl⟩ := h
  obtain ⟨gap, after, hgap, hafter, hsplit⟩ := Text.exists_strip Text.isBlank rest.toList
  have hempty : (Text.trim rest).isEmpty = false := by rw [Text.isEmpty_trim, hrest]
  have hmid := firm_strip hrest
  have hvalue : (before ++ word ++ spaces (n + 1) ++ rest).toList = before.toList ++
      (word.toList ++ (' ' :: (List.replicate n ' ' ++ gap)) ++ Text.strip Text.isBlank rest.toList) ++ after := by
    conv => lhs; rw [String.toList_append, hsplit]
    simp [spaces, List.replicate_succ]
  have hlead : ∀ c ∈ List.replicate n ' ' ++ gap, Text.isBlank c = true := by
    intro c hc
    rcases List.mem_append.1 hc with hc | hc
    · rw [List.eq_of_mem_replicate hc]
      rfl
    · exact hgap c hc
  have hfirm := Text.Firm.append_append (firm_scheme hword) (' ' :: (List.replicate n ' ' ++ gap)) hmid
  rw [Text.trim_of_toList hvalue (blank_iff.1 hbefore) hfirm hafter, List.append_assoc, List.cons_append,
    withoutScheme_of_scheme hword]
  unfold Text.trim at hempty ⊢
  rw [String.toList_ofList, Text.strip_append_left hlead hmid]
  exact ⟨rfl, hempty⟩

/-- The word of the scheme alone is kept. -/
theorem withoutScheme_of_alone (h : IsSchemeAlone value word) : withoutScheme (Text.trim value) = word ∧ word.isEmpty = false := by
  obtain ⟨before, after, hbefore, hword, hafter, rfl⟩ := h
  have hvalue : (before ++ word ++ after).toList = before.toList ++ word.toList ++ after.toList := by simp
  rw [Text.trim_of_toList hvalue (blank_iff.1 hbefore) (firm_scheme hword) (blank_iff.1 hafter), String.ofList_toList]
  refine ⟨withoutScheme_of_not fun word' rest hword' he => ?_, ?_⟩
  · have hlen := congrArg List.length he
    rw [List.length_append, length_scheme hword, length_scheme hword', List.length_cons] at hlen
    omega
  · rw [Bool.eq_false_iff]
    intro hempty
    have hlen := length_scheme hword
    rw [String.isEmpty_iff.1 hempty] at hlen
    nomatch hlen

/-- A value behind whose scheme no token stands is kept whole. -/
theorem withoutScheme_of_whole (h : ∀ token, ¬ StandsBehindScheme value token) :
    withoutScheme (Text.trim value) = Text.trim value := by
  refine withoutScheme_of_not fun word rest hword he => ?_
  obtain ⟨before, after, hbefore, hafter, hsplit⟩ := Text.exists_strip Text.isBlank value.toList
  have hstrip : Text.strip Text.isBlank value.toList = word.toList ++ ' ' :: rest := by
    unfold Text.trim at he
    rwa [String.toList_ofList] at he
  have hrest : Text.isBlankText (String.ofList (rest ++ after)) = false := by
    rw [Bool.eq_false_iff]
    intro hblank
    obtain ⟨c, hc, hcb⟩ := exists_behind_space hstrip
    have hcb' := blank_iff.1 hblank c (by simp [hc])
    rw [hcb] at hcb'
    nomatch hcb'
  refine h _ ⟨String.ofList before, word, 0, String.ofList (rest ++ after), ?_, hword, hrest, ?_, rfl⟩
  · rw [blank_iff, String.toList_ofList]
    exact hbefore
  · apply String.toList_inj.1
    rw [hsplit, hstrip]
    simp [spaces]

/-! ## What the two places say -/

/-- A printable value is read and its scheme taken away. -/
theorem fieldToken?_of_value (hp : PrintableText value) (hf : fields.get? "authorization" = some (Bytes.ofText value)) :
    fieldToken? fields = (some (withoutScheme (Text.trim value))).filter fun t => !t.isEmpty := by
  unfold fieldToken? Fields.text?
  rw [hf, Option.bind_some, printable?_ofText hp, Option.map_some]

/-- What the field says is the token of the field. -/
theorem fieldToken?_eq (h : Says (fields.get? "authorization") said) : fieldToken? fields = said := by
  generalize hfield : fields.get? "authorization" = field at h
  cases h with
  | absent => simp [fieldToken?, Fields.text?, hfield]
  | illegible hb => simp [fieldToken?, Fields.text?, hfield, printable?_eq_none hb]
  | @blank value hp hblank =>
    have htrim : Text.trim value = "" := String.isEmpty_iff.1 (by rw [Text.isEmpty_trim, hblank])
    rw [fieldToken?_of_value hp hfield, htrim]
    rfl
  | token hp hs =>
    obtain ⟨htoken, hempty⟩ := withoutScheme_of_stands hs
    rw [fieldToken?_of_value hp hfield, htoken]
    simp [hempty]
  | scheme hp hs =>
    obtain ⟨hword, hempty⟩ := withoutScheme_of_alone hs
    rw [fieldToken?_of_value hp hfield, hword]
    simp [hempty]
  | whole hp hblank hs _ =>
    rw [fieldToken?_of_value hp hfield, withoutScheme_of_whole hs]
    simp [Text.isEmpty_trim, hblank]

/-- Every field says something. -/
theorem exists_said (field : Option Bytes) : ∃ said, Says field said := by
  cases field with
  | none => exact ⟨none, .absent⟩
  | some bytes =>
    rcases exists_printableText bytes with hb | ⟨value, hp, rfl⟩
    · exact ⟨none, .illegible hb⟩
    · cases hblank : Text.isBlankText value with
      | true => exact ⟨none, .blank hp hblank⟩
      | false =>
        by_cases htoken : ∃ token, StandsBehindScheme value token
        · obtain ⟨token, htoken⟩ := htoken
          exact ⟨some token, .token hp htoken⟩
        · by_cases hword : ∃ word, IsSchemeAlone value word
          · obtain ⟨word, hword⟩ := hword
            exact ⟨some word, .scheme hp hword⟩
          · exact ⟨_, .whole hp hblank (not_exists.1 htoken) (not_exists.1 hword)⟩

/-- The token of the field is what the field says. -/
theorem says_iff : Says (fields.get? "authorization") said ↔ fieldToken? fields = said := by
  refine ⟨fieldToken?_eq, fun h => ?_⟩
  obtain ⟨said', hsaid⟩ := exists_said (fields.get? "authorization")
  rwa [← h, fieldToken?_eq hsaid]

/-- The token of the query is what the query gives. -/
theorem queryToken?_eq_some {query : Option Bytes} : queryToken? query = some token ↔ Gives query token := by
  unfold queryToken?
  rw [Option.bind_eq_some_iff]
  constructor
  · rintro ⟨value, hvalue, htrim⟩
    obtain ⟨before, after, hpairs, hafter⟩ := formValue?_eq_some.1 hvalue
    unfold Text.trimmed? at htrim
    dsimp only at htrim
    rw [Text.isEmpty_trim] at htrim
    cases hblank : Text.isBlankText value with
    | true => simp [hblank] at htrim
    | false =>
      rw [hblank] at htrim
      exact ⟨before, value, after, hpairs, hafter, hblank, (Option.some.inj htrim).symm⟩
  · rintro ⟨before, value, after, hpairs, hafter, hblank, rfl⟩
    refine ⟨value, formValue?_eq_some.2 ⟨before, after, hpairs, hafter⟩, ?_⟩
    simp [Text.trimmed?, Text.isEmpty_trim, hblank]

end TokenSourceAux

open TokenSourceAux

/-- A call has the token that its authorization field says, whatever its query gives, or the one that its query gives where the field
says none; and it has no token just when neither has one. -/
theorem token_read (fields : Fields) (query : Option Bytes) :
    (∀ token, token? fields query = some token ↔
        Says (fields.get? "authorization") (some token) ∨ Says (fields.get? "authorization") none ∧ Gives query token) ∧
      (token? fields query = none ↔ Says (fields.get? "authorization") none ∧ ∀ token, ¬ Gives query token) := by
  unfold token?
  constructor
  · intro token
    rw [says_iff, says_iff, ← queryToken?_eq_some, Option.or_eq_some_iff]
  · rw [says_iff, Option.or_eq_none_iff, Option.eq_none_iff_forall_ne_some (o := queryToken? query)]
    simp only [ne_eq, queryToken?_eq_some]

/-- A token behind a scheme in other letters and two spaces, in a call that gives another in its query. -/
theorem token_read_two_spaces :
    let fields : Fields := [("authorization", Bytes.ofText " bEaReR  abc ")]
    Says (fields.get? "authorization") (some "abc") ∧ token? fields (some (Bytes.ofText "token=def")) = some "abc" := by
  intro fields
  have hprintable : PrintableText " bEaReR  abc " := by decide
  have hfield : Says (fields.get? "authorization") (some "abc") :=
    .token hprintable ⟨" ", "bEaReR", 1, "abc ", rfl, rfl, rfl, rfl, rfl⟩
  exact ⟨hfield, ((token_read fields _).1 "abc").2 (.inl hfield)⟩

/-- The word of the scheme with nothing behind it is taken for the token of a call whose query gives one. -/
theorem bare_scheme_taken :
    let fields : Fields := [("authorization", Bytes.ofText "Bearer")]
    let query := some (Bytes.ofText "token=abc")
    IsSchemeAlone "Bearer" "Bearer" ∧ Gives query "abc" ∧ token? fields query = some "Bearer" ∧ token? [] query = some "abc" := by
  intro fields query
  have hname : Plain "token" := ⟨by simp [Text.IsAscii], by decide, by decide, by decide, by decide⟩
  have hvalue : Plain "abc" := ⟨by simp [Text.IsAscii], by decide, by decide, by decide, by decide⟩
  have hpairs : formPairs (query.getD []) = [("token", "abc")] := formPairs_pairBytes hname hvalue
  have hgives : Gives query "abc" := ⟨[], "abc", [], hpairs, by simp, rfl, rfl⟩
  have hquery : queryToken? query = some "abc" := queryToken?_eq_some.2 hgives
  refine ⟨⟨"", "", rfl, rfl, rfl, rfl⟩, hgives, rfl, ?_⟩
  unfold token?
  rw [hquery]
  rfl

end InferenceGate.Credential
