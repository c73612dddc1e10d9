import InferenceGate.Proofs.Document.Records
import InferenceGate.Proofs.Reply.Documents
import InferenceGate.Proofs.Reply.Streamed

/-!
# The text of a reply and its accounts

A document of a reply says its text in its choices, and the rest of it is for the accounts. Both are read at once: the text of the choices
is read where the accounts can be read (`AccountsLegible`), and where they cannot, a document that has a text is read as none.
-/

namespace InferenceGate.Reply

open Json Document StreamedAux

/-- The fields of a document of a reply. -/
def envelopeFields : List Field := [{ name := "model" }, { name := "choices" }, { name := "usage" }, { name := "error" }]

/-- The fields of counts, two of which have another name. -/
def countFields : List Field :=
  [{ name := "prompt_tokens", aliases := ["input_tokens"] }, { name := "completion_tokens", aliases := ["output_tokens"] },
    { name := "total_tokens" }]

/-- The fields of a choice. -/
def choiceFields : List Field := [{ name := "message" }, { name := "delta" }]

/-- The fields of a message or a delta. -/
def partFields : List Field := [{ name := "content" }]

/-! ## What choices say -/

/-- A message or a delta: null, or a table whose content is a value if there is one. -/
inductive IsPart : Json.Tree → Prop where
  | null : IsPart (.leaf .null)
  | table {ms : List (Atom × Json.Tree)} : Spells partFields ms →
      (∀ t, Tree.member? "content" (.table ms) = some t → (valueOf? (maxDepth - 4) t).isSome) → IsPart (.table ms)

/-- A choice: a table with a message and a delta at most. -/
inductive IsChoice : Json.Tree → Prop where
  | table {ms : List (Atom × Json.Tree)} : Spells choiceFields ms →
      (∀ name ∈ choiceFields.map Field.name, ∀ t, Tree.member? name (.table ms) = some t → IsPart t) → IsChoice (.table ms)

/-- The choices of a reply: a list of them. -/
inductive IsChoices : Json.Tree → Prop where
  | list {items : List Json.Tree} : (∀ t ∈ items, IsChoice t) → IsChoices (.list items)

/-- The content of a message or a delta, if it is a text. -/
def contentText? (t : Json.Tree) : Option String := (t.member? "content").bind Tree.text?

/-- The texts that a choice says: that of its message, then that of its delta. -/
def textsOfChoice (t : Json.Tree) : List String := ["message", "delta"].filterMap fun name => (t.member? name).bind contentText?

/-- The texts that choices say, in order. -/
def textsOf : Json.Tree → List String
  | .list items => items.flatMap textsOfChoice
  | _ => []

/-! ## What can be read for the accounts -/

/-- Counts that can be read: null, a table that gives no count twice, under one name or under two, or a list of three counts at most; each
count is a value. -/
inductive CountsLegible : Json.Tree → Prop where
  | null : CountsLegible (.leaf .null)
  | table {ms : List (Atom × Json.Tree)} : Spells countFields ms →
      (∀ g ∈ given countFields ms, (valueOf? (maxDepth - 2) g.2).isSome) → CountsLegible (.table ms)
  | list {items : List Json.Tree} : items.length ≤ countFields.length → (∀ t ∈ items, (valueOf? (maxDepth - 2) t).isSome) →
      CountsLegible (.list items)

/-- A document whose accounts can be read: it gives no field twice, its model and its error are values, and its counts can be read. -/
structure AccountsLegible (ms : List (Atom × Json.Tree)) : Prop where
  spells : Spells envelopeFields ms
  model : ∀ t, Tree.member? "model" (.table ms) = some t → (valueOf? (maxDepth - 1) t).isSome
  counts : ∀ t, Tree.member? "usage" (.table ms) = some t → CountsLegible t
  error : ∀ t, Tree.member? "error" (.table ms) = some t → (valueOf? (maxDepth - 1) t).isSome

namespace AccountsAux

variable {t : Json.Tree} {room : Nat} {name : String} {found : Found Atom} {ms : List (Atom × Json.Tree)}

/-! ## Values -/

/-- A value is read of an atom that says it, of a list as an array, or of a table as an object. -/
theorem cases_of_valueOf? {v : Value} (h : valueOf? room t = some v) :
    (∃ a, t = .leaf a ∧ a.value? = some v) ∨ (∃ items vs, t = .list items ∧ v = .array vs) ∨
      ∃ ms vs, t = .table ms ∧ v = .object vs := by
  cases t with
  | leaf a =>
    unfold valueOf? at h
    exact .inl ⟨a, rfl, h⟩
  | list items =>
    cases room with
    | zero => nomatch h
    | succ room =>
      unfold valueOf? at h
      obtain ⟨vs, -, rfl⟩ := Option.map_eq_some_iff.1 h
      exact .inr (.inl ⟨items, vs, rfl, rfl⟩)
  | table ms =>
    cases room with
    | zero => nomatch h
    | succ room =>
      unfold valueOf? at h
      obtain ⟨vs, -, rfl⟩ := Option.map_eq_some_iff.1 h
      exact .inr (.inr ⟨ms, _, rfl, rfl⟩)

/-- A value has the text of the tree that it was made of. -/
theorem text?_of_valueOf? {v : Value} (h : valueOf? room t = some v) : v.text? = t.text? := by
  obtain ⟨a, rfl, ha⟩ | ⟨items, vs, rfl, rfl⟩ | ⟨ms, vs, rfl, rfl⟩ := cases_of_valueOf? h
  · cases a with
    | null | bool =>
      obtain rfl := Option.some.inj ha
      rfl
    | number n =>
      obtain ⟨x, -, rfl⟩ := Option.map_eq_some_iff.1 ha
      rfl
    | text s =>
      obtain ⟨x, rfl, rfl⟩ := Option.map_eq_some_iff.1 ha
      rfl
    | halved => nomatch ha
  · rfl
  · rfl

/-- A value that may be missing is there when the tree has one. -/
theorem isSome_optional?_valueOf? : (t.optional? (valueOf? room)).isSome ↔ (valueOf? room t).isSome := by
  rcases t with (_ | _ | _ | _ | _) | _ | _ <;> simp [Tree.optional?, Scalar.isNull?, valueOf?, Atom.value?]

/-- A value that may be absent or null, and its text if it is one. -/
theorem exists_optionalValue? (h : ∀ t, found.get? name = some t → (valueOf? room t).isSome) :
    ∃ v, optionalValue? found name room = some v ∧ v.bind Value.text? = (found.get? name).bind Tree.text? := by
  unfold optionalValue? Found.optional? Found.getD
  cases hfound : found.get? name with
  | none => exact ⟨none, rfl, rfl⟩
  | some t =>
    obtain ⟨v, hv⟩ := Option.isSome_iff_exists.1 (h t hfound)
    have htext := text?_of_valueOf? hv
    dsimp only
    rcases t with (_ | _ | _ | _ | _) | _ | _
    · exact ⟨none, rfl, rfl⟩
    all_goals exact ⟨some v, by simp [Tree.optional?, Scalar.isNull?, hv], htext⟩

/-! ## Choices -/

/-- A message or a delta is read for its content. -/
theorem exists_readPart? (h : IsPart t) :
    ∃ content, t.optional? readPart? = some content ∧ content.join.bind Value.text? = contentText? t := by
  cases h with
  | null => exact ⟨none, rfl, rfl⟩
  | @table ms hs hcontent =>
    have hmember : Found.get? (given partFields ms).reverse "content" = Tree.member? "content" (.table ms) :=
      get?_eq_member? hs (by decide) (by decide)
    have hrecord : Tree.record? partFields (.table ms) = some (given partFields ms).reverse := record?_table.2 ⟨hs, rfl⟩
    rw [← hmember] at hcontent
    obtain ⟨v, hv, htext⟩ := exists_optionalValue? hcontent
    have hread : readPart? (.table ms) = some v := by
      unfold readPart?
      exact (congrArg (Option.bind · _) hrecord).trans hv
    rw [hmember] at htext
    exact ⟨some v, by simp [Tree.optional?, hread], htext⟩

/-- A field of a choice is read for the content of its part. -/
theorem exists_part? (h : ∀ t, found.get? name = some t → IsPart t) :
    ∃ content, found.optional? name readPart? = some content ∧
      content.join.bind Value.text? = (found.get? name).bind contentText? := by
  unfold Found.optional? Found.getD
  cases hfound : found.get? name with
  | none => exact ⟨none, rfl, rfl⟩
  | some t => exact exists_readPart? (h t hfound)

/-- A choice is read for its texts. -/
theorem exists_readChoice? (h : IsChoice t) :
    ∃ c, readChoice? t = some c ∧ ([c.message, c.delta].filterMap fun content => content.bind Value.text?) = textsOfChoice t := by
  cases h with
  | @table ms hs hparts =>
    have hmember : ∀ name ∈ choiceFields.map Field.name,
        Found.get? (given choiceFields ms).reverse name = Tree.member? name (.table ms) :=
      fun name hname => get?_eq_member? hs (by decide) hname
    have hread : ∀ name ∈ choiceFields.map Field.name, ∃ content,
        Found.optional? (given choiceFields ms).reverse name readPart? = some content ∧
          content.join.bind Value.text? = (Tree.member? name (.table ms)).bind contentText? := by
      intro name hname
      rw [← hmember name hname]
      exact exists_part? fun t ht => hparts name hname t (hmember name hname ▸ ht)
    have hrecord : Tree.record? choiceFields (.table ms) = some (given choiceFields ms).reverse := record?_table.2 ⟨hs, rfl⟩
    obtain ⟨message, hmessage, hmessageText⟩ := hread "message" (by decide)
    obtain ⟨delta, hdelta, hdeltaText⟩ := hread "delta" (by decide)
    refine ⟨{ message := message.join, delta := delta.join }, ?_, ?_⟩
    · unfold choiceFields at hrecord hmessage hdelta
      simp [readChoice?, hrecord, hmessage, hdelta]
    · unfold textsOfChoice
      simp [List.filterMap_cons, hmessageText, hdeltaText]

/-- Choices are read for their texts. -/
theorem exists_readChoices? {items : List Json.Tree} (h : ∀ t ∈ items, IsChoice t) :
    ∃ cs, items.mapM readChoice? = some cs ∧
      (cs.flatMap fun c => [c.message, c.delta].filterMap fun content => content.bind Value.text?) = items.flatMap textsOfChoice := by
  induction items with
  | nil => exact ⟨[], rfl, rfl⟩
  | cons t items ih =>
    obtain ⟨c, hc, htexts⟩ := exists_readChoice? (h t List.mem_cons_self)
    obtain ⟨cs, hcs, hrest⟩ := ih fun t ht => h t (List.mem_cons_of_mem _ ht)
    refine ⟨c :: cs, ?_, ?_⟩
    · simp [List.mapM_cons, hc, hcs]
    · rw [List.flatMap_cons, List.flatMap_cons, htexts, hrest]

/-! ## Counts -/

/-- A value under a name is read unless it is there and cannot be. -/
theorem isSome_optionalValue? :
    (optionalValue? found name room).isSome ↔ ∀ t, found.get? name = some t → (valueOf? room t).isSome := by
  unfold optionalValue?
  rw [Found.isSome_optional?]
  simp only [isSome_optional?_valueOf?]

/-- Counts are read from a record if all that is found of them are values. -/
theorem isSome_readCounts? (hrecord : Tree.record? countFields t = some found) (hd : found.Distinct)
    (hnames : ∀ g ∈ found, g.1 ∈ countFields.map Field.name) :
    (readCounts? t).isSome ↔ ∀ g ∈ found, (valueOf? (maxDepth - 2) g.2).isSome := by
  have hread : (readCounts? t).isSome ↔
      ∀ name ∈ countFields.map Field.name, (optionalValue? found name (maxDepth - 2)).isSome := by
    unfold countFields at hrecord
    unfold readCounts?
    rw [hrecord]
    simp only [countFields, List.map_cons, List.map_nil, List.forall_mem_cons, Option.bind_eq_bind, Option.bind_some]
    cases optionalValue? found "prompt_tokens" (maxDepth - 2) <;> cases optionalValue? found "completion_tokens" (maxDepth - 2) <;>
      cases optionalValue? found "total_tokens" (maxDepth - 2) <;> simp
  rw [hread, ← Found.forall_get? hd hnames fun t => (valueOf? (maxDepth - 2) t).isSome]
  simp only [isSome_optionalValue?]

theorem readCounts?_eq_none (hrecord : Tree.record? countFields t = none) : readCounts? t = none := by
  unfold countFields at hrecord
  unfold readCounts?
  rw [hrecord]
  rfl

/-- Counts can be read where they are legible, and only there. -/
theorem isSome_optional?_readCounts? : (t.optional? readCounts?).isSome ↔ CountsLegible t := by
  cases t with
  | leaf a =>
    constructor
    · intro h
      cases a with
      | null => exact .null
      | _ => exact nomatch h
    · rintro ⟨⟩
      rfl
  | list items =>
    have hrecord : Tree.record? countFields (.list items) = _ := record?_list rfl items
    show ((readCounts? (.list items)).map some).isSome ↔ _
    rw [Option.isSome_map]
    by_cases hlen : countFields.length < items.length
    · rw [if_pos hlen] at hrecord
      rw [readCounts?_eq_none hrecord]
      refine ⟨nofun, ?_⟩
      rintro (- | - | ⟨hle, -⟩)
      exact absurd hle (Nat.not_le_of_lt hlen)
    · rw [if_neg hlen] at hrecord
      have hle : items.length ≤ countFields.length := Nat.le_of_not_lt hlen
      have hitems : ((countFields.map Field.name).zip items).map Prod.snd = items := List.map_snd_zip hle
      rw [isSome_readCounts? hrecord (Found.distinct_zip (by decide) items) fun g hg => (List.of_mem_zip hg).1]
      have hall : (∀ g ∈ (countFields.map Field.name).zip items, (valueOf? (maxDepth - 2) g.2).isSome) ↔
          ∀ t ∈ items, (valueOf? (maxDepth - 2) t).isSome := by
        rw [← List.forall_mem_map (f := Prod.snd) (P := fun t => (valueOf? (maxDepth - 2) t).isSome), hitems]
      rw [hall]
      refine ⟨.list hle, ?_⟩
      rintro (- | - | ⟨-, h⟩)
      exact h
  | table ms =>
    show ((readCounts? (.table ms)).map some).isSome ↔ _
    rw [Option.isSome_map]
    by_cases hs : Spells countFields ms
    · have hrecord : Tree.record? countFields (.table ms) = some (given countFields ms).reverse := record?_table.2 ⟨hs, rfl⟩
      rw [isSome_readCounts? hrecord hs.distinct.reverse fun g hg => fst_mem_of_mem_given (List.mem_reverse.1 hg)]
      simp only [List.mem_reverse]
      refine ⟨.table hs, ?_⟩
      rintro (- | ⟨-, h⟩ | -)
      exact h
    · have hrecord : Tree.record? countFields (.table ms) = none :=
        Option.eq_none_iff_forall_ne_some.2 fun found hfound => hs (record?_table.1 hfound).1
      rw [readCounts?_eq_none hrecord]
      refine ⟨nofun, ?_⟩
      rintro (- | ⟨h, -⟩ | -)
      exact absurd h hs

/-! ## Documents -/

/-- What a document gives of a field is its member under the name of the field. -/
theorem get?_envelope (h : Spells envelopeFields ms) :
    ∀ name ∈ envelopeFields.map Field.name, Found.get? (given envelopeFields ms).reverse name = Tree.member? name (.table ms) :=
  fun _ hname => get?_eq_member? h (by decide) hname

/-- A document that can be read has accounts that can. -/
theorem accountsLegible_of_readEnvelope? {e : Envelope} (h : readEnvelope? (.table ms) = some e) : AccountsLegible ms := by
  unfold readEnvelope? at h
  obtain ⟨r, hr, h⟩ := Option.bind_eq_some_iff.1 h
  obtain ⟨hs, rfl⟩ := record?_table.1 hr
  obtain ⟨model, hmodel, h⟩ := Option.bind_eq_some_iff.1 h
  obtain ⟨choices, -, h⟩ := Option.bind_eq_some_iff.1 h
  obtain ⟨counts, hcounts, h⟩ := Option.bind_eq_some_iff.1 h
  obtain ⟨error, herror, -⟩ := Option.bind_eq_some_iff.1 h
  have hmember := get?_envelope hs
  refine ⟨hs, fun t ht => ?_, fun t ht => ?_, fun t ht => ?_⟩
  · exact isSome_optionalValue?.1 (Option.isSome_of_eq_some hmodel) t ((hmember "model" (by decide)).trans ht)
  · exact isSome_optional?_readCounts?.1
      (Found.isSome_optional?.1 (Option.isSome_of_eq_some hcounts) t ((hmember "usage" (by decide)).trans ht))
  · exact isSome_optionalValue?.1 (Option.isSome_of_eq_some herror) t ((hmember "error" (by decide)).trans ht)

/-- A document whose accounts can be read is read for the texts of its choices. -/
theorem exists_readEnvelope? {c : Json.Tree} (ha : AccountsLegible ms) (hc : Tree.member? "choices" (.table ms) = some c)
    (hs : IsChoices c) : ∃ e, readEnvelope? (.table ms) = some e ∧ e.contents = textsOf c := by
  have hmember := get?_envelope ha.spells
  have hrecord : Tree.record? envelopeFields (.table ms) = some (given envelopeFields ms).reverse := record?_table.2 ⟨ha.spells, rfl⟩
  obtain ⟨model, hmodel⟩ := Option.isSome_iff_exists.1 (isSome_optionalValue?.2 fun t ht =>
    ha.model t ((hmember "model" (by decide)).symm.trans ht))
  obtain ⟨counts, hcounts⟩ := Option.isSome_iff_exists.1 (Found.isSome_optional?.2 fun t ht =>
    isSome_optional?_readCounts?.2 (ha.counts t ((hmember "usage" (by decide)).symm.trans ht)))
  obtain ⟨error, herror⟩ := Option.isSome_iff_exists.1 (isSome_optionalValue?.2 fun t ht =>
    ha.error t ((hmember "error" (by decide)).symm.trans ht))
  obtain @⟨items, hitems⟩ := hs
  obtain ⟨cs, hcs, htexts⟩ := exists_readChoices? hitems
  have hchoices : Found.optional? (given envelopeFields ms).reverse "choices" (Tree.listOf? readChoice?) = some (some cs) := by
    unfold Found.optional? Found.getD
    rw [hmember "choices" (by decide), hc]
    show ((items.mapM readChoice?).map some) = _
    rw [hcs]
    rfl
  refine ⟨{ model, choices := cs, counts, error }, ?_, htexts⟩
  unfold envelopeFields at hrecord hmodel hcounts herror hchoices
  unfold readEnvelope?
  simp [hrecord, hmodel, hcounts, herror, hchoices]

/-- The text of an envelope is that of its contents together. -/
theorem text_eq_join (e : Envelope) : e.text = String.join e.contents := by
  have h := wholeText_eq [e]
  simpa [wholeText] using h

variable {body : Bytes} {c : Json.Tree}

/-- A document with choices whose accounts can be read is read for the texts of the choices. -/
theorem text_of_legible (h : read? body = some (.table ms)) (hc : Tree.member? "choices" (.table ms) = some c) (hs : IsChoices c)
    (ha : AccountsLegible ms) : (assistantText body).1 = String.join (textsOf c) := by
  obtain ⟨e, he, hcontents⟩ := exists_readEnvelope? ha hc hs
  have hdoc : parseEnvelope? body = some e := by
    unfold parseEnvelope?
    rw [h]
    exact he
  unfold assistantText
  rw [hdoc, streamEnvelopes_of_read? h, ← hcontents, ← text_eq_join]
  by_cases htext : e.text = ""
  · simp [htext]
  · simp [htext]

/-- A document whose accounts cannot be read has no text. -/
theorem text_of_illegible (h : read? body = some (.table ms)) (ha : ¬ AccountsLegible ms) : (assistantText body).1 = "" := by
  have hnone : parseEnvelope? body = none := by
    unfold parseEnvelope?
    rw [h, Option.bind_some, Option.eq_none_iff_forall_ne_some]
    exact fun e he => ha (accountsLegible_of_readEnvelope? he)
  unfold assistantText
  rw [hnone, streamEnvelopes_of_read? h]
  rfl

/-- Members that have values each have one. -/
theorem isSome_valueOf?_of_membersOf? {l : List (String × Value)} (h : membersOf? room ms = some l) :
    ∀ m ∈ ms, (valueOf? room m.2).isSome := by
  induction ms generalizing l with
  | nil => exact nofun
  | cons m ms ih =>
    obtain ⟨key, t⟩ := m
    unfold membersOf? at h
    split at h
    · obtain ⟨v, hv, h⟩ := Option.bind_eq_some_iff.1 h
      obtain ⟨rest, hrest, -⟩ := Option.map_eq_some_iff.1 h
      exact List.forall_mem_cons.2 ⟨Option.isSome_of_eq_some hv, ih hrest⟩
    · nomatch h

theorem mem_of_member? (h : Tree.member? name (.table ms) = some t) : ∃ m ∈ ms, m.2 = t := by
  obtain ⟨m, hm, rfl⟩ := Option.map_eq_some_iff.1 h
  exact ⟨m, List.mem_of_find?_eq_some hm, rfl⟩

/-- Where the whole body is a value that gives no field twice, only the counts may be beyond reading. -/
theorem accountsLegible_iff (h : read? body = some (.table ms)) (hv : (parse? body).isSome) (hs : Spells envelopeFields ms) :
    AccountsLegible ms ↔ ∀ t, Tree.member? "usage" (.table ms) = some t → CountsLegible t := by
  have hvalues : ∀ m ∈ ms, (valueOf? (maxDepth - 1) m.2).isSome := by
    unfold parse? at hv
    rw [h] at hv
    obtain ⟨v, hv⟩ := Option.isSome_iff_exists.1 hv
    obtain ⟨l, hl, -⟩ := Option.map_eq_some_iff.1 hv
    exact isSome_valueOf?_of_membersOf? hl
  have hmember : ∀ name t, Tree.member? name (.table ms) = some t → (valueOf? (maxDepth - 1) t).isSome := by
    intro name t ht
    obtain ⟨m, hm, rfl⟩ := mem_of_member? ht
    exact hvalues m hm
  exact ⟨AccountsLegible.counts, fun hc => ⟨hs, hmember "model", hc, hmember "error"⟩⟩

end AccountsAux

open AccountsAux

/-- The text of a document with choices is that of the choices where its accounts can be read, and none where they cannot. So two documents
with the same choices have the same text just where these say nothing or both documents can be read or neither. Of a document that is a
value and gives no field twice, the model, the error and all members that nothing reads may be anything: it is the counts that decide. -/
theorem text_depends_on_counts {body body' : Bytes} {ms ms' : List (Atom × Json.Tree)} {c : Json.Tree}
    (h : read? body = some (.table ms)) (h' : read? body' = some (.table ms')) (hc : Tree.member? "choices" (.table ms) = some c)
    (hc' : Tree.member? "choices" (.table ms') = some c) (hs : IsChoices c) :
    (AccountsLegible ms → (assistantText body).1 = String.join (textsOf c)) ∧
      (¬ AccountsLegible ms → (assistantText body).1 = "") ∧
      ((assistantText body).1 = (assistantText body').1 ↔
        String.join (textsOf c) = "" ∨ (AccountsLegible ms ↔ AccountsLegible ms')) ∧
      ((parse? body).isSome → Spells envelopeFields ms →
        (AccountsLegible ms ↔ ∀ t, Tree.member? "usage" (.table ms) = some t → CountsLegible t)) := by
  refine ⟨text_of_legible h hc hs, text_of_illegible h, ?_, accountsLegible_iff h⟩
  by_cases ha : AccountsLegible ms <;> by_cases ha' : AccountsLegible ms'
  · simp [text_of_legible h hc hs ha, text_of_legible h' hc' hs ha', ha, ha']
  · simp [text_of_legible h hc hs ha, text_of_illegible h' ha', ha, ha']
  · rw [text_of_illegible h ha, text_of_legible h' hc' hs ha', eq_comm]
    simp [ha, ha']
  · simp [text_of_illegible h ha, text_of_illegible h' ha', ha, ha']

namespace AccountsAux

/-- One choice that says a word. -/
def oneChoice : Json.Tree :=
  .list [.table [(.text (some "message"), .table [(.text (some "content"), .leaf (.text (some "hi")))]), (.text (some "delta"), .leaf .null)]]

theorem isChoices_oneChoice : IsChoices oneChoice := by
  refine .list fun t ht => ?_
  obtain rfl := List.mem_singleton.1 ht
  refine .table (by decide) fun name hname t ht => ?_
  simp only [choiceFields, List.map_cons, List.map_nil, List.mem_cons, List.not_mem_nil, or_false] at hname
  rcases hname with rfl | rfl
  · obtain rfl := Option.some.inj ht
    refine .table (by decide) fun t ht => ?_
    obtain rfl := Option.some.inj ht
    rfl
  · obtain rfl := Option.some.inj ht
    exact .null

/-- A document with that choice, an error that is a list, and a count under its other name that is no number. -/
def oddAccounts : List (Atom × Json.Tree) :=
  [(.text (some "choices"), oneChoice), (.text (some "error"), .list [.leaf .null]),
    (.text (some "usage"), .table [(.text (some "input_tokens"), .leaf (.text (some "x")))])]

/-- A document with that choice and a count under both of its names. -/
def countedTwice : List (Atom × Json.Tree) :=
  [(.text (some "usage"), .table [(.text (some "prompt_tokens"), .leaf (.number (some (.integer 1)))),
    (.text (some "input_tokens"), .leaf (.number (some (.integer 1))))]), (.text (some "choices"), oneChoice)]

theorem read?_oddAccounts : read? (Bytes.ofText ("\x7b\"choices\":[\x7b\"message\":\x7b\"content\":\"hi\"\x7d,\"delta\":null\x7d]," ++
    "\"error\":[null],\"usage\":\x7b\"input_tokens\":\"x\"\x7d\x7d")) = some (.table oddAccounts) := rfl

theorem read?_countedTwice : read? (Bytes.ofText ("\x7b\"usage\":\x7b\"prompt_tokens\":1,\"input_tokens\":1\x7d," ++
    "\"choices\":[\x7b\"message\":\x7b\"content\":\"hi\"\x7d,\"delta\":null\x7d]\x7d")) = some (.table countedTwice) := rfl

/-- A document with that choice alone. -/
def plainChoice : List (Atom × Json.Tree) := [(.text (some "choices"), oneChoice)]

/-- A document with that choice, whose counts are a number. -/
def numberForCounts : List (Atom × Json.Tree) :=
  [(.text (some "choices"), oneChoice), (.text (some "usage"), .leaf (.number (some (.integer 7))))]

end AccountsAux

/-- An error and a count that are no texts and no numbers cost nothing, and a count given under both of its names costs the text. -/
theorem text_depends_on_counts_under_two_names :
    ∃ body body', read? body = some (.table oddAccounts) ∧ read? body' = some (.table countedTwice) ∧
      Tree.member? "choices" (.table oddAccounts) = some oneChoice ∧ Tree.member? "choices" (.table countedTwice) = some oneChoice ∧
      IsChoices oneChoice ∧ (assistantText body).1 = "hi" ∧ (assistantText body').1 ≠ "hi" := by
  obtain ⟨hlegible, -, hsame, hcounts⟩ := text_depends_on_counts read?_oddAccounts read?_countedTwice rfl rfl isChoices_oneChoice
  have hodd : AccountsLegible oddAccounts := by
    refine (hcounts (by decide +kernel) (by decide)).2 fun t ht => ?_
    obtain rfl := Option.some.inj ht
    refine .table (by decide) fun g hg => ?_
    obtain rfl := List.mem_singleton.1 hg
    rfl
  have htwice : ¬ AccountsLegible countedTwice := by
    intro h
    cases h.counts _ rfl with
    | table hs => exact absurd hs (by decide)
  have hjoin : String.join (textsOf oneChoice) = "hi" := by decide
  have htext := (hlegible hodd).trans hjoin
  refine ⟨_, _, read?_oddAccounts, read?_countedTwice, rfl, rfl, isChoices_oneChoice, htext, fun h => ?_⟩
  rcases hsame.1 (htext.trans h.symm) with hnone | hiff
  · rw [hjoin] at hnone
    nomatch hnone
  · exact htwice (hiff.1 hodd)

/-- Counts that are a number cost a reply its text. -/
theorem text_lost_to_counts :
    ¬ ∀ (body body' : Bytes) (ms ms' : List (Atom × Json.Tree)) (c : Json.Tree),
      read? body = some (.table ms) → read? body' = some (.table ms') → (parse? body).isSome → (parse? body').isSome →
        Spells envelopeFields ms → Spells envelopeFields ms' → Tree.member? "choices" (.table ms) = some c →
          Tree.member? "choices" (.table ms') = some c → IsChoices c →
            (assistantText body).1 = (assistantText body').1 ∧ (assistantText body').1 = String.join (textsOf c) := by
  intro h
  have hboth := h (Bytes.ofText "\x7b\"choices\":[\x7b\"message\":\x7b\"content\":\"hi\"\x7d,\"delta\":null\x7d]\x7d")
    (Bytes.ofText "\x7b\"choices\":[\x7b\"message\":\x7b\"content\":\"hi\"\x7d,\"delta\":null\x7d],\"usage\":7\x7d")
    plainChoice numberForCounts oneChoice rfl rfl (by decide +kernel) (by decide +kernel) (by decide) (by decide) rfl rfl
    isChoices_oneChoice
  exact absurd hboth.1 (by decide +kernel)

end InferenceGate.Reply
