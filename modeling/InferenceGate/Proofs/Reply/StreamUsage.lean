import InferenceGate.Proofs.Decimal.Exact
import InferenceGate.Proofs.Document.Fields
import InferenceGate.Proofs.Reply.Accounts

/-!
# The accounts of a stream

Of the blocks of a stream one decides what is said for the accounts: the last document of a reply with counts, or the last one where none
has counts (`Decides`). All of the summary is read of that block, each count of the tree of the document under either of its names
(`stream_usage`), so that no block before or after it has a part in it.
-/

namespace InferenceGate.Reply

open Json Document

/-- The block of a stream that decides, and the document that it spells: the last with counts, or the last of all where none has counts. -/
inductive Decides (blocks : List Bytes) (b : Bytes) (e : Envelope) : Prop where
  | counted {before after : List Bytes} : blocks = before ++ b :: after → parseEnvelope? b = some e → e.counts.isSome →
      (∀ b' ∈ after, ∀ e', parseEnvelope? b' = some e' → e'.counts = none) → Decides blocks b e
  | uncounted {before after : List Bytes} : blocks = before ++ b :: after → parseEnvelope? b = some e →
      (∀ b' ∈ blocks, ∀ e', parseEnvelope? b' = some e' → e'.counts = none) → (∀ b' ∈ after, parseEnvelope? b' = none) →
      Decides blocks b e

/-- The tokens that a tree tells: a number without its fraction, not below zero and up to the greatest unsigned word. -/
def tokensOf? : Json.Tree → Option Nat
  | .leaf (.number (some n)) => some (min ⌊n.exact⌋₊ maxU64)
  | _ => none

/-- The tokens that the counts of a document tell at a place among the counts, under one of some names. -/
def countOf? (t : Json.Tree) (place : Nat) (names : List String) : Option Nat :=
  ((t.field? 2 ["usage"]).bind (·.field? place names)).bind tokensOf?

/-- The tokens of the prompt that a document tells. -/
def inputOf? (t : Json.Tree) : Option Nat := countOf? t 0 ["prompt_tokens", "input_tokens"]

/-- The tokens of the completion that a document tells. -/
def outputOf? (t : Json.Tree) : Option Nat := countOf? t 1 ["completion_tokens", "output_tokens"]

/-- The tokens of all that a document tells. -/
def allOf? (t : Json.Tree) : Option Nat := countOf? t 2 ["total_tokens"]

/-- The total of counts: the count of all, or else the sum of the two others where both are there, up to the greatest unsigned word. -/
def totalOf (all input output : Option Nat) : Nat :=
  match all, input, output with
  | some n, _, _ => n
  | none, some i, some o => min (i + o) maxU64
  | none, _, _ => 0

namespace StreamUsageAux

variable {t : Json.Tree} {e e' : Envelope} {c : Counts} {blocks before after : List Bytes} {b : Bytes}

/-! ## The block that decides -/

/-- Of a list the last member with a property parts it. -/
theorem exists_last {α : Type} {p : α → Prop} {l : List α} (h : ∃ a ∈ l, p a) :
    ∃ before a after, l = before ++ a :: after ∧ p a ∧ ∀ b ∈ after, ¬ p b := by
  induction l with
  | nil =>
    obtain ⟨a, ha, -⟩ := h
    nomatch ha
  | cons a l ih =>
    by_cases hlater : ∃ b ∈ l, p b
    · obtain ⟨before, b, after, rfl, hb, hafter⟩ := ih hlater
      exact ⟨a :: before, b, after, rfl, hb, hafter⟩
    · obtain ⟨c, hc, hp⟩ := h
      have hnone : ∀ b ∈ l, ¬ p b := fun b hb hpb => hlater ⟨b, hb, hpb⟩
      rcases List.mem_cons.1 hc with rfl | hc
      · exact ⟨[], c, l, rfl, hp, hnone⟩
      · exact absurd hp (hnone c hc)

/-- Where a block spells a document of a reply, one block decides. -/
theorem exists_decides (h : ∃ b ∈ blocks, (parseEnvelope? b).isSome) : ∃ b e, Decides blocks b e := by
  by_cases hcounted : ∃ b ∈ blocks, ∃ e, parseEnvelope? b = some e ∧ e.counts.isSome
  · obtain ⟨before, b, after, hblocks, ⟨e, he, hcounts⟩, hafter⟩ := exists_last hcounted
    refine ⟨b, e, .counted hblocks he hcounts fun b' hb' e' he' => ?_⟩
    exact Option.not_isSome_iff_eq_none.1 fun hsome => hafter b' hb' ⟨e', he', hsome⟩
  · obtain ⟨before, b, after, hblocks, hsome, hafter⟩ := exists_last h
    obtain ⟨e, he⟩ := Option.isSome_iff_exists.1 hsome
    refine ⟨b, e, .uncounted hblocks he (fun b' hb' e' he' => ?_) fun b' hb' => Option.not_isSome_iff_eq_none.1 (hafter b' hb')⟩
    exact Option.not_isSome_iff_eq_none.1 fun hsome => hcounted ⟨b', hb', e', he', hsome⟩

/-- The block that decides spells its document. -/
theorem parseEnvelope?_of_decides (h : Decides blocks b e) : parseEnvelope? b = some e := by
  cases h with
  | counted _ he => exact he
  | uncounted _ he => exact he

/-- The document of the block that decides is the decisive one. -/
theorem decisive?_eq (h : Decides blocks b e) : decisive? (blocks.filterMap parseEnvelope?) = some e := by
  unfold decisive?
  cases h with
  | @counted before after hblocks he hcounts hafter =>
    have hlater : (after.filterMap parseEnvelope?).filter (fun e => e.counts.isSome) = [] := by
      refine List.filter_eq_nil_iff.2 fun e' he' => ?_
      obtain ⟨b', hb', he'⟩ := List.mem_filterMap.1 he'
      simp [hafter b' hb' e' he']
    rw [hblocks, List.filterMap_append, List.filterMap_cons_some he, List.filter_append, List.filter_cons, if_pos hcounts, hlater,
      List.getLast?_append]
    rfl
  | @uncounted before after hblocks he hnone hafter =>
    have hcounts : ∀ e' ∈ blocks.filterMap parseEnvelope?, e'.counts = none := by
      intro e' he'
      obtain ⟨b', hb', he'⟩ := List.mem_filterMap.1 he'
      exact hnone b' hb' e' he'
    have hcounted : (blocks.filterMap parseEnvelope?).filter (fun e => e.counts.isSome) = [] :=
      List.filter_eq_nil_iff.2 fun e' he' => by simp [hcounts e' he']
    have huncounted : (blocks.filterMap parseEnvelope?).filter (fun e => e.counts.isNone) = blocks.filterMap parseEnvelope? :=
      List.filter_eq_self.2 fun e' he' => by simp [hcounts e' he']
    have hlater : after.filterMap parseEnvelope? = [] := List.filterMap_eq_nil_iff.2 hafter
    rw [hcounted, huncounted, hblocks, List.filterMap_append, List.filterMap_cons_some he, hlater, List.getLast?_concat]
    rfl

/-! ## The counts of a document -/

/-- What may be absent is null or read. -/
theorem optional?_eq_some {β : Type} {read : Json.Tree → Option β} {v : Option β} (h : t.optional? read = some v) :
    (t = .leaf .null ∧ v = none) ∨ ∃ w, read t = some w ∧ v = some w := by
  rcases t with (_ | _ | _ | _ | _) | _ | _
  · exact .inl ⟨rfl, (Option.some.inj h).symm⟩
  all_goals
    obtain ⟨w, hw, rfl⟩ := Option.map_eq_some_iff.1 h
    exact .inr ⟨w, hw, rfl⟩

/-- A number counts as the floor of what it is exactly. -/
theorem count?_number (n : Number) : count? (.number n) = some (min ⌊n.exact⌋₊ maxU64) := by
  cases n with
  | integer n =>
    have hfloor : n.toNat = ⌊(n : ℚ)⌋₊ := by rw [← Int.floor_toNat, Int.floor_intCast]
    show some (min n.toNat maxU64) = some (min ⌊(n : ℚ)⌋₊ maxU64)
    rw [hfloor]
  | real x => exact congrArg some x.clampU64_truncate

/-- A value counts as what its tree tells. -/
theorem count?_of_valueOf? {room : Nat} {v : Value} (h : valueOf? room t = some v) : count? v = tokensOf? t := by
  obtain ⟨a, rfl, ha⟩ | ⟨items, vs, rfl, rfl⟩ | ⟨ms, vs, rfl, rfl⟩ := AccountsAux.cases_of_valueOf? h
  · cases a with
    | null | bool =>
      obtain rfl := Option.some.inj ha
      rfl
    | number n =>
      obtain ⟨x, rfl, rfl⟩ := Option.map_eq_some_iff.1 ha
      exact count?_number x
    | text s =>
      obtain ⟨x, rfl, rfl⟩ := Option.map_eq_some_iff.1 ha
      rfl
    | halved => nomatch ha
  · rfl
  · rfl

/-- A value that may be absent or null counts as what its tree tells. -/
theorem count?_of_optionalValue? {found : Found Atom} {name : String} {room : Nat} {v : Option Value}
    (h : optionalValue? found name room = some v) : v.bind count? = (found.get? name).bind tokensOf? := by
  unfold optionalValue? Found.optional? Found.getD at h
  cases hfound : found.get? name with
  | none =>
    rw [hfound] at h
    obtain rfl := Option.some.inj h
    rfl
  | some t =>
    rw [hfound] at h
    obtain ⟨rfl, rfl⟩ | ⟨w, hw, rfl⟩ := optional?_eq_some h
    · rfl
    · exact count?_of_valueOf? hw

/-- Counts are read under either of their names. -/
theorem counts_of_readCounts? {u : Json.Tree} (h : readCounts? u = some c) :
    c.input.bind count? = (u.field? 0 ["prompt_tokens", "input_tokens"]).bind tokensOf? ∧
      c.output.bind count? = (u.field? 1 ["completion_tokens", "output_tokens"]).bind tokensOf? ∧
      c.total.bind count? = (u.field? 2 ["total_tokens"]).bind tokensOf? := by
  unfold readCounts? at h
  obtain ⟨r, hr, h⟩ := Option.bind_eq_some_iff.1 h
  obtain ⟨input, hinput, h⟩ := Option.bind_eq_some_iff.1 h
  obtain ⟨output, houtput, h⟩ := Option.bind_eq_some_iff.1 h
  obtain ⟨total, htotal, h⟩ := Option.bind_eq_some_iff.1 h
  obtain rfl := Option.some.inj h
  have hrecord : u.record? countFields = some r := hr
  have hapart : NamesApart countFields := by decide
  rw [count?_of_optionalValue? hinput, count?_of_optionalValue? houtput, count?_of_optionalValue? htotal]
  exact ⟨congrArg (Option.bind · tokensOf?) (get?_record? 0 rfl hapart rfl hrecord),
    congrArg (Option.bind · tokensOf?) (get?_record? 1 rfl hapart rfl hrecord),
    congrArg (Option.bind · tokensOf?) (get?_record? 2 rfl hapart rfl hrecord)⟩

/-- The counts of a document of a reply are what its tree tells of them. -/
theorem counts_of_readEnvelope? (h : readEnvelope? t = some e) :
    (e.counts.bind Counts.input).bind count? = inputOf? t ∧ (e.counts.bind Counts.output).bind count? = outputOf? t ∧
      (e.counts.bind Counts.total).bind count? = allOf? t := by
  unfold readEnvelope? at h
  obtain ⟨r, hr, h⟩ := Option.bind_eq_some_iff.1 h
  obtain ⟨model, -, h⟩ := Option.bind_eq_some_iff.1 h
  obtain ⟨choices, -, h⟩ := Option.bind_eq_some_iff.1 h
  obtain ⟨counts, hcounts, h⟩ := Option.bind_eq_some_iff.1 h
  obtain ⟨error, -, h⟩ := Option.bind_eq_some_iff.1 h
  obtain rfl := Option.some.inj h
  have hrecord : t.record? envelopeFields = some r := hr
  have hapart : NamesApart envelopeFields := by decide
  have husage : r.get? "usage" = t.field? 2 ["usage"] := get?_record? 2 rfl hapart rfl hrecord
  unfold inputOf? outputOf? allOf? countOf?
  unfold Found.optional? Found.getD at hcounts
  rw [husage] at hcounts
  cases hfield : t.field? 2 ["usage"] with
  | none =>
    rw [hfield] at hcounts
    obtain rfl := Option.some.inj hcounts
    exact ⟨rfl, rfl, rfl⟩
  | some u =>
    rw [hfield] at hcounts
    obtain ⟨rfl, rfl⟩ | ⟨c, hc, rfl⟩ := optional?_eq_some hcounts
    · exact ⟨rfl, rfl, rfl⟩
    · exact counts_of_readCounts? hc

/-! ## The summary -/

/-- The summary of a document with nothing before it: its counts, zero where it tells none, and its names. -/
theorem apply_eq (h : readEnvelope? t = some e) :
    ({} : Summary).apply e =
      { input := (inputOf? t).getD 0, output := (outputOf? t).getD 0, total := totalOf (allOf? t) (inputOf? t) (outputOf? t)
        model := e.modelName?, error := e.errorMessage? } := by
  obtain ⟨hinput, houtput, htotal⟩ := counts_of_readEnvelope? h
  rw [← hinput, ← houtput, ← htotal]
  unfold Summary.apply Summary.withNames
  cases e.counts with
  | none => simp [totalOf]
  | some c =>
    simp only [Option.or_none]
    rfl

/-- Equal counts tell the same of each count. -/
theorem told_congr {t' : Json.Tree} (h : readEnvelope? t = some e) (h' : readEnvelope? t' = some e') (hcounts : e'.counts = e.counts) :
    inputOf? t' = inputOf? t ∧ outputOf? t' = outputOf? t ∧ allOf? t' = allOf? t := by
  obtain ⟨hinput, houtput, htotal⟩ := counts_of_readEnvelope? h
  obtain ⟨hinput', houtput', htotal'⟩ := counts_of_readEnvelope? h'
  rw [hcounts] at hinput' houtput' htotal'
  exact ⟨hinput'.symm.trans hinput, houtput'.symm.trans houtput, htotal'.symm.trans htotal⟩

/-- A document that tells a count is summed up by itself. -/
theorem usage_of_told {doc : Bytes} (hread : read? doc = some t) (he : readEnvelope? t = some e)
    (htold : (inputOf? t).isSome ∨ (outputOf? t).isSome ∨ (allOf? t).isSome) : usage doc = ({} : Summary).apply e := by
  have hparse : parseEnvelope? doc = some e := by
    unfold parseEnvelope?
    rw [hread, Option.bind_some, he]
  have hcounter : e.counts.any Counts.hasCounter = true := by
    obtain ⟨hinput, houtput, htotal⟩ := counts_of_readEnvelope? he
    rw [← hinput, ← houtput, ← htotal] at htold
    cases hcounts : e.counts with
    | none =>
      rw [hcounts] at htold
      simp at htold
    | some c =>
      rw [hcounts] at htold
      show c.hasCounter = true
      unfold Counts.hasCounter
      rw [Bool.or_eq_true, Bool.or_eq_true, or_assoc]
      exact htold
  unfold usage
  rw [hparse]
  exact if_pos hcounter

end StreamUsageAux

open StreamUsageAux

/-- Of a body that is no document of a reply, the block that decides is all that is summed up: the counts that its document tells, their
total, its model and its error. One decides as soon as a block spells a document, and with none there is nothing to sum up. A document
with the counts of that block, alone in a body, comes to the same three counts if it tells one. -/
theorem stream_usage {body : Bytes} (h : parseEnvelope? body = none) :
    (∀ b e, Decides (dataBlocks body) b e → ∃ t, read? b = some t ∧ readEnvelope? t = some e ∧
        usage body =
          { input := (inputOf? t).getD 0, output := (outputOf? t).getD 0, total := totalOf (allOf? t) (inputOf? t) (outputOf? t)
            model := e.modelName?, error := e.errorMessage? } ∧
        ∀ doc e', parseEnvelope? doc = some e' → e'.counts = e.counts →
          ((inputOf? t).isSome ∨ (outputOf? t).isSome ∨ (allOf? t).isSome) →
          (usage doc).input = (usage body).input ∧ (usage doc).output = (usage body).output ∧
            (usage doc).total = (usage body).total) ∧
      ((∃ b ∈ dataBlocks body, (parseEnvelope? b).isSome) → ∃ b e, Decides (dataBlocks body) b e) ∧
      ((∀ b ∈ dataBlocks body, parseEnvelope? b = none) → usage body = {}) := by
  have hstream : usage body = ((decisive? ((dataBlocks body).filterMap parseEnvelope?)).map ({} : Summary).apply).getD {} := by
    unfold usage
    rw [h, StreamedAux.streamEnvelopes_eq]
    rfl
  refine ⟨fun b e hdecides => ?_, exists_decides, fun hnone => ?_⟩
  · obtain ⟨t, hread, he⟩ : ∃ t, read? b = some t ∧ readEnvelope? t = some e :=
      Option.bind_eq_some_iff.1 (parseEnvelope?_of_decides hdecides)
    have hbody : usage body = ({} : Summary).apply e := by
      rw [hstream, decisive?_eq hdecides]
      rfl
    refine ⟨t, hread, he, hbody.trans (apply_eq he), fun doc e' hdoc hcounts htold => ?_⟩
    obtain ⟨t', hread', he'⟩ : ∃ t', read? doc = some t' ∧ readEnvelope? t' = some e' := Option.bind_eq_some_iff.1 hdoc
    obtain ⟨hinput, houtput, hall⟩ := told_congr he he' hcounts
    have htold' : (inputOf? t').isSome ∨ (outputOf? t').isSome ∨ (allOf? t').isSome := by rwa [hinput, houtput, hall]
    rw [hbody, usage_of_told hread' he' htold', apply_eq he, apply_eq he', hinput, houtput, hall]
    exact ⟨rfl, rfl, rfl⟩
  · rw [hstream, List.filterMap_eq_nil_iff.2 hnone]
    rfl

/-- Of five blocks the second decides: counts stand before it too, and after it what is no document, a document without counts and the mark
of the end. Its counts stand under names of both kinds, one with a fraction and one beyond the words, and a document that has them under
the other names comes to the same. -/
theorem stream_usage_five_blocks :
    ∃ body doc : Bytes, parseEnvelope? body = none ∧ (dataBlocks body).length = 5 ∧
      usage body = { input := 2, output := maxU64, total := maxU64, model := some "m", error := some "cut" } ∧
      (usage doc).input = 2 ∧ (usage doc).output = maxU64 ∧ (usage doc).total = maxU64 := by
  let first := Bytes.ofText "\x7b\"model\":\"early\",\"usage\":\x7b\"prompt_tokens\":1,\"total_tokens\":9\x7d\x7d"
  let second := Bytes.ofText
    "\x7b\"model\":\" m \",\"usage\":\x7b\"input_tokens\":2.75,\"completion_tokens\":1e30\x7d,\"error\":\x7b\"message\":\"cut\"\x7d\x7d"
  let third := Bytes.ofText "no document"
  let fourth := Bytes.ofText "\x7b\"model\":\"late\",\"usage\":null,\"error\":\"late\"\x7d"
  let body := [first, second, third, fourth, doneMark].flatMap fun block => Bytes.ofText "data: " ++ block ++ Bytes.ofText "\n\n"
  let doc := Bytes.ofText "\x7b\"usage\":\x7b\"prompt_tokens\":2.75,\"output_tokens\":1e30,\"total_tokens\":null\x7d\x7d"
  have hblocks : dataBlocks body = [first] ++ second :: [third, fourth, doneMark] := by decide +kernel
  have hbody : parseEnvelope? body = none := rfl
  have hdecides : Decides (dataBlocks body) second ((parseEnvelope? second).get rfl) := by
    refine .counted hblocks (Option.some_get _).symm rfl fun b hb e he => ?_
    simp only [List.mem_cons, List.not_mem_nil, or_false] at hb
    rcases hb with rfl | rfl | rfl
    · nomatch he
    · obtain rfl := Option.some.inj he
      rfl
    · nomatch he
  obtain ⟨t, hread, -, husage, halone⟩ := (stream_usage hbody).1 _ _ hdecides
  obtain rfl : (read? second).get rfl = t := Option.get_of_eq_some _ hread
  have hsum : usage body = { input := 2, output := maxU64, total := maxU64, model := some "m", error := some "cut" } :=
    husage.trans (by decide +kernel)
  obtain ⟨hinput, houtput, htotal⟩ := halone doc ((parseEnvelope? doc).get rfl) (Option.some_get _).symm rfl
    (.inl (by decide +kernel))
  rw [hsum] at hinput houtput htotal
  exact ⟨body, doc, hbody, by rw [hblocks]; rfl, hsum, hinput, houtput, htotal⟩

end InferenceGate.Reply
