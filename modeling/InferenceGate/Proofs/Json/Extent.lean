import InferenceGate.Json.Reading
import InferenceGate.Proofs.Text.Blanks
import InferenceGate.Proofs.Text.Pieces

/-!
# How far a document reaches

A document that is a list or a table ends with its last bracket: after it nothing but white space may come, so no beginning of it that
stops short of the bracket is a document (`isSpace_of_read?_append`). And where a line ends within a document the reader stands between
two tokens, for neither strings nor numbers nor words hold a line feed; so what a line begins with is the beginning of a token
(`start_of_read?`).
-/

namespace InferenceGate.Json

open Document

/-- A list or a table. -/
def IsCompound (t : Tree) : Prop := ∀ a, t ≠ .leaf a

/-- A token taken by a builder: one could come, and the whole tree is as it was, unless it is read now and nothing more may come. -/
structure Builder.Advances (b b' : Builder) : Prop where
  awaited : b.expect ≠ .nothing
  outcome : b'.result = b.result ∨ b'.frames = [] ∧ b'.expect = .nothing

/-- Once the whole tree is read, nothing is open and nothing may come. -/
def Builder.Orderly (b : Builder) : Prop := b.result ≠ none → b.frames = [] ∧ b.expect = .nothing

/-- A builder that was in order stays so. -/
theorem Builder.Advances.orderly {b b' : Builder} (h : b.Advances b') (ho : b.Orderly) : b'.Orderly := by
  intro hr
  rcases h.outcome with hsame | hdone
  · exact absurd (ho (hsame ▸ hr)).2 h.awaited
  · exact hdone

/-- What is read of bytes after others is read from where those were left. -/
theorem Reader.feed_append (r : Reader) (p q : Bytes) : feed r (p ++ q) = (feed r p).bind (feed · q) := by
  induction p generalizing r with
  | nil => rfl
  | cons c p ih =>
    rw [List.cons_append, feed, feed]
    cases r.step c with
    | none => rfl
    | some r' => exact ih r'

namespace ExtentAux

variable {b b' : Builder} {a : Atom} {f : Frame} {e : Expect} {r r' : Reader} {c : UInt8}

/-! ## Tokens -/

/-- A value that is put changes no result, unless it is the whole document. -/
theorem put_outcome (b : Builder) (t : Tree) :
    (b.put t).result = b.result ∨ (b.put t).frames = [] ∧ (b.put t).expect = .nothing := by
  obtain ⟨frames, expect, result⟩ := b
  cases frames with
  | nil => exact .inr ⟨rfl, rfl⟩
  | cons f fs => cases f <;> exact .inl rfl

theorem advances_atom (h : b.atom a = some b') : b.Advances b' := by
  unfold Builder.atom at h
  constructor <;> grind [put_outcome]

theorem advances_openWith (h : b.openWith f e = some b') : b.Advances b' := by
  unfold Builder.openWith at h
  constructor <;> grind

theorem advances_closeList (h : b.closeList = some b') : b.Advances b' := by
  unfold Builder.closeList at h
  constructor <;> grind [put_outcome]

theorem advances_closeTable (h : b.closeTable = some b') : b.Advances b' := by
  unfold Builder.closeTable at h
  constructor <;> grind [put_outcome]

theorem advances_comma (h : b.comma = some b') : b.Advances b' := by
  unfold Builder.comma at h
  constructor <;> grind

theorem advances_colon (h : b.colon = some b') : b.Advances b' := by
  unfold Builder.colon at h
  constructor <;> grind

/-- A token of one byte leaves the reader between tokens. -/
theorem advances_resume {o : Option Builder} (ho : ∀ b', o = some b' → b.Advances b') (h : Reader.resume o = some r) :
    b.Advances r.builder ∧ r.scan = .between := by
  cases o with
  | none => exact nomatch h
  | some b' =>
    obtain rfl := Option.some.inj h
    exact ⟨ho b' rfl, rfl⟩

/-! ## Bytes -/

/-- The reader is not within a word that holds a line feed. -/
def Lettered : Scan → Prop
  | .word left _ => 0x0a ∉ left
  | _ => True

theorem of_ite_eq_some {α : Type} {p q : Prop} [Decidable p] {x y : Option α} {a : α} (h : (if p then x else y) = some a)
    (hx : p → x = some a → q) (hy : ¬ p → y = some a → q) : q := by
  by_cases hp : p
  · rw [if_pos hp] at h
    exact hx hp h
  · rw [if_neg hp] at h
    exact hy hp h

/-- What a byte between tokens is: white space, a token of its own, or the beginning of one. -/
inductive Starts (b : Builder) (c : UInt8) : Reader → Prop where
  | space : isSpace c = true → Starts b c { builder := b }
  | token {r : Reader} : b.Advances r.builder → r.scan = .between → Starts b c r
  | begins {r : Reader} : r.builder = b → r.scan ≠ .between → Lettered r.scan → Starts b c r

/-- What is begun between tokens is white space, a token of its own or the beginning of one. -/
theorem starts_of_start (h : Reader.start b c = some r) : Starts b c r := by
  have token : ∀ {o : Option Builder}, (∀ b', o = some b' → b.Advances b') → Reader.resume o = some r → Starts b c r := by
    intro o ho hr
    obtain ⟨hadvances, hscan⟩ := advances_resume ho hr
    exact .token hadvances hscan
  have begins : ∀ {scan : Scan}, scan ≠ .between → Lettered scan → some (Reader.mk scan b) = some r → Starts b c r := by
    intro scan hscan hletters hr
    obtain rfl := Option.some.inj hr
    exact .begins rfl hscan hletters
  have lettered : ∀ {left : Bytes} (a : Atom), 0x0a ∉ left → Lettered (.word left a) := fun _ h => h
  refine of_ite_eq_some h (fun hs hr => Option.some.inj hr ▸ .space hs) fun _ h => ?_
  refine of_ite_eq_some h (fun _ => token fun _ => advances_openWith) fun _ h => ?_
  refine of_ite_eq_some h (fun _ => token fun _ => advances_closeTable) fun _ h => ?_
  refine of_ite_eq_some h (fun _ => token fun _ => advances_openWith) fun _ h => ?_
  refine of_ite_eq_some h (fun _ => token fun _ => advances_closeList) fun _ h => ?_
  refine of_ite_eq_some h (fun _ => token fun _ => advances_comma) fun _ h => ?_
  refine of_ite_eq_some h (fun _ => token fun _ => advances_colon) fun _ h => ?_
  refine of_ite_eq_some h (fun _ => begins nofun trivial) fun _ h => ?_
  refine of_ite_eq_some h (fun _ => begins nofun trivial) fun _ h => ?_
  refine of_ite_eq_some h (fun _ => begins nofun trivial) fun _ h => ?_
  refine of_ite_eq_some h (fun _ => begins nofun trivial) fun _ h => ?_
  refine of_ite_eq_some h (fun _ => begins nofun (lettered _ (by decide))) fun _ h => ?_
  refine of_ite_eq_some h (fun _ => begins nofun (lettered _ (by decide))) fun _ h => ?_
  exact of_ite_eq_some h (fun _ => begins nofun (lettered _ (by decide))) fun _ h => nomatch h

/-- What a byte within a token does: it goes on with the token, which no line feed does, or it ends it, or it comes after its end. -/
inductive GoesOn (r : Reader) (c : UInt8) : Reader → Prop where
  | within {r' : Reader} : r'.builder = r.builder → r'.scan ≠ .between → (Lettered r.scan → c ≠ 0x0a ∧ Lettered r'.scan) →
      GoesOn r c r'
  | ends {r' : Reader} : r.builder.Advances r'.builder → r'.scan = .between → GoesOn r c r'
  | after {b : Builder} {r' : Reader} : r.builder.Advances b → Reader.start b c = some r' → GoesOn r c r'

/-- No number goes on with a line feed. -/
theorem ne_lineFeed_of_more {l l' : Literal} {p p' : Phase} (h : l.step p c = .more l' p') : c ≠ 0x0a := by
  rintro rfl
  cases p <;> exact nomatch h

/-- A byte within a token goes on with it, ends it or comes after its end. -/
theorem goesOn_of_step (hr : r.scan ≠ .between) (h : r.step c = some r') : GoesOn r c r' := by
  obtain ⟨scan, b⟩ := r
  have ends : ∀ {a : Atom}, Reader.resume (b.atom a) = some r' → GoesOn ⟨scan, b⟩ c r' := by
    intro a h
    obtain ⟨hadvances, hscan⟩ := advances_resume (fun _ => advances_atom) h
    exact .ends hadvances hscan
  cases scan with
  | between => exact absurd rfl hr
  | word left a =>
    cases left with
    | nil => exact nomatch h
    | cons l left =>
      cases left with
      | nil => exact of_ite_eq_some h (fun _ => ends) fun _ h => nomatch h
      | cons l' left =>
        refine of_ite_eq_some h (fun hc h => ?_) fun _ h => nomatch h
        obtain rfl := Option.some.inj h
        obtain rfl : c = l := eq_of_beq hc
        refine .within rfl nofun fun hl => ⟨?_, ?_⟩
        · rintro rfl
          exact hl List.mem_cons_self
        · exact fun hm => hl (List.mem_cons_of_mem _ hm)
  | number l p =>
    unfold Reader.step at h
    dsimp only at h
    split at h
    · rename_i hmore
      obtain rfl := Option.some.inj h
      exact .within rfl nofun fun _ => ⟨ne_lineFeed_of_more hmore, trivial⟩
    · obtain ⟨b', hatom, hstart⟩ := Option.bind_eq_some_iff.1 h
      exact .after (advances_atom hatom) hstart
    · exact nomatch h
  | text q =>
    refine of_ite_eq_some h (fun _ => ends) fun _ h => ?_
    refine of_ite_eq_some h (fun hc h => ?_) fun _ h => ?_
    · obtain rfl := Option.some.inj h
      refine .within rfl nofun fun _ => ⟨?_, trivial⟩
      rintro rfl
      exact nomatch hc
    · refine of_ite_eq_some h (fun _ h => nomatch h) fun hc h => ?_
      obtain rfl := Option.some.inj h
      refine .within rfl nofun fun _ => ⟨?_, trivial⟩
      rintro rfl
      exact hc (by decide)
  | escape q =>
    refine of_ite_eq_some h (fun hc h => ?_) fun _ h => ?_
    · obtain rfl := Option.some.inj h
      refine .within rfl nofun fun _ => ⟨?_, trivial⟩
      rintro rfl
      exact nomatch hc
    · obtain ⟨x, hx, rfl⟩ := Option.map_eq_some_iff.1 h
      refine .within rfl nofun fun _ => ⟨?_, trivial⟩
      rintro rfl
      exact nomatch hx
  | unit q digits code =>
    obtain ⟨d, hd, rfl⟩ := Option.map_eq_some_iff.1 h
    have hc : c ≠ 0x0a := by
      rintro rfl
      exact nomatch hd
    dsimp only
    split
    · exact .within rfl nofun fun _ => ⟨hc, trivial⟩
    · exact .within rfl nofun fun _ => ⟨hc, trivial⟩

/-- Bytes are read one by one. -/
theorem feed_cons_eq_some {cs : Bytes} (h : Reader.feed r (c :: cs) = some r') :
    ∃ r₁, r.step c = some r₁ ∧ Reader.feed r₁ cs = some r' := by
  unfold Reader.feed at h
  split at h
  · exact nomatch h
  · rename_i r₁ hstep
    exact ⟨r₁, hstep, h⟩

/-! ## Whole documents -/

/-- A step keeps a builder in order. -/
theorem orderly_step (ho : r.builder.Orderly) (h : r.step c = some r') : r'.builder.Orderly := by
  have start : ∀ {b : Builder}, b.Orderly → Reader.start b c = some r' → r'.builder.Orderly := by
    intro b ho h
    cases starts_of_start h with
    | space => exact ho
    | token hadvances => exact hadvances.orderly ho
    | begins hb => exact hb ▸ ho
  by_cases hr : r.scan = .between
  · obtain ⟨scan, b⟩ := r
    obtain rfl := hr
    exact start ho h
  · cases goesOn_of_step hr h with
    | within hb => exact hb ▸ ho
    | ends hadvances => exact hadvances.orderly ho
    | after hadvances h => exact start (hadvances.orderly ho) h

/-- The step of a reader that stands between tokens. -/
theorem start_of_step (hr : r.scan = .between) (h : r.step c = some r') : Reader.start r.builder c = some r' := by
  obtain ⟨scan, b⟩ := r
  obtain rfl := hr
  exact h

/-- Whatever is read keeps a builder in order. -/
theorem orderly_feed {p : Bytes} (ho : r.builder.Orderly) (h : Reader.feed r p = some r') : r'.builder.Orderly := by
  induction p generalizing r with
  | nil => exact Option.some.inj h ▸ ho
  | cons c p ih =>
    obtain ⟨r₁, hstep, h⟩ := feed_cons_eq_some h
    exact ih (orderly_step ho hstep) h

/-- A token that begins where nothing may come is never finished. -/
theorem finish_of_refused {q : Bytes} (he : r.builder.expect = .nothing) (hr : r.scan ≠ .between) (h : Reader.feed r q = some r') :
    r'.finish = none := by
  induction q generalizing r with
  | nil =>
    obtain rfl := Option.some.inj h
    have hatom : ∀ a, r.builder.atom a = none := by
      intro a
      cases ha : r.builder.atom a with
      | none => rfl
      | some b => exact absurd he (advances_atom ha).awaited
    unfold Reader.finish
    split
    · rename_i hscan
      exact absurd hscan hr
    · rw [hatom]
      split <;> rfl
    · rfl
  | cons c q ih =>
    obtain ⟨r₁, hstep, h⟩ := feed_cons_eq_some h
    cases goesOn_of_step hr hstep with
    | within hb hscan => exact ih (hb ▸ he) hscan h
    | ends hadvances => exact absurd he hadvances.awaited
    | after hadvances => exact absurd he hadvances.awaited

/-- Where nothing may come, nothing but white space does. -/
theorem isSpace_of_feed {q : Bytes} (he : r.builder.expect = .nothing) (hr : r.scan = .between) (h : Reader.feed r q = some r')
    (hf : r'.finish ≠ none) : ∀ c ∈ q, isSpace c = true := by
  induction q generalizing r with
  | nil => exact nofun
  | cons c q ih =>
    obtain ⟨r₁, hstep, h⟩ := feed_cons_eq_some h
    cases starts_of_start (start_of_step hr hstep) with
    | space hc =>
      intro x hx
      rcases List.mem_cons.1 hx with rfl | hx
      · exact hc
      · exact ih (r := { builder := r.builder }) he rfl h x hx
    | token hadvances => exact absurd he hadvances.awaited
    | begins hb hscan => exact absurd (finish_of_refused (hb ▸ he) hscan h) hf

/-- A result is that from before, or the value that was put. -/
theorem put_result {t t' : Tree} (h : (b.put t).result = some t') : b.result = some t' ∨ t' = t := by
  obtain ⟨frames, expect, result⟩ := b
  cases frames with
  | nil => exact .inr (Option.some.inj h).symm
  | cons f fs => cases f <;> exact .inl h

/-- A scalar is the whole tree only where nothing else is. -/
theorem atom_result {t : Tree} (h : b.atom a = some b') (ht : b'.result = some t) : b.result = some t ∨ t = .leaf a := by
  unfold Builder.atom at h
  grind [put_result]

/-- The whole tree is read before the bytes end, unless it is a scalar. -/
theorem expect_of_finish {t : Tree} (ho : r.builder.Orderly) (ht : IsCompound t) (h : r.finish = some t) :
    r.scan = .between ∧ r.builder.expect = .nothing := by
  have hread : r.builder.result = some t → r.builder.expect = .nothing := fun hr => (ho (by simp [hr])).2
  unfold Reader.finish at h
  split at h
  · rename_i hscan
    exact ⟨hscan, hread h⟩
  · split at h
    · obtain ⟨b, hatom, hb⟩ := Option.bind_eq_some_iff.1 h
      have hawaited := (advances_atom hatom).awaited
      rcases atom_result hatom hb with hr | hleaf
      · exact absurd (hread hr) hawaited
      · exact absurd hleaf (ht _)
    · exact nomatch h
  · exact nomatch h

/-! ## Lines -/

/-- A step leads into no word that holds a line feed. -/
theorem lettered_step (hl : Lettered r.scan) (h : r.step c = some r') : Lettered r'.scan := by
  have start : ∀ {b : Builder}, Reader.start b c = some r' → Lettered r'.scan := by
    intro b h
    cases starts_of_start h with
    | space => trivial
    | token _ hscan => exact hscan ▸ trivial
    | begins _ _ hletters => exact hletters
  by_cases hr : r.scan = .between
  · exact start (start_of_step hr h)
  · cases goesOn_of_step hr h with
    | within _ _ hletters => exact (hletters hl).2
    | ends _ hscan => exact hscan ▸ trivial
    | after _ h => exact start h

/-- Whatever is read leads into no word that holds a line feed. -/
theorem lettered_feed {p : Bytes} (hl : Lettered r.scan) (h : Reader.feed r p = some r') : Lettered r'.scan := by
  induction p generalizing r with
  | nil => exact Option.some.inj h ▸ hl
  | cons c p ih =>
    obtain ⟨r₁, hstep, h⟩ := feed_cons_eq_some h
    exact ih (lettered_step hl hstep) h

/-- A line feed leaves the reader between tokens. -/
theorem scan_of_step_lineFeed (hl : Lettered r.scan) (h : r.step 0x0a = some r') : r'.scan = .between := by
  have start : ∀ {b : Builder}, Reader.start b 0x0a = some r' → r'.scan = .between := by
    intro b h
    have hspace : Reader.start b 0x0a = some { builder := b } := rfl
    rw [← Option.some.inj (hspace.symm.trans h)]
  by_cases hr : r.scan = .between
  · exact start (start_of_step hr h)
  · cases goesOn_of_step hr h with
    | within _ _ hletters => exact absurd rfl (hletters hl).1
    | ends _ hscan => exact hscan
    | after _ h => exact start h

/-- A blank byte leaves a reader between tokens where it stands. -/
theorem scan_of_step_blank (hc : Text.isBlankByte c = true) (hr : r.scan = .between) (h : r.step c = some r') :
    r'.scan = .between := by
  have hstart := start_of_step hr h
  have hblank : c = 0x20 ∨ c = 0x09 ∨ c = 0x0a ∨ c = 0x0c ∨ c = 0x0d := by
    simpa [Text.isBlankByte, or_assoc] using hc
  have hspace : Reader.start r.builder c = some { builder := r.builder } ∨ Reader.start r.builder c = none := by
    rcases hblank with rfl | rfl | rfl | rfl | rfl
    · exact .inl rfl
    · exact .inl rfl
    · exact .inl rfl
    · exact .inr rfl
    · exact .inl rfl
  rcases hspace with hsame | hnone
  · rw [← Option.some.inj (hsame.symm.trans hstart)]
  · exact nomatch hnone.symm.trans hstart

/-- The first byte that is not blank of what a reader between tokens reads is the beginning of a token. -/
theorem start_of_dropWhile {line : Bytes} {x : UInt8} (hr : r.scan = .between) (h : Reader.feed r line = some r')
    (hx : (line.dropWhile Text.isBlankByte).head? = some x) : ∃ b, Reader.start b x ≠ none := by
  induction line generalizing r with
  | nil => exact nomatch hx
  | cons c line ih =>
    obtain ⟨r₁, hstep, h⟩ := feed_cons_eq_some h
    by_cases hc : Text.isBlankByte c = true
    · rw [List.dropWhile_cons_of_pos hc] at hx
      exact ih (scan_of_step_blank hc hr hstep) h hx
    · rw [List.dropWhile_cons_of_neg hc] at hx
      obtain rfl := Option.some.inj hx
      exact ⟨r.builder, by simp [start_of_step hr hstep]⟩

/-- A trimmed line begins with what stands behind its blanks. -/
theorem head?_trimBytes {line : Bytes} {x : UInt8} (h : (Text.trimBytes line).head? = some x) :
    (line.dropWhile Text.isBlankByte).head? = some x := by
  have hprefix : Text.trimBytes line <+: line.dropWhile Text.isBlankByte := Text.dropEnd_prefix _ _
  obtain ⟨more, hmore⟩ := hprefix
  rw [← hmore, List.head?_append, h]
  rfl

/-- Between tokens each line begins with a byte that may begin one. -/
theorem start_of_lines {pieces : List Bytes} {x : UInt8} (hr : r.scan = .between)
    (h : Reader.feed r ([0x0a].intercalate pieces) = some r') :
    ∀ line ∈ pieces, (Text.trimBytes line).head? = some x → ∃ b, Reader.start b x ≠ none := by
  induction pieces generalizing r with
  | nil => exact nofun
  | cons l pieces ih =>
    intro line hline hx
    cases pieces with
    | nil =>
      obtain rfl := List.mem_singleton.1 hline
      rw [List.intercalate_singleton] at h
      exact start_of_dropWhile hr h (head?_trimBytes hx)
    | cons l' pieces =>
      rw [List.intercalate_cons_cons, List.append_assoc, Reader.feed_append] at h
      obtain ⟨r₁, hfirst, h⟩ := Option.bind_eq_some_iff.1 h
      obtain ⟨r₂, hfeed, h⟩ := feed_cons_eq_some h
      rcases List.mem_cons.1 hline with rfl | hline
      · exact start_of_dropWhile hr hfirst (head?_trimBytes hx)
      · have hl : Lettered r₁.scan := lettered_feed (hr ▸ trivial) hfirst
        exact ih (scan_of_step_lineFeed hl hfeed) h line hline hx

end ExtentAux

open ExtentAux

/-- A list or a table that is a document stays one only with white space after it. -/
theorem isSpace_of_read?_append {p q : Bytes} {t : Tree} (hp : read? p = some t) (ht : IsCompound t)
    (hpq : (read? (p ++ q)).isSome) : ∀ c ∈ q, isSpace c = true := by
  obtain ⟨r, hfeed, hfinish⟩ := Option.bind_eq_some_iff.1 hp
  obtain ⟨t', ht'⟩ := Option.isSome_iff_exists.1 hpq
  obtain ⟨r', hfeed', hfinish'⟩ := Option.bind_eq_some_iff.1 ht'
  rw [Reader.feed_append, hfeed] at hfeed'
  have ho : r.builder.Orderly := orderly_feed (r := {}) (fun h => absurd rfl h) hfeed
  obtain ⟨hscan, hexpect⟩ := expect_of_finish ho ht hfinish
  exact isSpace_of_feed hexpect hscan hfeed' (by simp [hfinish'])

/-- A line of a document begins, blanks aside, with a byte that a token begins with. -/
theorem start_of_read? {body : Bytes} {t : Tree} (h : read? body = some t) {line : Bytes} (hline : line ∈ Bytes.splitOn 0x0a body)
    {x : UInt8} (hx : (Text.trimBytes line).head? = some x) : ∃ b, Reader.start b x ≠ none := by
  obtain ⟨r, hfeed, -⟩ := Option.bind_eq_some_iff.1 h
  have hpieces : [0x0a].intercalate (Bytes.splitOn 0x0a body) = body := by
    rw [Bytes.splitOn_eq, List.intercalate_splitOn]
  rw [← hpieces] at hfeed
  exact start_of_lines (r := {}) rfl hfeed line hline hx

end InferenceGate.Json
