import InferenceGate.Json.Printing
import InferenceGate.Json.Reading
import InferenceGate.Proofs.Text.Spelling

/-!
# What is written is read back

The reader takes the text of a value for the value's tree, wherever a value may stand (`Legible`): strings with all their escapes, and
lists and tables of what is legible. So a document that is written is read as what it was written from.
-/

namespace InferenceGate.Json

open Document

mutual
/-- The tree of a value. -/
def treeOf : Value → Tree
  | .null => .leaf .null
  | .bool b => .leaf (.bool b)
  | .number n => .leaf (.number (some n))
  | .string s => .leaf (.text (some s))
  | .array items => .list (treesOf items)
  | .object members => .table (memberTreesOf members)

/-- The trees of items. -/
def treesOf : List Value → List Tree
  | [] => []
  | v :: vs => treeOf v :: treesOf vs

/-- The trees of members. -/
def memberTreesOf : List (String × Value) → List (Atom × Tree)
  | [] => []
  | (name, v) :: ms => (.text (some name), treeOf v) :: memberTreesOf ms
end

/-- A value may stand next. -/
def Builder.TakesValue (b : Builder) : Prop := b.expect = .value ∨ b.expect = .firstItem

/-- What may follow an item: a comma or the end of its list or table. -/
def FollowsItem (rest : Bytes) : Prop := ∃ c cs, rest = c :: cs ∧ c ∈ [(0x2c : UInt8), 0x5d, 0x7d]

/-- The text of a value is read as its tree wherever a value may stand, before whatever may follow an item. -/
def Legible (v : Value) : Prop :=
  ∀ (b : Builder) (rest : Bytes), b.TakesValue → FollowsItem rest →
    Reader.feed { builder := b } (Bytes.ofText v.render ++ rest) = Reader.feed { builder := b.put (treeOf v) } rest

namespace RoundTripAux

open Reader

variable {b : Builder} {acc rest : Bytes}

/-! ## Strings -/

/-- The reader within a string of which some bytes are read, last first. -/
def within (b : Builder) (acc : Bytes) : Reader := { scan := .text { content := some acc }, builder := b }

/-- Bytes that neither end a string nor escape are pushed one by one. -/
theorem feed_plain (bs : Bytes) (h : ∀ x ∈ bs, x ≠ 0x22 ∧ x ≠ 0x5c ∧ 0x20 ≤ x) :
    feed (within b acc) (bs ++ rest) = feed (within b (bs.reverse ++ acc)) rest := by
  induction bs generalizing acc with
  | nil => rfl
  | cons x bs ih =>
    obtain ⟨hquote, hslash, hspace⟩ := h x List.mem_cons_self
    have hstep : (within b acc).step x = some (within b (x :: acc)) := by
      simp [within, step, hquote, hslash, UInt8.not_lt.2 hspace, Quoted.push]
    rw [List.cons_append, feed, hstep, List.reverse_cons, List.append_assoc]
    exact ih fun y hy => h y (List.mem_cons_of_mem _ hy)

/-- The bytes of a character that is not escaped are taken as they are: it is one byte of its own, or else all its bytes are high. -/
theorem plain_utf8EncodeChar {c : Char} (hquote : c ≠ '"') (hslash : c ≠ '\\') (hspace : 0x20 ≤ c.toNat) :
    ∀ x ∈ String.utf8EncodeChar c, x ≠ 0x22 ∧ x ≠ 0x5c ∧ 0x20 ≤ x := by
  have hplain : ∀ x ∈ String.utf8EncodeChar c, x.toNat ≠ 0x22 ∧ x.toNat ≠ 0x5c ∧ 0x20 ≤ x.toNat := by
    have hq : c.val.toNat ≠ 0x22 := fun h => hquote (Char.ext (UInt32.toNat_inj.1 h))
    have hs : c.val.toNat ≠ 0x5c := fun h => hslash (Char.ext (UInt32.toNat_inj.1 h))
    have hge : 0x20 ≤ c.val.toNat := hspace
    intro x hx
    unfold String.utf8EncodeChar at hx
    dsimp only at hx
    split at hx
    · obtain rfl := List.mem_singleton.1 hx
      rw [UInt8.toNat_ofNat']
      omega
    split at hx
    · simp only [List.mem_cons, List.not_mem_nil, or_false] at hx
      rcases hx with rfl | rfl <;> rw [UInt8.toNat_ofNat'] <;> omega
    split at hx
    · simp only [List.mem_cons, List.not_mem_nil, or_false] at hx
      rcases hx with rfl | rfl | rfl <;> rw [UInt8.toNat_ofNat'] <;> omega
    · simp only [List.mem_cons, List.not_mem_nil, or_false] at hx
      rcases hx with rfl | rfl | rfl | rfl <;> rw [UInt8.toNat_ofNat'] <;> omega
  intro x hx
  obtain ⟨hq, hs, hge⟩ := hplain x hx
  exact ⟨fun h => hq (h ▸ rfl), fun h => hs (h ▸ rfl), UInt8.le_iff_toNat_le.2 hge⟩

/-- The digits of an escaped control are read back. -/
theorem hexDigit_spec : ∀ n < 16, String.utf8EncodeChar (hexDigit n) = [UInt8.ofNat (hexDigit n).toNat] ∧
    Bytes.hexDigit? (UInt8.ofNat (hexDigit n).toNat) = some n := by
  decide

theorem ofText_singleton (c : Char) : Bytes.ofText (String.singleton c) = String.utf8EncodeChar c := by
  rw [String.singleton_eq_ofList, Bytes.ofText_ofList, List.flatMap_singleton]

/-- A byte is taken. -/
theorem feed_cons_of_step {r r' : Reader} {c : UInt8} (h : r.step c = some r') (cs : Bytes) : feed r (c :: cs) = feed r' cs := by
  rw [feed, h]

/-- A control is escaped by the digits of its code. -/
theorem feed_control {c : Char} (h : c.toNat < 0x20) :
    feed (within b acc)
        (['\\', 'u', '0', '0', hexDigit (c.toNat / 16), hexDigit (c.toNat % 16)].flatMap String.utf8EncodeChar ++ rest) =
      feed (within b ((String.utf8EncodeChar c).reverse ++ acc)) rest := by
  obtain ⟨h₁, hd₁⟩ := hexDigit_spec (c.toNat / 16) (by omega)
  obtain ⟨h₂, hd₂⟩ := hexDigit_spec (c.toNat % 16) (by omega)
  have hcode : 16 * (16 * 0 + c.toNat / 16) + c.toNat % 16 = c.toNat := by omega
  have hunit : ({ content := some acc } : Quoted).pushUnit c.toNat =
      { content := some ((String.utf8EncodeChar c).reverse ++ acc) } := by
    unfold Quoted.pushUnit
    simp only [show ¬ (0xd800 ≤ c.toNat) by omega, show ¬ (0xdc00 ≤ c.toNat) by omega, if_false, decide_false, Bool.false_and,
      Bool.false_eq_true, Char.ofNat_toNat, ofText_singleton, Option.map_some]
  have hhigh : step { scan := .unit { content := some acc } 2 0, builder := b } (UInt8.ofNat (hexDigit (c.toNat / 16)).toNat) =
      some { scan := .unit { content := some acc } 1 (16 * 0 + c.toNat / 16), builder := b } := by
    show (Bytes.hexDigit? _).map _ = _
    rw [hd₁]
    rfl
  have hlow : step { scan := .unit { content := some acc } 1 (16 * 0 + c.toNat / 16), builder := b }
      (UInt8.ofNat (hexDigit (c.toNat % 16)).toNat) = some (within b ((String.utf8EncodeChar c).reverse ++ acc)) := by
    show (Bytes.hexDigit? _).map _ = _
    rw [hd₂]
    show some (Reader.mk (.text (Quoted.pushUnit _ (16 * (16 * 0 + c.toNat / 16) + c.toNat % 16))) b) = _
    rw [hcode, hunit]
    rfl
  simp only [List.flatMap_cons, List.flatMap_nil, h₁, h₂]
  exact (feed_cons_of_step hhigh _).trans (feed_cons_of_step hlow _)

/-- What stands for a character inside a string pushes the bytes of the character. Five characters are escaped by a letter, two more are
known by their code, and what is left is a control character or stands for itself. -/
theorem feed_escape (c : Char) :
    feed (within b acc) ((escape c).flatMap String.utf8EncodeChar ++ rest) =
      feed (within b ((String.utf8EncodeChar c).reverse ++ acc)) rest := by
  unfold escape
  iterate 5
    split
    · rename_i h
      rw [eq_of_beq h]
      rfl
  iterate 2
    split
    · rename_i h
      rw [← Char.ofNat_toNat c, eq_of_beq h]
      rfl
  split
  · rename_i h
    exact feed_control h
  · rename_i hquote hslash _ _ _ _ _ hspace
    rw [List.flatMap_singleton]
    exact feed_plain _ (plain_utf8EncodeChar (by simpa using hquote) (by simpa using hslash) (Nat.le_of_not_lt hspace))

/-- What stands for characters inside a string pushes the bytes of the characters. -/
theorem feed_escapes (cs : List Char) :
    feed (within b acc) ((cs.flatMap escape).flatMap String.utf8EncodeChar ++ rest) =
      feed (within b ((cs.flatMap String.utf8EncodeChar).reverse ++ acc)) rest := by
  induction cs generalizing acc with
  | nil => rfl
  | cons c cs ih =>
    rw [List.flatMap_cons, List.flatMap_append, List.append_assoc, feed_escape, ih, List.flatMap_cons, List.reverse_append,
      List.append_assoc]

/-- A string between tokens is a text for whatever takes one. -/
theorem feed_quote (b : Builder) (s : String) (rest : Bytes) :
    feed { builder := b } (Bytes.ofText (quote s) ++ rest) =
      (resume (b.atom (.text (some s)))).bind fun r => feed r rest := by
  have hbytes : Bytes.ofText (quote s) = 0x22 :: ((s.toList.flatMap escape).flatMap String.utf8EncodeChar ++ [0x22]) := by
    unfold quote
    rw [Bytes.ofText_ofList, List.flatMap_append, List.flatMap_cons]
    rfl
  have hall : s.toList.flatMap String.utf8EncodeChar = Bytes.ofText s := by
    rw [← Bytes.ofText_ofList, String.ofList_toList]
  rw [hbytes, List.cons_append, List.append_assoc]
  show feed (within b []) _ = _
  rw [feed_escapes, List.append_nil, hall, List.singleton_append, feed]
  have hstep : (within b (Bytes.ofText s).reverse).step 0x22 = resume (b.atom (.text (some s))) := by
    show resume (b.atom (.text (Bytes.text? (Bytes.ofText s).reverse.reverse))) = _
    rw [List.reverse_reverse, Bytes.text?_ofText]
  rw [hstep]
  cases resume (b.atom (.text (some s))) <;> rfl

/-! ## Values -/

/-- Where a tree is put depends on what is open, not on what was to come next. -/
theorem put_congr {b b' : Builder} (hf : b.frames = b'.frames) (hr : b.result = b'.result) (t : Tree) : b.put t = b'.put t := by
  obtain ⟨frames, expect, result⟩ := b
  obtain ⟨frames', expect', result'⟩ := b'
  obtain rfl : frames = frames' := hf
  obtain rfl : result = result' := hr
  cases frames with
  | nil => rfl
  | cons f fs => cases f <;> rfl

theorem atom_of_takesValue (h : b.TakesValue) (a : Atom) : b.atom a = some (b.put (.leaf a)) := by
  unfold Builder.atom
  rcases h with h | h <;> rw [h]

theorem openWith_of_takesValue (h : b.TakesValue) (f : Frame) (e : Expect) :
    b.openWith f e = some { b with frames := f :: b.frames, expect := e } := by
  unfold Builder.openWith
  rcases h with h | h <;> rw [h]

theorem renderItems_eq (vs : List Value) : renderItems vs = vs.map Value.render := by
  induction vs with
  | nil => rfl
  | cons v vs ih => rw [renderItems, ih, List.map_cons]

theorem renderMembers_eq (ms : List (String × Value)) : renderMembers ms = ms.map fun m => quote m.1 ++ ":" ++ m.2.render := by
  induction ms with
  | nil => rfl
  | cons m ms ih => rw [renderMembers, ih, List.map_cons]

/-- Texts between commas, after the first of them. -/
def afterCommas (texts : List String) : Bytes := texts.flatMap fun t => 0x2c :: Bytes.ofText t

/-- Texts put together with commas are spelled with a comma before each but the first. -/
theorem ofText_intercalate (t : String) (texts : List String) :
    Bytes.ofText (",".intercalate (t :: texts)) = Bytes.ofText t ++ afterCommas texts := by
  induction texts generalizing t with
  | nil => rw [String.intercalate_singleton, afterCommas, List.flatMap_nil, List.append_nil]
  | cons u texts ih =>
    rw [String.intercalate_cons_cons, Bytes.ofText_append, ih, Bytes.ofText_append, List.append_assoc]
    rfl

/-- After an item come the items after it, or the end of the list or table. -/
theorem followsItem_afterCommas (texts : List String) {close : UInt8} (h : close ∈ [(0x5d : UInt8), 0x7d]) (rest : Bytes) :
    FollowsItem (afterCommas texts ++ close :: rest) := by
  cases texts with
  | nil => exact ⟨close, rest, rfl, List.mem_cons_of_mem _ h⟩
  | cons t texts => exact ⟨0x2c, _, rfl, List.mem_cons_self⟩

/-! ## Lists -/

/-- The builder within a list of which some items are read, last first. -/
def inList (b : Builder) (done : List Tree) : Builder := { b with frames := .items done :: b.frames, expect := .separator }

/-- The items after the first, each after a comma, up to the end of the list. -/
theorem feed_items (vs : List Value) (h : ∀ v ∈ vs, Legible v) (b : Builder) (done : List Tree) (rest : Bytes) :
    feed { builder := inList b done } (afterCommas (vs.map Value.render) ++ 0x5d :: rest) =
      feed { builder := b.put (.list (done.reverse ++ treesOf vs)) } rest := by
  induction vs generalizing done with
  | nil =>
    rw [treesOf, List.append_nil]
    exact congrArg (fun b => feed { builder := b } rest) (put_congr rfl rfl _)
  | cons v vs ih =>
    calc
      feed { builder := inList b done } (afterCommas ((v :: vs).map Value.render) ++ 0x5d :: rest)
        = feed { builder := { inList b done with expect := .value } }
            (Bytes.ofText v.render ++ (afterCommas (vs.map Value.render) ++ 0x5d :: rest)) := by
          rw [List.map_cons, afterCommas, List.flatMap_cons, List.cons_append, List.cons_append, List.append_assoc]
          rfl
      _ = feed { builder := inList b (treeOf v :: done) } (afterCommas (vs.map Value.render) ++ 0x5d :: rest) :=
          h v List.mem_cons_self _ _ (.inl rfl) (followsItem_afterCommas _ List.mem_cons_self _)
      _ = feed { builder := b.put (.list (done.reverse ++ treesOf (v :: vs))) } rest := by
          rw [ih fun w hw => h w (List.mem_cons_of_mem _ hw), List.reverse_cons, List.append_assoc]
          rfl

/-- A list that is printed is read back when its items are. -/
theorem feed_array {items : List Value} (h : ∀ v ∈ items, Legible v) (hb : b.TakesValue) (rest : Bytes) :
    feed { builder := b } (Bytes.ofText (Value.array items).render ++ rest) =
      feed { builder := b.put (treeOf (.array items)) } rest := by
  have hopen : step { builder := b } 0x5b = some { builder := { b with frames := .items [] :: b.frames, expect := .firstItem } } := by
    show resume (b.openWith (.items []) .firstItem) = _
    rw [openWith_of_takesValue hb]
    rfl
  have htext : Bytes.ofText (Value.array items).render ++ rest =
      0x5b :: (Bytes.ofText (",".intercalate (items.map Value.render)) ++ 0x5d :: rest) := by
    rw [Value.render, renderItems_eq, Bytes.ofText_append, Bytes.ofText_append, List.append_assoc, List.append_assoc]
    rfl
  rw [htext, feed_cons_of_step hopen]
  cases items with
  | nil =>
    exact congrArg (fun b => feed { builder := b } rest) (put_congr rfl rfl _)
  | cons v items =>
    rw [List.map_cons, ofText_intercalate, List.append_assoc,
      h v List.mem_cons_self _ _ (.inr rfl) (followsItem_afterCommas _ List.mem_cons_self _)]
    exact feed_items items (fun w hw => h w (List.mem_cons_of_mem _ hw)) b [treeOf v] rest

/-! ## Tables -/

/-- The builder within a table of which some members are read, last first. -/
def inTable (b : Builder) (done : List (Atom × Tree)) (expect : Expect) : Builder :=
  { b with frames := .members done .null :: b.frames, expect }

/-- The text of a member. -/
def memberText (m : String × Value) : String := quote m.1 ++ ":" ++ m.2.render

/-- A member: its name, a colon and its value. -/
theorem feed_member {m : String × Value} (h : Legible m.2) (b : Builder) (done : List (Atom × Tree)) {e : Expect}
    (he : e = .firstName ∨ e = .name) (hrest : FollowsItem rest) :
    feed { builder := inTable b done e } (Bytes.ofText (memberText m) ++ rest) =
      feed { builder := inTable b ((.text (some m.1), treeOf m.2) :: done) .separator } rest := by
  have hname : (inTable b done e).atom (.text (some m.1)) =
      some { b with frames := .members done (.text (some m.1)) :: b.frames, expect := .colon } := by
    rcases he with rfl | rfl <;> rfl
  have htext : Bytes.ofText (memberText m) ++ rest =
      Bytes.ofText (quote m.1) ++ (0x3a :: (Bytes.ofText m.2.render ++ rest)) := by
    unfold memberText
    rw [Bytes.ofText_append, Bytes.ofText_append, List.append_assoc, List.append_assoc]
    rfl
  rw [htext, feed_quote, hname]
  exact h { b with frames := .members done (.text (some m.1)) :: b.frames, expect := .value } rest (.inl rfl) hrest

/-- The members after the first, each after a comma, up to the end of the table. -/
theorem feed_members (ms : List (String × Value)) (h : ∀ m ∈ ms, Legible m.2) (b : Builder) (done : List (Atom × Tree))
    (rest : Bytes) :
    feed { builder := inTable b done .separator } (afterCommas (ms.map memberText) ++ 0x7d :: rest) =
      feed { builder := b.put (.table (done.reverse ++ memberTreesOf ms)) } rest := by
  induction ms generalizing done with
  | nil =>
    rw [memberTreesOf, List.append_nil]
    exact congrArg (fun b => feed { builder := b } rest) (put_congr rfl rfl _)
  | cons m ms ih =>
    calc
      feed { builder := inTable b done .separator } (afterCommas ((m :: ms).map memberText) ++ 0x7d :: rest)
        = feed { builder := inTable b done .name }
            (Bytes.ofText (memberText m) ++ (afterCommas (ms.map memberText) ++ 0x7d :: rest)) := by
          rw [List.map_cons, afterCommas, List.flatMap_cons, List.cons_append, List.cons_append, List.append_assoc]
          rfl
      _ = feed { builder := inTable b ((.text (some m.1), treeOf m.2) :: done) .separator }
            (afterCommas (ms.map memberText) ++ 0x7d :: rest) :=
          feed_member (h m List.mem_cons_self) b done (.inr rfl) (followsItem_afterCommas _ (by decide) _)
      _ = feed { builder := b.put (.table (done.reverse ++ memberTreesOf (m :: ms))) } rest := by
          rw [ih fun w hw => h w (List.mem_cons_of_mem _ hw), List.reverse_cons, List.append_assoc]
          rfl

/-- A table that is printed is read back when its members are. -/
theorem feed_object {members : List (String × Value)} (h : ∀ m ∈ members, Legible m.2) (hb : b.TakesValue) (rest : Bytes) :
    feed { builder := b } (Bytes.ofText (Value.object members).render ++ rest) =
      feed { builder := b.put (treeOf (.object members)) } rest := by
  have hopen : step { builder := b } 0x7b = some { builder := inTable b [] .firstName } := by
    show resume (b.openWith (.members [] .null) .firstName) = _
    rw [openWith_of_takesValue hb]
    rfl
  have htext : Bytes.ofText (Value.object members).render ++ rest =
      0x7b :: (Bytes.ofText (",".intercalate (members.map memberText)) ++ 0x7d :: rest) := by
    rw [Value.render, renderMembers_eq, Bytes.ofText_append, Bytes.ofText_append, List.append_assoc, List.append_assoc]
    rfl
  rw [htext, feed_cons_of_step hopen]
  cases members with
  | nil => exact congrArg (fun b => feed { builder := b } rest) (put_congr rfl rfl _)
  | cons m members =>
    rw [List.map_cons, ofText_intercalate, List.append_assoc,
      feed_member (h m List.mem_cons_self) b [] (.inl rfl) (followsItem_afterCommas _ (by decide) _)]
    exact feed_members members (fun w hw => h w (List.mem_cons_of_mem _ hw)) b [(.text (some m.1), treeOf m.2)] rest

end RoundTripAux

open RoundTripAux

/-- Every text can be read back. -/
theorem legible_string (s : String) : Legible (.string s) := by
  intro b rest hb _
  rw [Value.render, feed_quote, atom_of_takesValue hb]
  rfl

theorem legible_array {items : List Value} (h : ∀ v ∈ items, Legible v) : Legible (.array items) :=
  fun _ rest hb _ => feed_array h hb rest

theorem legible_object {members : List (String × Value)} (h : ∀ m ∈ members, Legible m.2) : Legible (.object members) :=
  fun _ rest hb _ => feed_object h hb rest

/-- An object whose members are legible is read back from its text. -/
theorem read?_render_object {members : List (String × Value)} (h : ∀ m ∈ members, Legible m.2) :
    read? (Bytes.ofText (Value.object members).render) = some (treeOf (.object members)) := by
  have hfeed := feed_object (b := {}) h (.inl rfl) []
  rw [List.append_nil] at hfeed
  unfold read?
  rw [hfeed]
  rfl

end InferenceGate.Json
