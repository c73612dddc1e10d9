import InferenceGate.Http.Query
import InferenceGate.Proofs.Text.Ascii
import InferenceGate.Proofs.Text.Pieces

/-!
# A pair put behind a query

Pairs are read off a query piece by piece, so those of a longer query are those of its beginning and then the new ones. A name or a
value of ASCII without marks of its own (`Plain`) is spelled as it is, and a pair of such a name and value that stands last in a query
gives the name its value and no other name another (`formValue?_withPair`).
-/

namespace InferenceGate.Http

variable {bs : Bytes} {s name value : String}

/-! ## Bytes that stand for themselves -/

/-- Bytes without a percent sign stand for themselves. -/
theorem unescape_of_notMem (h : 0x25 ∉ bs) : unescape bs = bs := by
  induction bs with
  | nil => rw [unescape]
  | cons c bs ih =>
    rw [List.mem_cons, not_or] at h
    rw [unescape.eq_3 c bs fun _ _ _ hc _ => h.1 hc.symm, ih h.2]

/-- Only a plus sign stands for another byte. -/
theorem formByte_eq {x : UInt8} (h : formByte x ≠ 0x20) : formByte x = x := by
  unfold formByte at h ⊢
  split
  · rename_i hx
    rw [if_pos hx] at h
    exact absurd rfl h
  · rfl

/-- Bytes without a plus sign are those of a form. -/
theorem map_formByte_of_notMem (h : 0x2b ∉ bs) : bs.map formByte = bs := by
  conv => rhs; rw [← List.map_id bs]
  refine List.map_congr_left fun x hx => ?_
  have hne : x ≠ 0x2b := fun e => h (e ▸ hx)
  simp [formByte, hne]

/-! ## The value of a name -/

/-- A name has the value of the last pair of the name. -/
theorem formValue?_eq_some {query : Bytes} : formValue? query name = some value ↔
    ∃ before after, formPairs query = before ++ (name, value) :: after ∧ ∀ p ∈ after, p.1 ≠ name := by
  have hlast : formValue? query name = ((formPairs query).reverse.find? fun p => p.1 == name).map Prod.snd := by
    unfold formValue?
    rw [List.getLast?_eq_head?_reverse, ← List.filter_reverse, List.head?_filter]
  rw [hlast, Option.map_eq_some_iff]
  constructor
  · rintro ⟨p, hp, rfl⟩
    obtain ⟨hname, after, before, hpairs, hafter⟩ := List.find?_eq_some_iff_append.1 hp
    obtain rfl := eq_of_beq hname
    refine ⟨before.reverse, after.reverse, ?_, ?_⟩
    · rw [← List.reverse_reverse (formPairs query), hpairs]
      simp
    · intro q hq
      simpa using hafter q (List.mem_reverse.1 hq)
  · rintro ⟨before, after, hpairs, hafter⟩
    refine ⟨(name, value), List.find?_eq_some_iff_append.2 ⟨by simp, after.reverse, before.reverse, ?_, ?_⟩, rfl⟩
    · rw [hpairs]
      simp
    · intro q hq
      simpa using hafter q (List.mem_reverse.1 hq)

/-! ## Plain pairs -/

/-- A text of ASCII that has none of the marks of a query in it. -/
structure Plain (s : String) : Prop where
  ascii : Text.IsAscii s
  percent : '%' ∉ s.toList
  plus : '+' ∉ s.toList
  ampersand : '&' ∉ s.toList
  equals : '=' ∉ s.toList

/-- A character of ASCII that a plain text has not is not spelled in it. -/
theorem Plain.notMem (h : Plain s) {d : Char} (hd : d.toNat < 128) (hs : d ∉ s.toList) : UInt8.ofNat d.toNat ∉ Bytes.ofText s :=
  fun hm => hs ((Bytes.mem_ofText_ascii h.ascii hd).1 hm)

/-- A plain text is spelled as it is. -/
theorem Plain.decodeForm (h : Plain s) : decodeForm (Bytes.ofText s) = s := by
  have hplus : 0x2b ∉ Bytes.ofText s := h.notMem (d := '+') (by decide) h.plus
  have hpercent : 0x25 ∉ Bytes.ofText s := h.notMem (d := '%') (by decide) h.percent
  unfold Http.decodeForm
  rw [map_formByte_of_notMem hplus, unescape_of_notMem hpercent, Bytes.lossyText_ofText h.ascii]

/-- The decimal text of a number is plain. -/
theorem plain_toString (n : Nat) : Plain (toString n) := by
  have hdigit : ∀ d : Char, Text.isDigit d = false → d ∉ (toString n).toList := by
    intro d hd hm
    rw [Text.isDigit_of_mem hm] at hd
    exact nomatch hd
  exact ⟨Text.isAscii_toString n, hdigit _ rfl, hdigit _ rfl, hdigit _ rfl, hdigit _ rfl⟩

/-- The spelling of a plain pair. -/
def pairBytes (name value : String) : Bytes := Bytes.ofText name ++ 0x3d :: Bytes.ofText value

/-- A query with a pair put behind all else. -/
def withPair (query : Bytes) (name value : String) : Bytes := query ++ 0x26 :: pairBytes name value

/-- The pairs of a query are read piece by piece. -/
theorem formPairs_append (query rest : Bytes) : formPairs (query ++ 0x26 :: rest) = formPairs query ++ formPairs rest := by
  unfold formPairs
  rw [Bytes.splitOn_eq, Bytes.splitOn_eq, Bytes.splitOn_eq, List.splitOn_append_cons_self, List.filter_append, List.map_append]

/-- A plain pair is read as it is. -/
theorem formPairs_pairBytes (hname : Plain name) (hvalue : Plain value) : formPairs (pairBytes name value) = [(name, value)] := by
  have hequals : 0x3d ∉ Bytes.ofText name := hname.notMem (d := '=') (by decide) hname.equals
  have hampersand : 0x26 ∉ pairBytes name value := by
    intro hm
    rcases List.mem_append.1 hm with hm | hm
    · exact hname.notMem (d := '&') (by decide) hname.ampersand hm
    · rcases List.mem_cons.1 hm with hm | hm
      · exact absurd hm (by decide)
      · exact hvalue.notMem (d := '&') (by decide) hvalue.ampersand hm
  have hne : pairBytes name value ≠ [] := List.append_ne_nil_of_right_ne_nil _ (List.cons_ne_nil _ _)
  have hpieces : (Bytes.splitOn 0x26 (pairBytes name value)).filter (fun piece => !piece.isEmpty) = [pairBytes name value] := by
    rw [Bytes.splitOn_eq, List.splitOn_eq_singleton hampersand, List.filter_eq_self]
    simpa using hne
  unfold formPairs
  rw [hpieces, List.map_singleton, pairBytes, Bytes.cut_append_cons hequals]
  show [(decodeForm _, decodeForm _)] = _
  rw [hname.decodeForm, Option.getD_some, hvalue.decodeForm]

/-- A plain pair that stands last gives its name its value, and leaves the other names theirs. -/
theorem formValue?_withPair (hname : Plain name) (hvalue : Plain value) (query : Bytes) (other : String) :
    formValue? (withPair query name value) other = if other = name then some value else formValue? query other := by
  unfold formValue? withPair
  rw [formPairs_append, formPairs_pairBytes hname hvalue, List.filter_append]
  by_cases h : other = name
  · subst h
    simp
  · have h' : name ≠ other := fun e => h e.symm
    simp [h, h']

end InferenceGate.Http
