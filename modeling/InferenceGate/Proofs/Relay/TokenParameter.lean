import InferenceGate.Credential.Gate
import InferenceGate.Proofs.Http.Queries
import InferenceGate.Proofs.Text.Blanks
import InferenceGate.Proofs.Text.Pieces
import InferenceGate.Proofs.Text.Spelling
import InferenceGate.Relay.Backend

/-!
# The token in a query

A caller may name its token in the query. The gateway looks for it among the decoded parameters, and takes it out of what it relays by
the spelling of the name, so it takes out the parameters that are spelled `token` and no others (`params_address`). A name that is
spelled with escapes is read as that of the token and is relayed with it (`token_relayed_iff`); where no name has an escape in it, the
token stays behind.
-/

namespace InferenceGate.Relay

open Http

/-- The query of an address, or of a path with its query: what follows the first question mark. -/
def queryOf (address : Bytes) : Bytes := (address.dropWhile (· != 0x3f)).tail

/-- The parameters of an address: what stands between the ampersands of its query, nothing aside. -/
def params (address : Bytes) : List Bytes := (List.splitOn 0x26 (queryOf address)).filter fun p => !p.isEmpty

/-- The name of a parameter as it is spelled. -/
def spelledName (param : Bytes) : Bytes := param.takeWhile (· != 0x3d)

/-- An address carries a token: once decoded, one of its parameters has the name of the token. -/
def CarriesToken (address : Bytes) : Prop := ∃ p ∈ formPairs (queryOf address), p.1 = "token"

namespace TokenParameterAux

variable {front path query bs : Bytes} {b : Backend}

/-! ## Queries -/

/-- What stands before a separator is passed over whole. -/
theorem bne_of_notMem {sep : UInt8} (h : sep ∉ bs) : ∀ x ∈ bs, (x != sep) = true :=
  fun _ hx => bne_iff_ne.2 fun e => h (e ▸ hx)

/-- What stands before a question mark does not change the query. -/
theorem queryOf_append (h : 0x3f ∉ front) (bs : Bytes) : queryOf (front ++ bs) = queryOf bs := by
  unfold queryOf
  rw [List.dropWhile_append_of_pos (bne_of_notMem h)]

theorem queryOf_mark (query : Bytes) : queryOf (0x3f :: query) = query := rfl

theorem queryOf_of_notMem (h : 0x3f ∉ bs) : queryOf bs = [] := by
  rw [← List.append_nil bs, queryOf_append h]
  rfl

theorem params_of_query_eq_nil (h : queryOf bs = []) : params bs = [] := by
  unfold params
  rw [h]
  rfl

theorem pairName_eq (pair : Bytes) : pairName pair = spelledName pair := by
  unfold pairName spelledName
  rcases Bytes.notMem_or_eq_append_cons 0x3d pair with h | ⟨name, value, h, rfl⟩
  · rw [Bytes.cut_of_notMem h]
    conv => rhs; rw [← List.append_nil pair, List.takeWhile_append_of_pos (bne_of_notMem h), List.takeWhile_nil, List.append_nil]
  · rw [Bytes.cut_append_cons h, List.takeWhile_append_of_pos (bne_of_notMem h)]
    simp

/-- The pairs that are kept are the parameters of other names. -/
theorem keptPairs_eq (name query : Bytes) :
    keptPairs name query = (params (0x3f :: query)).filter fun p => spelledName p != name := by
  unfold keptPairs params
  rw [queryOf_mark, List.filter_filter, Bytes.splitOn_eq]
  refine List.filter_congr fun p _ => ?_
  rw [pairName_eq, Bool.and_comm]

/-- Pairs that have no ampersand and are not empty are the parameters of the query that joins them. -/
theorem params_joined {pairs : List Bytes} (hne : pairs ≠ []) (h : ∀ p ∈ pairs, 0x26 ∉ p ∧ p ≠ []) :
    params (0x3f :: joined 0x26 pairs) = pairs := by
  unfold params joined
  rw [queryOf_mark, List.splitOn_intercalate 0x26 (fun p hp => (h p hp).1) hne]
  exact List.filter_eq_self.2 fun p hp => by simpa using (h p hp).2

/-- A parameter is not empty and holds no ampersand. -/
theorem mem_params (h : bs ∈ params path) : 0x26 ∉ bs ∧ bs ≠ [] := by
  unfold params at h
  rw [List.mem_filter, ← Bytes.splitOn_eq] at h
  exact ⟨Bytes.notMem_of_mem_splitOn h.1, by simpa using h.2⟩

/-- The path before a question mark does not change the parameters. -/
theorem params_append_mark (h : 0x3f ∉ path) (query : Bytes) : params (path ++ 0x3f :: query) = params (0x3f :: query) := by
  unfold params
  rw [queryOf_append h]

/-- Of the parameters of a path and query those that are spelled like the name are taken out. -/
theorem params_withoutParam (name target : Bytes) :
    params (withoutParam name target) = (params target).filter fun p => spelledName p != name := by
  unfold withoutParam
  rcases Bytes.notMem_or_eq_append_cons 0x3f target with h | ⟨path, query, h, rfl⟩
  · rw [Bytes.cut_of_notMem h]
    simp only [params_of_query_eq_nil (queryOf_of_notMem h), List.filter_nil]
  · rw [Bytes.cut_append_cons h, params_append_mark h, ← keptPairs_eq]
    have hpairs : ∀ p ∈ keptPairs name query, 0x26 ∉ p ∧ p ≠ [] := by
      intro p hp
      rw [keptPairs_eq] at hp
      exact mem_params (List.mem_filter.1 hp).1
    dsimp only
    split
    · rename_i hk
      rw [hk]
      exact params_of_query_eq_nil (queryOf_of_notMem h)
    · rename_i hk
      exact (params_append_mark h _).trans (params_joined hk hpairs)

/-! ## Addresses -/

theorem eq_or_cons_withoutSlash (path : Bytes) : path = withoutSlash path ∨ path = 0x2f :: withoutSlash path := by
  unfold withoutSlash
  split
  · exact .inr rfl
  · exact .inl rfl

/-- A slash at the front does not change the query. -/
theorem queryOf_withoutSlash (path : Bytes) : queryOf (withoutSlash path) = queryOf path := by
  rcases eq_or_cons_withoutSlash path with h | h
  · rw [← h]
  · conv => rhs; rw [h]
    exact (queryOf_append (show 0x3f ∉ [0x2f] by decide) _).symm

/-- What follows version 1 in a path is the rest of it. -/
theorem eq_append_of_afterVersion1? {rest : Bytes} (h : afterVersion1? path = some rest) :
    withoutSlash path = withoutSlash version1 ++ rest := by
  unfold afterVersion1? at h
  cases ha : Bytes.afterHead? (withoutSlash version1) (withoutSlash path) with
  | none =>
    rw [ha] at h
    exact nomatch h
  | some after =>
    rw [ha] at h
    have hr : after = rest := by
      split at h <;> simp_all
    exact hr ▸ Bytes.eq_append_of_afterHead? ha

/-- The query of a path is that of its address at a base without one. -/
theorem queryOf_join {base : Bytes} (hb : 0x3f ∉ base) (path : Bytes) : queryOf (join base path) = queryOf path := by
  have hb' : 0x3f ∉ Text.dropEnd (· == 0x2f) base := fun hm => hb ((Text.dropEnd_prefix _ base).mem hm)
  unfold join
  dsimp only
  split
  · rename_i rest hrest
    rw [queryOf_append hb', ← queryOf_withoutSlash path]
    split at hrest
    · rw [eq_append_of_afterVersion1? hrest, queryOf_append (by decide)]
    · exact nomatch hrest
  · rw [queryOf_append hb']
    exact (queryOf_append (show 0x3f ∉ [0x2f] by decide) _).trans (queryOf_withoutSlash path)

/-- The parameters of an address are those of the target but the token. -/
theorem params_address (hb : 0x3f ∉ Bytes.ofText b.base) (target : Bytes) :
    params (b.address target) = (params target).filter fun p => spelledName p != tokenParam := by
  rw [← params_withoutParam]
  unfold params Backend.address
  rw [queryOf_join hb]

/-! ## Decoded names -/

/-- The decoded parameters have the decoded names of the parameters. -/
theorem carriesToken_iff (address : Bytes) : CarriesToken address ↔ ∃ p ∈ params address, decodeForm (spelledName p) = "token" := by
  unfold CarriesToken formPairs params
  rw [← Bytes.splitOn_eq]
  constructor
  · rintro ⟨p, hp, hname⟩
    obtain ⟨pair, hpair, rfl⟩ := List.mem_map.1 hp
    exact ⟨pair, hpair, pairName_eq pair ▸ hname⟩
  · rintro ⟨pair, hpair, hname⟩
    exact ⟨_, List.mem_map.2 ⟨pair, hpair, rfl⟩, (congrArg decodeForm (pairName_eq pair)).trans hname⟩

/-- A name without an escape that decodes to that of the token is spelled like it. -/
theorem eq_tokenParam_of_decodeForm (h : 0x25 ∉ bs) (hd : decodeForm bs = "token") : bs = tokenParam := by
  have hplain : 0x25 ∉ bs.map formByte := by
    intro hm
    obtain ⟨x, hx, hf⟩ := List.mem_map.1 hm
    have hx' : formByte x = x := formByte_eq (by rw [hf]; decide)
    exact h (hf ▸ hx'.symm ▸ hx)
  unfold decodeForm at hd
  rw [unescape_of_notMem hplain] at hd
  have hbytes : tokenParam = bs.map formByte := by
    rw [← Bytes.ofText_lossyText (show Bytes.replacement ∉ (Bytes.lossyText (bs.map formByte)).toList by rw [hd]; decide), hd]
    rfl
  have hsame : bs.map formByte = bs := by
    conv => rhs; rw [← List.map_id bs]
    refine List.map_congr_left fun x hx => formByte_eq fun hf => ?_
    have hm : (0x20 : UInt8) ∈ tokenParam := hbytes ▸ List.mem_map.2 ⟨x, hx, hf⟩
    exact absurd hm (by decide)
  rw [hbytes, hsame]

end TokenParameterAux

open TokenParameterAux

/-- Of the parameters of a call those spelled `token` are taken out before it goes to the backend. So the address carries a token just
when another of the parameters has that name once it is decoded, and it carries none, and none that the gateway would take for a
credential, when no name is spelled with an escape. -/
theorem token_relayed_iff {b : Backend} (hb : 0x3f ∉ Bytes.ofText b.base) (mode : Mode) (method : String) (target : Bytes)
    (fields : Fields) (user : Option Int) (body : Bytes) :
    let address := (b.request mode method target fields user body).address
    params address = (params target).filter (fun p => spelledName p != Bytes.ofText "token") ∧
      (CarriesToken address ↔ ∃ p ∈ params target, spelledName p ≠ Bytes.ofText "token" ∧ decodeForm (spelledName p) = "token") ∧
      ((∀ p ∈ params target, 0x25 ∉ spelledName p) →
        ¬ CarriesToken address ∧ Credential.queryToken? (some (queryOf address)) = none) := by
  intro address
  have hparams : params address = (params target).filter fun p => spelledName p != Bytes.ofText "token" := params_address hb target
  have hiff : CarriesToken address ↔
      ∃ p ∈ params target, spelledName p ≠ Bytes.ofText "token" ∧ decodeForm (spelledName p) = "token" := by
    rw [carriesToken_iff, hparams]
    refine exists_congr fun p => ?_
    rw [List.mem_filter, bne_iff_ne, and_assoc]
  refine ⟨hparams, hiff, fun hplain => ?_⟩
  have hnone : ¬ CarriesToken address := by
    rw [hiff]
    rintro ⟨p, hp, hne, hname⟩
    exact hne (eq_tokenParam_of_decodeForm (hplain p hp) hname)
  refine ⟨hnone, ?_⟩
  have hempty : (formPairs (queryOf address)).filter (fun p => p.1 == "token") = [] :=
    List.filter_eq_nil_iff.2 fun p hp hname => hnone ⟨p, hp, eq_of_beq hname⟩
  show (formValue? (queryOf address) "token").bind Text.trimmed? = none
  unfold formValue?
  rw [hempty]
  rfl

/-- A call with two parameters, one of them spelled `token`. -/
theorem token_relayed_iff_plain_call :
    let b : Backend := ⟨"http://upstream/v1", []⟩
    let target := Bytes.ofText "/v1/models?a=1&token=abc"
    let address := (b.request .passthrough "GET" target [] (some 7) []).address
    (0x3f ∉ Bytes.ofText b.base) ∧ (∀ p ∈ params target, 0x25 ∉ spelledName p) ∧ params address = [Bytes.ofText "a=1"] ∧
      ¬ CarriesToken address := by
  intro b target address
  have hb : 0x3f ∉ Bytes.ofText b.base := by decide
  have hplain : ∀ p ∈ params target, 0x25 ∉ spelledName p := by decide
  obtain ⟨hparams, -, hnone⟩ := token_relayed_iff hb .passthrough "GET" target [] (some 7) []
  exact ⟨hb, hplain, hparams.trans (by decide), (hnone hplain).1⟩

/-- A call whose parameter is spelled with an escape is relayed with its token. -/
theorem escaped_token_relayed :
    let b : Backend := ⟨"http://upstream", []⟩
    let target := Bytes.ofText "/v1/models?%74oken=abc"
    let address := (b.request .passthrough "GET" target [] (some 7) []).address
    address = Bytes.ofText "http://upstream/v1/models?%74oken=abc" ∧ CarriesToken address ∧
      Credential.queryToken? (some (queryOf target)) = some "abc" ∧ Credential.queryToken? (some (queryOf address)) = some "abc" := by
  have hname : decodeForm (Bytes.ofText "%74oken") = "token" := by
    unfold decodeForm
    rw [show (Bytes.ofText "%74oken").map formByte = 0x25 :: 0x37 :: 0x34 :: Bytes.ofText "oken" from rfl, unescape.eq_2,
      unescape_of_notMem (by decide)]
    rfl
  have hvalue : decodeForm (Bytes.ofText "abc") = "abc" := by
    unfold decodeForm
    rw [unescape_of_notMem (by decide)]
    rfl
  have hpairs : formPairs (Bytes.ofText "%74oken=abc") = [("token", "abc")] := by
    show [(decodeForm (Bytes.ofText "%74oken"), decodeForm (Bytes.ofText "abc"))] = _
    rw [hname, hvalue]
  have hread : Credential.queryToken? (some (Bytes.ofText "%74oken=abc")) = some "abc" := by
    unfold Credential.queryToken? formValue?
    rw [show ((some (Bytes.ofText "%74oken=abc")).getD []) = Bytes.ofText "%74oken=abc" from rfl, hpairs]
    rfl
  refine ⟨rfl, ⟨("token", "abc"), ?_, rfl⟩, hread, hread⟩
  exact hpairs ▸ List.mem_singleton_self _

end InferenceGate.Relay
