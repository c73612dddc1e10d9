import InferenceGate.Credential.Claims
import InferenceGate.Proofs.Json.Numerals
import InferenceGate.Proofs.Json.Records

/-!
# Claims are read back

Claims whose numbers are words are read from their text as they were written (`Claims.read?_value`). What the rules of tokens find in
that text are the times of the claims, except that they know no time below zero (`Rules.read?_value`); and in whatever document both
can be read, the times that the rules find are those of the claims (`times_of_rules`).
-/

namespace InferenceGate.Credential

open Json Document

/-- The numbers of claims are words, as those of all claims that are signed or read. -/
structure Claims.InRange (c : Claims) : Prop where
  user : inI64 c.user
  version : c.version ≤ maxU64
  expires : ∀ t, c.expires = some t → inI64 t
  notBefore : ∀ t, c.notBefore = some t → inI64 t
  issued : ∀ t, c.issued = some t → inI64 t

/-- What the rules make of a time that claims may tell. -/
def ruledTime : Option Int → Ruled Nat
  | none => .absent
  | some t => if t < 0 then .improper else .proper t.toNat

namespace ClaimsAux

variable {c : Claims}

/-! ## Claims as they are written -/

/-- The members of claims, with those that may be absent. -/
def members (c : Claims) : List (String × Option Value) :=
  [("user_id", some (.ofInt c.user)), ("role", some (.string c.role)), ("Version", some (.ofNat c.version)),
    ("sub", c.subject.map .string), ("exp", c.expires.map .ofInt), ("nbf", c.notBefore.map .ofInt), ("iat", c.issued.map .ofInt)]

/-- No two claims have one name. -/
theorem names_nodup (c : Claims) : ((members c).map Prod.fst).Nodup := by
  show ["user_id", "role", "Version", "sub", "exp", "nbf", "iat"].Nodup
  decide

theorem value_eq (c : Claims) : c.value = .object (written (members c)) := by
  obtain ⟨user, role, version, subject, expires, notBefore, issued⟩ := c
  cases subject <;> cases expires <;> cases notBefore <;> cases issued <;> rfl

theorem render_value (c : Claims) : c.value.render = renderRecord (members c) := by
  rw [value_eq]
  rfl

/-- Claims in range can be read back. -/
theorem legible_members (h : c.InRange) : ∀ m ∈ members c, ∀ v, m.2 = some v → Legible v := by
  have hversion : inU64 c.version := by
    have := h.version
    simp [inU64, this]
  intro m hm v hv
  simp only [members, List.mem_cons, List.not_mem_nil, or_false] at hm
  rcases hm with rfl | rfl | rfl | rfl | rfl | rfl | rfl
  · obtain rfl := Option.some.inj hv
    exact legible_integer (.inl h.user)
  · obtain rfl := Option.some.inj hv
    exact legible_string _
  · obtain rfl := Option.some.inj hv
    exact legible_integer (.inr hversion)
  · obtain ⟨s, -, rfl⟩ := Option.map_eq_some_iff.1 hv
    exact legible_string s
  · exact legible_of_map_ofInt h.expires hv
  · exact legible_of_map_ofInt h.notBefore hv
  · exact legible_of_map_ofInt h.issued hv

/-! ## Times -/

/-- A time that is a signed word is ruled on as it stands. -/
theorem timeOf_ofInt {t : Int} (h : inI64 t) : timeOf (treeOf (.ofInt t)) = ruledTime (some t) := by
  have hword : t.toNat ≤ maxU64 := by
    simp only [inI64, Bool.and_eq_true, decide_eq_true_eq] at h
    unfold maxI64 at h
    unfold maxU64
    omega
  by_cases ht : t < 0
  · simp [timeOf, treeOf, Value.ofInt, Tree.natural?, Scalar.natural?, ruledTime, Option.filter, ht]
  · simp [timeOf, treeOf, Value.ofInt, Tree.natural?, Scalar.natural?, ruledTime, Option.filter, ht, hword]

/-- A time that the rules find is read as the same time where it may be absent. -/
theorem optional?_of_timeOf {t : Json.Tree} {n : Nat} {o : Option Int} (h : timeOf t = .proper n)
    (ho : t.optional? Tree.i64? = some o) : o = some (n : Int) := by
  cases t with
  | list items => exact nomatch h
  | table ms => exact nomatch h
  | leaf a =>
    have hread : (Tree.leaf a).natural? maxU64 = some n := by
      unfold timeOf at h
      split at h
      · rename_i m hm
        rw [hm, Ruled.proper.inj h]
      · exact nomatch h
    obtain ⟨hnatural, -⟩ := Option.filter_eq_some_iff.1 hread
    match a, hnatural with
    | .number (some (.integer m)), hnatural =>
      obtain ⟨hm, hnatural⟩ : ¬ m < 0 ∧ m.toNat = n := by
        simpa [Scalar.natural?] using hnatural
      obtain ⟨m', hm', rfl⟩ := Option.map_eq_some_iff.1 ho
      unfold Tree.i64? Tree.integer? at hm'
      obtain ⟨hm', -⟩ := Option.filter_eq_some_iff.1 hm'
      obtain rfl : m = m' := Option.some.inj hm'
      congr 1
      omega

/-- What the rules find under a name is what a field of that name is read as. -/
theorem optional?_of_ruled {found : Found Atom} {name : String} {o : Option Int} (ho : found.optional? name Tree.i64? = some o) :
    (∀ n, (found.get? name).elim .absent timeOf = .proper n → o = some (n : Int)) ∧
      ((found.get? name).elim .absent timeOf = .absent → o = none) := by
  unfold Found.optional? Found.getD at ho
  cases hget : found.get? name with
  | none =>
    rw [hget] at ho
    exact ⟨nofun, fun _ => (Option.some.inj ho).symm⟩
  | some t =>
    rw [hget] at ho
    refine ⟨fun n hn => optional?_of_timeOf hn ho, fun habsent => ?_⟩
    have htime : timeOf t = .absent := habsent
    unfold timeOf at htime
    split at htime <;> exact nomatch htime

end ClaimsAux

open ClaimsAux

variable {c : Claims}

/-- The text of claims is read as their tree. -/
theorem Claims.read?_render (h : c.InRange) : Json.read? (Bytes.ofText c.value.render) = some (treeOf c.value) := by
  rw [render_value, read?_renderRecord (legible_members h), value_eq]

/-- Claims are read as they were written. -/
theorem Claims.read?_value (h : c.InRange) : Claims.read? (treeOf c.value) = some c := by
  obtain ⟨found, hread, hget⟩ := record?_written [{ name := "user_id" }, { name := "role" }, { name := "Version" },
    { name := "sub" }, { name := "exp" }, { name := "nbf" }, { name := "iat" }] (names_nodup c) (by decide)
  have huser : found.required? "user_id" Tree.i64? = some c.user :=
    required?_written (hget "user_id" (by decide)) (i64?_ofInt h.user)
  have hrole : found.getD "role" "" Tree.text? = some c.role :=
    getD_written (hget "role" (by decide)) rfl
  have hversion : found.getD "Version" 0 (Tree.natural? maxU64) = some c.version :=
    getD_written (hget "Version" (by decide)) (natural?_ofNat h.version)
  have hsubject : found.optional? "sub" Tree.text? = some c.subject :=
    optional?_written (hget "sub" (by decide)) fun _ _ => rfl
  have hexpires : found.optional? "exp" Tree.i64? = some c.expires :=
    optional?_written (hget "exp" (by decide)) fun t ht => optional?_ofInt (h.expires t ht)
  have hnotBefore : found.optional? "nbf" Tree.i64? = some c.notBefore :=
    optional?_written (hget "nbf" (by decide)) fun t ht => optional?_ofInt (h.notBefore t ht)
  have hissued : found.optional? "iat" Tree.i64? = some c.issued :=
    optional?_written (hget "iat" (by decide)) fun t ht => optional?_ofInt (h.issued t ht)
  unfold Claims.read?
  rw [value_eq, hread]
  simp only [Option.bind_eq_bind, Option.bind_some, huser, hrole, hversion, hsubject, hexpires, hnotBefore, hissued]
  rfl

/-- What the rules of tokens find in claims as they were written. -/
theorem Rules.read?_value (h : c.InRange) : Rules.read? (treeOf c.value) =
    some { expires := ruledTime c.expires, notBefore := ruledTime c.notBefore, audience := .absent } := by
  obtain ⟨found, hread, hget⟩ := record?_written [{ name := "exp" }, { name := "nbf" }, { name := "sub" },
    { name := "iss" }, { name := "aud" }] (names_nodup c) (by decide)
  have hfound : fromMembers [{ name := "exp" }, { name := "nbf" }, { name := "sub" }, { name := "iss" }, { name := "aud" }]
      (memberTreesOf (written (members c))) [] = some found := hread
  have htime : ∀ {o : Option Int}, (∀ t, o = some t → inI64 t) →
      ((o.map Value.ofInt).map treeOf).elim .absent timeOf = ruledTime o := by
    intro o ho
    cases o with
    | none => rfl
    | some t => exact timeOf_ofInt (ho t rfl)
  have hexpires : (found.get? "exp").elim .absent timeOf = ruledTime c.expires := by
    rw [hget "exp" (by decide)]
    exact htime h.expires
  have hnotBefore : (found.get? "nbf").elim .absent timeOf = ruledTime c.notBefore := by
    rw [hget "nbf" (by decide)]
    exact htime h.notBefore
  have hissuer : found.get? "iss" = none := hget "iss" (by decide)
  have haudience : found.get? "aud" = none := hget "aud" (by decide)
  have hreadable : (["iss", "aud"].all fun name => (found.get? name).all isReadable) = true := by
    simp [hissuer, haudience]
  rw [value_eq, treeOf, Rules.read?]
  simp only [Option.bind_eq_bind, hfound, Option.bind_some, hexpires, hnotBefore, haudience]
  rw [if_pos hreadable]
  rfl

/-- The rules find something only in a table. -/
theorem Rules.exists_table {t : Json.Tree} {r : Rules} (h : Rules.read? t = some r) : ∃ ms, t = .table ms := by
  cases t with
  | table ms => exact ⟨ms, rfl⟩
  | leaf a => exact nomatch h
  | list items => exact nomatch h

/-- The times that the rules find in a document are those that the claims read from it: both find the one member under the name. -/
theorem times_of_rules {t : Json.Tree} {r : Rules} (hc : Claims.read? t = some c) (hr : Rules.read? t = some r) :
    (∀ n, r.expires = .proper n → c.expires = some (n : Int)) ∧ (∀ n, r.notBefore = .proper n → c.notBefore = some (n : Int)) ∧
      (r.notBefore = .absent → c.notBefore = none) := by
  obtain ⟨ms, rfl⟩ := Rules.exists_table hr
  simp only [Claims.read?, Option.bind_eq_bind, Option.bind_eq_some_iff] at hc
  obtain ⟨found, hfound, user, -, role, -, version, -, subject, -, expires, hexpires, notBefore, hnotBefore, issued, -, hc⟩ := hc
  obtain rfl := Option.some.inj hc
  simp only [Rules.read?, Option.bind_eq_bind, Option.bind_eq_some_iff] at hr
  obtain ⟨ruled, hruled, hr⟩ := hr
  split at hr
  · obtain rfl := Option.some.inj hr
    obtain ⟨hspells, rfl⟩ := record?_table.1 hfound
    obtain ⟨hspells', rfl⟩ := record?_table.1 (show (Tree.table ms).record? _ = _ from hruled)
    have hexp : Found.get? (given _ ms).reverse "exp" = Found.get? (given _ ms).reverse "exp" :=
      (get?_eq_member? hspells' (by decide) (by decide)).trans (get?_eq_member? hspells (by decide) (by decide)).symm
    have hnbf : Found.get? (given _ ms).reverse "nbf" = Found.get? (given _ ms).reverse "nbf" :=
      (get?_eq_member? hspells' (by decide) (by decide)).trans (get?_eq_member? hspells (by decide) (by decide)).symm
    dsimp only
    rw [hexp, hnbf]
    obtain ⟨hproper, -⟩ := optional?_of_ruled hexpires
    obtain ⟨hproper', habsent⟩ := optional?_of_ruled hnotBefore
    exact ⟨hproper, hproper', habsent⟩
  · exact nomatch hr

end InferenceGate.Credential
