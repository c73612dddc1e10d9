import InferenceGate.Credential.Digest
import InferenceGate.Credential.Token
import InferenceGate.Proofs.Credential.Base64
import InferenceGate.Proofs.Credential.Claims
import InferenceGate.Proofs.Text.Pieces

/-!
# Tokens

What is signed under a secret is verified under it just when its claims hold at the time, and is then what was signed
(`signed_verifies_iff`). What is verified was made so: two parts in base64 that name the algorithm and spell the claims, and the code of
just these parts under the secret, while the claims hold (`verified_vouches`). Both are so for any code.
-/

namespace InferenceGate.Credential

open Json Document

/-- Claims hold at a time in seconds: they end, and not before that time, and where they tell when they begin they begin at a time from
zero on that is not after it. -/
structure Claims.HoldsAt (c : Claims) (now : Nat) : Prop where
  expires : ∃ t, c.expires = some t ∧ (now : Int) ≤ t
  notBefore : ∀ t, c.notBefore = some t → 0 ≤ t ∧ t ≤ now

/-- A header names an algorithm: it is a table that says so. -/
def NamesAlgorithm (header : Bytes) (name : String) : Prop :=
  ∃ members t, Json.read? header = some (.table members) ∧ (Tree.table members).member? "alg" = some t ∧
    wordOf? isNull t = some name

/-- What stands behind a token at a time: the secret, the two parts whose code it carries, and claims that hold. -/
structure Vouches (code : Code) (secret : Bytes) (now : Nat) (token : Bytes) (c : Claims) : Prop where
  secret_ne : secret ≠ []
  signed : ∃ header payload text, text = Base64Url.encode header ++ point :: Base64Url.encode payload ∧
    token = text ++ point :: Base64Url.encode (code secret text) ∧ NamesAlgorithm header algorithm ∧
    ∃ members, Json.read? payload = some (.table members) ∧ Claims.read? (.table members) = some c
  holds : c.HoldsAt now

namespace TokensAux

variable {code : Code} {secret token bs text last head payload : Bytes} {now : Nat} {c : Claims}

/-! ## The parts of a token -/

/-- A text cut at its last point falls into what stands before it and the last part. -/
theorem cutLast?_append (text : Bytes) (h : point ∉ last) : cutLast? (text ++ point :: last) = some (text, last) := by
  have hreverse : (text ++ point :: last).reverse = last.reverse ++ point :: text.reverse := by simp
  unfold cutLast?
  rw [hreverse, Bytes.cut_append_cons (by simpa using h)]
  simp

/-- What is cut at a point is what stood on both sides of it. -/
theorem eq_of_cutLast? (h : cutLast? bs = some (text, last)) : bs = text ++ point :: last := by
  rcases Bytes.notMem_or_eq_append_cons point bs.reverse with hnone | ⟨piece, rest, hpiece, hbs⟩
  · unfold cutLast? at h
    rw [Bytes.cut_of_notMem hnone] at h
    exact nomatch h
  · have hsplit : bs = rest.reverse ++ point :: piece.reverse := by
      rw [← List.reverse_reverse bs, hbs]
      simp
    rw [hsplit, cutLast?_append _ (by simpa using hpiece)] at h
    obtain ⟨rfl, rfl⟩ := Prod.mk.inj (Option.some.inj h)
    exact hsplit

/-- No spelling holds a point. -/
theorem point_notMem_encode (bs : Bytes) : point ∉ Base64Url.encode bs := by
  intro h
  obtain ⟨n, hn, hpoint⟩ := Base64Url.exists_of_mem_encode h
  have hvalue : Base64Url.value? point = some n := hpoint ▸ Base64Url.value?_symbol n hn
  exact nomatch hvalue

/-! ## Headers -/

theorem algorithmOf?_header : algorithmOf? (Base64Url.encode header) = some algorithm := by decide +kernel

/-- Members with their names are found by them as in their table. -/
theorem lookup_of_namedMembers? {ms : List (Atom × Json.Tree)} {named : List (String × Json.Tree)}
    (h : namedMembers? ms = some named) (name : String) : named.lookup name = (Tree.table ms).member? name := by
  show _ = (ms.find? fun m => Scalar.name? m.1 == some name).map Prod.snd
  induction ms generalizing named with
  | nil =>
    obtain rfl := Option.some.inj h
    rfl
  | cons m ms ih =>
    unfold namedMembers? at h ih
    rw [List.mapM_cons] at h
    obtain ⟨first, hfirst, h⟩ := Option.bind_eq_some_iff.1 h
    obtain ⟨others, hothers, h⟩ := Option.bind_eq_some_iff.1 h
    obtain rfl := Option.some.inj h
    obtain ⟨n, hn, rfl⟩ := Option.map_eq_some_iff.1 hfirst
    rw [List.lookup_cons, List.find?_cons, hn]
    by_cases hname : name = n
    · subst hname
      simp
    · rw [beq_false_of_ne hname, ih hothers, beq_false_of_ne (fun e => hname (Option.some.inj e).symm)]

/-- A header that is taken names its algorithm. -/
theorem namesAlgorithm_of_algorithmOf? {name : String} (h : algorithmOf? head = some name) :
    ∃ header, head = Base64Url.encode header ∧ NamesAlgorithm header name := by
  simp only [algorithmOf?, Option.bind_eq_bind, Option.bind_eq_some_iff] at h
  obtain ⟨header, hheader, tree, htree, named, hnamed, name', ⟨t, ht, hword⟩, h⟩ := h
  split at h
  · obtain rfl := Option.some.inj h
    refine ⟨header, Base64Url.decode?_eq_some.1 hheader, ?_⟩
    cases tree with
    | leaf a => exact nomatch hnamed
    | list items => exact nomatch hnamed
    | table ms =>
      simp only [headerMembers?, Option.bind_eq_bind, Option.bind_eq_some_iff] at hnamed
      obtain ⟨named', hnamed', hgiven⟩ := hnamed
      split at hgiven
      · obtain rfl := Option.some.inj hgiven
        exact ⟨ms, t, htree, lookup_of_namedMembers? hnamed' "alg" ▸ ht, hword⟩
      · exact nomatch hgiven
  · exact nomatch h

/-! ## Payloads -/

/-- Nothing is wrong with a payload at a time when it ends, and not before that time, when it begins, if it tells, no later, and when it is
for no audience. -/
theorem fault?_eq_none {r : Rules} : Validation.inForce.fault? now r = none ↔ (∃ t, r.expires = .proper t ∧ now ≤ t) ∧
    (r.notBefore = .absent ∨ ∃ u, r.notBefore = .proper u ∧ u ≤ now) ∧ r.audience ≠ .proper () := by
  have hite : ∀ {p : Prop} [Decidable p] {f : Fault} {o : Option Fault}, (if p then some f else o) = none ↔ ¬ p ∧ o = none := by
    intro p _ f o
    split <;> simp [*]
  obtain ⟨expires, notBefore, audience⟩ := r
  unfold Validation.fault?
  simp only [hite]
  cases expires <;> cases notBefore <;> simp [Validation.inForce, Rules.has, Ruled.any]

/-- What a payload shows that is taken: a document, its claims, and what the rules find in it. -/
theorem judge_eq_ok {v : Validation} (h : v.judge now payload = .ok c) :
    ∃ tree r, (Base64Url.decode? payload).bind Json.read? = some tree ∧ Claims.read? tree = some c ∧ Rules.read? tree = some r ∧
      v.fault? now r = none := by
  unfold Validation.judge at h
  split at h
  · exact nomatch h
  rename_i tree htree
  split at h
  · rename_i c' r hc hr
    cases hfault : v.fault? now r with
    | none =>
      rw [hfault] at h
      obtain rfl : c' = c := Except.ok.inj h
      exact ⟨tree, r, htree, hc, hr, hfault⟩
    | some f =>
      rw [hfault] at h
      nomatch h
  · exact nomatch h

/-- Claims that are taken hold at the time. -/
theorem holdsAt_of_judge (h : Validation.inForce.judge now payload = .ok c) : c.HoldsAt now := by
  obtain ⟨tree, r, -, hc, hr, hfault⟩ := judge_eq_ok h
  obtain ⟨⟨t, ht, hnow⟩, hbegin, -⟩ := fault?_eq_none.1 hfault
  obtain ⟨hexpires, hproper, habsent⟩ := times_of_rules hc hr
  refine ⟨⟨t, hexpires t ht, by omega⟩, fun u hu => ?_⟩
  rcases hbegin with hr | ⟨v, hr, hv⟩
  · exact nomatch (habsent hr).symm.trans hu
  · obtain rfl : (v : Int) = u := Option.some.inj ((hproper v hr).symm.trans hu)
    omega

/-- Claims that hold are taken as they were written. -/
theorem judge_written (hrange : c.InRange) (h : c.HoldsAt now) :
    Validation.inForce.judge now (Base64Url.encode (Bytes.ofText c.value.render)) = .ok c := by
  obtain ⟨⟨t, ht, hnow⟩, hbegin⟩ := h
  have htree : (Base64Url.decode? (Base64Url.encode (Bytes.ofText c.value.render))).bind Json.read? = some (treeOf c.value) := by
    rw [Base64Url.decode?_encode, Option.bind_some, Claims.read?_render hrange]
  have hexpires : ruledTime c.expires = .proper t.toNat := by
    rw [ht, ruledTime, if_neg (by omega)]
  have hnotBefore : ruledTime c.notBefore = .absent ∨ ∃ u, ruledTime c.notBefore = .proper u ∧ u ≤ now := by
    cases hu : c.notBefore with
    | none => exact .inl rfl
    | some u =>
      obtain ⟨hzero, hu⟩ := hbegin u hu
      exact .inr ⟨u.toNat, if_neg (Int.not_lt.2 hzero), by omega⟩
  unfold Validation.judge
  rw [htree]
  simp only [Claims.read?_value hrange, Rules.read?_value hrange]
  rw [fault?_eq_none.2 ⟨⟨t.toNat, hexpires, by omega⟩, hnotBefore, by simp⟩]
  rfl

/-! ## Verification -/

/-- What is signed under a secret is verified under it as its payload is judged. -/
theorem verify_signed (hsecret : secret ≠ []) (payload : Bytes) :
    verify code secret now (signedText payload ++ point :: Base64Url.encode (code secret (signedText payload))) =
      Validation.inForce.judge now (Base64Url.encode payload) := by
  have hempty : secret.isEmpty = false := by simpa using hsecret
  have htext : cutLast? (signedText payload) = some (Base64Url.encode header, Base64Url.encode payload) :=
    cutLast?_append _ (point_notMem_encode payload)
  unfold verify Validation.verify
  rw [hempty, cutLast?_append _ (point_notMem_encode _)]
  simp [htext, algorithmOf?_header, Base64Url.decode?_encode, Validation.inForce]

/-- What is verified is a text and its code under the secret, the text a header that names the algorithm and a payload that is taken. -/
theorem verify_eq_ok (h : verify code secret now token = .ok c) : secret ≠ [] ∧
    ∃ text head payload, cutLast? token = some (text, Base64Url.encode (code secret text)) ∧
      cutLast? text = some (head, payload) ∧ algorithmOf? head = some algorithm ∧ Validation.inForce.judge now payload = .ok c := by
  unfold verify Validation.verify at h
  split at h
  · exact nomatch h
  rename_i hsecret
  split at h
  · exact nomatch h
  rename_i text signature htoken
  split at h
  · exact nomatch h
  rename_i head payload htext
  split at h
  · exact nomatch h
  rename_i name hname
  split at h
  · exact nomatch h
  rename_i halgorithm
  split at h
  · exact nomatch h
  rename_i given hgiven
  split at h
  · exact nomatch h
  rename_i hcode
  obtain rfl : name = algorithm := by simpa [Validation.inForce] using halgorithm
  obtain rfl : given = code secret text := by simpa using hcode
  obtain rfl := Base64Url.decode?_eq_some.1 hgiven
  exact ⟨by simpa using hsecret, text, head, payload, htoken, htext, hname, h⟩

end TokensAux

open TokensAux

/-- Claims whose numbers are words can be signed under a secret that is not empty, and at any time what is signed is verified under that
secret, as just these claims, if and only if they hold then. -/
theorem signed_verifies_iff (code : Code) {secret : Bytes} (hsecret : secret ≠ []) {c : Claims} (hrange : c.InRange) (now : Nat) :
    ∃ token, sign code secret c = .ok token ∧ (verify code secret now token = .ok c ↔ c.HoldsAt now) := by
  have hempty : secret.isEmpty = false := by simpa using hsecret
  refine ⟨_, by rw [sign, hempty]; rfl, ?_⟩
  rw [verify_signed hsecret]
  exact ⟨holdsAt_of_judge, judge_written hrange⟩

/-- Claims verified up to the very second at which they end, and not in the next. -/
theorem signed_verifies_iff_last_second :
    let secret := Bytes.ofText "gateway-test-secret"
    let c : Claims :=
      { user := -7, role := "früh", version := 3, subject := some "a\"b", expires := some 1700003600, notBefore := some 0,
        issued := some (-1) }
    (∃ token, sign Digest.authenticate secret c = .ok token ∧ verify Digest.authenticate secret 1700003600 token = .ok c) ∧
      ∃ token, sign Digest.authenticate secret c = .ok token ∧ verify Digest.authenticate secret 1700003601 token ≠ .ok c := by
  intro secret c
  have hrange : c.InRange := ⟨by decide, by decide, by rintro _ ⟨⟩; decide, by rintro _ ⟨⟩; decide, by rintro _ ⟨⟩; decide⟩
  obtain ⟨token, hsign, hverify⟩ := signed_verifies_iff Digest.authenticate (by decide : secret ≠ []) hrange 1700003600
  obtain ⟨token', hsign', hverify'⟩ := signed_verifies_iff Digest.authenticate (by decide : secret ≠ []) hrange 1700003601
  refine ⟨⟨token, hsign, hverify.2 ⟨⟨_, rfl, by decide⟩, by rintro _ ⟨⟩; decide⟩⟩, token', hsign', fun hok => ?_⟩
  obtain ⟨t, ht, hle⟩ := (hverify'.1 hok).expires
  obtain rfl := Option.some.inj ht
  exact absurd hle (by decide)

/-- Claims that begin before all time are not verified, although they have begun. -/
theorem begun_before_zero_refused :
    let secret := Bytes.ofText "gateway-test-secret"
    let c : Claims := { user := 7, role := "user", version := 1, expires := some 4102444800, notBefore := some (-1) }
    secret ≠ [] ∧ (∃ t, c.expires = some t ∧ 1700000000 ≤ t) ∧ (∃ t, c.notBefore = some t ∧ t ≤ 1700000000) ∧
      ∃ token, sign Digest.authenticate secret c = .ok token ∧
        verify Digest.authenticate secret 1700000000 token = .error .malformed := by
  refine ⟨by decide, ⟨_, rfl, by decide⟩, ⟨_, rfl, by decide⟩, _, rfl, ?_⟩
  exact (verify_signed (by decide) _).trans (by decide +kernel)

/-- What is verified at a time is vouched for: the secret is not empty, the token is a header that names the algorithm, a payload that
spells the claims and the code of both under the secret, and the claims hold. -/
theorem verified_vouches {code : Code} {secret token : Bytes} {now : Nat} {c : Claims} (h : verify code secret now token = .ok c) :
    Vouches code secret now token c := by
  obtain ⟨hsecret, text, head, payload, htoken, htext, hname, hjudge⟩ := verify_eq_ok h
  obtain rfl := eq_of_cutLast? htext
  obtain ⟨header, rfl, hheader⟩ := namesAlgorithm_of_algorithmOf? hname
  obtain ⟨tree, r, hspelled, hc, hr, -⟩ := judge_eq_ok hjudge
  obtain ⟨bs, hbs, htree⟩ := Option.bind_eq_some_iff.1 hspelled
  obtain rfl := Base64Url.decode?_eq_some.1 hbs
  obtain ⟨ms, rfl⟩ := Rules.exists_table hr
  exact ⟨hsecret, ⟨header, bs, _, rfl, eq_of_cutLast? htoken, hheader, ms, htree, hc⟩, holdsAt_of_judge hjudge⟩

/-- A token of another signer, its members in another order and one of them of no claim, in its last second. -/
theorem verified_vouches_last_second :
    let secret := Bytes.ofText "gateway-test-secret"
    let token := Bytes.ofText ("eyJhbGciOiJIUzI1NiIsImtpZCI6ImsxIn0." ++
      "eyJleHAiOjE3MDAwMDAwMDAsInNjb3BlIjpbMV0sInVzZXJfaWQiOjcsIm5iZiI6MTY5MDAwMDAwMH0." ++
      "XpVNHiB3AZmF6AOQfkjszHwtYQxaO12C-3IELkrLbPU")
    let c : Claims := { user := 7, expires := some 1700000000, notBefore := some 1690000000 }
    verify Digest.authenticate secret 1700000000 token = .ok c ∧ Vouches Digest.authenticate secret 1700000000 token c := by
  intro secret token c
  have h : verify Digest.authenticate secret 1700000000 token = .ok c := by decide +kernel
  exact ⟨h, verified_vouches h⟩

end InferenceGate.Credential
