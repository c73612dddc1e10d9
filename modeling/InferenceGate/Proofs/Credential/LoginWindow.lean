import InferenceGate.Credential.Gate
import InferenceGate.Proofs.Credential.Tokens
import Mathlib.Data.List.Induction
import Mathlib.Data.List.Perm.Subperm

/-!
# The window of logins

Each login of a user gives a token with a version of its own, one more than the user's login before. A token is good while fewer of its
user's logins than the window have followed the one that gave it (`login_window`): so no more tokens than the window are good at a time,
one that has fallen out of the window stays out, and the logins of others make no difference.
-/

namespace InferenceGate.Credential

/-- The versions after logins of users, one after the other, the first of them when nobody had logged in. -/
def Versions.after (logins : List Int) : Versions := logins.foldl (fun vs user => (vs.login user).2) {}

/-- The version of the token that a login of a user gives, after the logins before it. -/
def Versions.given (before : List Int) (user : Int) : Nat := ((Versions.after before).login user).1

/-- One of the logins was the user's and gave this version. -/
def Versions.Gave (logins : List Int) (user : Int) (version : Nat) : Prop :=
  ∃ before after, logins = before ++ user :: after ∧ version = Versions.given before user

/-- A call presents a token that holds at the time, whatever its version: the token and what it says. -/
structure Gate.Presents (g : Gate) (now : Nat) (fields : Http.Fields) (query : Option Bytes) (token : String) (c : Claims) : Prop where
  found : token? fields query = some token
  holds : verify Digest.authenticate g.secret now (Bytes.ofText token) = .ok c

namespace LoginWindowAux

open TokensAux

variable {g : Gate} {vs : Versions} {user : Int} {before after logins : List Int} {now : Nat} {fields : Http.Fields}
  {query : Option Bytes} {token : String} {c : Claims}

/-! ## Versions -/

/-- Entries of others than a user are found as before when the user's are taken out. -/
theorem lookup_filter_ne {other : Int} (h : other ≠ user) (l : List (Int × Nat)) :
    (l.filter (·.1 != user)).lookup other = l.lookup other := by
  induction l with
  | nil => rfl
  | cons e l ih =>
    obtain ⟨holder, version⟩ := e
    rw [List.filter_cons]
    by_cases hu : holder = user
    · subst hu
      have hb : (other == holder) = false := by simp [h]
      simp [ih, List.lookup_cons, hb]
    · by_cases ho : other = holder
      · simp [hu, ho]
      · have hb : (other == holder) = false := by simp [ho]
        simp [hu, ih, List.lookup_cons, hb]

/-- A login raises the version of its user and leaves all others. -/
theorem latest_login (vs : Versions) (user other : Int) :
    (vs.login user).2.latest other = if other = user then addCapped (vs.latest user) 1 else vs.latest other := by
  by_cases h : other = user
  · simp [Versions.login, Versions.set, Versions.latest, h]
  · have hb : (other == user) = false := by simp [h]
    simp [Versions.login, Versions.set, Versions.latest, List.lookup_cons, hb, h, lookup_filter_ne h]

theorem after_concat (logins : List Int) (user : Int) : Versions.after (logins ++ [user]) = ((Versions.after logins).login user).2 := by
  simp [Versions.after]

theorem reachable_after (logins : List Int) : (Versions.after logins).reachable = true := by
  induction logins using List.reverseRecOn with
  | nil => rfl
  | append_singleton logins user ih =>
    rw [after_concat]
    exact ih

/-- The newest version of a user counts the user's logins, as far as a version goes. -/
theorem latest_after (logins : List Int) (user : Int) : (Versions.after logins).latest user = min (logins.count user) maxU64 := by
  induction logins using List.reverseRecOn with
  | nil => rfl
  | append_singleton logins other ih =>
    rw [after_concat, latest_login, List.count_append]
    by_cases h : user = other
    · subst h
      rw [if_pos rfl, ih, List.count_singleton_self]
      unfold addCapped
      omega
    · rw [if_neg h, ih, List.count_singleton, if_neg (by simpa using fun e => h e.symm), Nat.add_zero]

/-- What is looked up after logins is their number. -/
theorem lookedUp_after (hbound : logins.count user ≤ maxU64) : (Versions.after logins).lookedUp user = logins.count user := by
  have hlatest := latest_after logins user
  unfold Versions.lookedUp
  rw [if_pos (reachable_after logins), hlatest]
  omega

/-- A login gives its user's number of logins, itself included, as the version. -/
theorem given_eq (hbound : before.count user < maxU64) : Versions.given before user = before.count user + 1 := by
  have hlatest := latest_after before user
  show addCapped ((Versions.after before).latest user) 1 = _
  unfold addCapped
  omega

theorem count_split (before after : List Int) (user : Int) :
    (before ++ user :: after).count user = before.count user + 1 + after.count user := by
  rw [List.count_append, List.count_cons_self]
  omega

/-! ## Calls with a token -/

/-- A token that holds leaves it to its version whether the call is let in. -/
theorem authenticate_of_presents (h : g.Presents now fields query token c) (vs : Versions) :
    g.authenticate vs now fields query = g.accept vs c := by
  unfold Gate.authenticate
  simp only [h.found, h.holds]

/-- A call that is let in presents a token in the window. -/
theorem presents_of_authenticate (h : g.authenticate vs now fields query = .ok c) :
    (∃ token, g.Presents now fields query token c) ∧ distance (vs.lookedUp c.user) c.version < g.window := by
  unfold Gate.authenticate at h
  split at h
  · exact nomatch h
  · rename_i token hfound
    split at h
    · exact nomatch h
    · rename_i c' hholds
      unfold Gate.accept at h
      split at h
      · exact nomatch h
      · rename_i hwindow
        obtain rfl := Except.ok.inj h
        exact ⟨⟨token, hfound, hholds⟩, Nat.lt_of_not_le hwindow⟩

/-- What is read of a payload when it holds: the claims that it spells. -/
theorem claims_of_judge {v : Validation} {payload : Bytes} (h : v.judge now payload = .ok c) :
    ((Base64Url.decode? payload).bind Json.read?).bind Claims.read? = some c := by
  obtain ⟨tree, r, htree, hc, -⟩ := judge_eq_ok h
  rw [htree, Option.bind_some, hc]

/-- A token says the same at all times at which it holds. -/
theorem claims_unique {code : Code} {secret bs : Bytes} {now' : Nat} {c' : Claims} (h : verify code secret now bs = .ok c)
    (h' : verify code secret now' bs = .ok c') : c' = c := by
  obtain ⟨-, text, head, payload, hs, hp, -, hj⟩ := verify_eq_ok h
  obtain ⟨-, text', head', payload', hs', hp', -, hj'⟩ := verify_eq_ok h'
  obtain ⟨rfl, -⟩ := Prod.mk.inj (Option.some.inj (hs'.symm.trans hs))
  obtain ⟨rfl, rfl⟩ := Prod.mk.inj (Option.some.inj (hp'.symm.trans hp))
  exact Option.some.inj ((claims_of_judge hj').symm.trans (claims_of_judge hj))

/-! ## The window -/

/-- A version that a login gave is as far behind the newest one as there were logins of its user since. -/
theorem distance_of_split (hbound : (before ++ user :: after).count user ≤ maxU64) :
    distance ((Versions.after (before ++ user :: after)).lookedUp user) (Versions.given before user) = after.count user := by
  have hcount := count_split before after user
  have hgiven : Versions.given before user = before.count user + 1 := given_eq (by omega)
  rw [lookedUp_after hbound, hgiven, hcount]
  unfold distance
  omega

/-- A version that was given is at most the newest one. -/
theorem le_of_gave {version : Nat} (hbound : logins.count user ≤ maxU64) (h : Versions.Gave logins user version) :
    version ≤ logins.count user := by
  obtain ⟨before, after, rfl, rfl⟩ := h
  have hcount := count_split before after user
  have hgiven : Versions.given before user = before.count user + 1 := given_eq (by omega)
  omega

/-- Different numbers that are all less than `size` short of `top` are at most `size`. -/
theorem length_le_of_window {versions : List Nat} {top size : Nat} (hnodup : versions.Nodup)
    (h : ∀ v ∈ versions, v ≤ top ∧ top - v < size) : versions.length ≤ size := by
  have hsub : versions ⊆ (List.range size).map (top - ·) := by
    intro v hv
    obtain ⟨hle, hlt⟩ := h v hv
    exact List.mem_map.2 ⟨top - v, List.mem_range.2 hlt, Nat.sub_sub_self hle⟩
  have hlen := (List.subperm_of_subset hnodup hsub).length_le
  rwa [List.length_map, List.length_range] at hlen

/-! ## Calls within the window and outside -/

/-- A token that a login gave is good while fewer logins of its user than the window have followed. -/
theorem authenticate_of_given (hbound : (before ++ user :: after).count user < maxU64) (hp : g.Presents now fields query token c)
    (huser : c.user = user) (hversion : c.version = Versions.given before user) :
    g.authenticate (Versions.after (before ++ user :: after)) now fields query =
      if after.count user < g.window then .ok c else .error .deviceLimit := by
  have hdistance := distance_of_split (Nat.le_of_lt hbound)
  rw [authenticate_of_presents hp]
  unfold Gate.accept
  rw [huser, hversion, hdistance]
  by_cases h : after.count user < g.window
  · rw [if_pos h, if_neg (Nat.not_le.2 h)]
  · rw [if_neg h, if_pos (Nat.le_of_not_lt h)]

/-- A call that is let in with a version that was given is less than the window behind the user's logins. -/
theorem lt_window_of_authenticate (hbound : logins.count c.user < maxU64) (hgave : Versions.Gave logins c.user c.version)
    (h : g.authenticate (Versions.after logins) now fields query = .ok c) :
    c.version ≤ logins.count c.user ∧ logins.count c.user - c.version < g.window := by
  have hle := le_of_gave (Nat.le_of_lt hbound) hgave
  have hlt := (presents_of_authenticate h).2
  rw [lookedUp_after (Nat.le_of_lt hbound)] at hlt
  unfold distance at hlt
  exact ⟨hle, by omega⟩

/-- A call refused for too many devices, with a version that was given, is the window or more behind the user's logins. -/
theorem window_le_of_refused (hbound : logins.count c.user < maxU64) (hp : g.Presents now fields query token c)
    (hgave : Versions.Gave logins c.user c.version)
    (h : g.authenticate (Versions.after logins) now fields query = .error .deviceLimit) :
    g.window ≤ logins.count c.user - c.version := by
  have hle := le_of_gave (Nat.le_of_lt hbound) hgave
  rw [authenticate_of_presents hp] at h
  unfold Gate.accept at h
  split at h
  · rename_i hwindow
    rw [lookedUp_after (Nat.le_of_lt hbound)] at hwindow
    unfold distance at hwindow
    omega
  · exact nomatch h

/-- A version that was given stays one that was given. -/
theorem gave_append {version : Nat} (h : Versions.Gave logins user version) (more : List Int) :
    Versions.Gave (logins ++ more) user version := by
  obtain ⟨before, after, rfl, hversion⟩ := h
  exact ⟨before, after ++ more, by simp, hversion⟩

/-- Histories in which a user logged in as often answer the user's tokens alike. -/
theorem authenticate_congr {logins' : List Int} (hcount : logins.count user = logins'.count user)
    (huser : ∀ token c, g.Presents now fields query token c → c.user = user) :
    g.authenticate (Versions.after logins) now fields query = g.authenticate (Versions.after logins') now fields query := by
  have hlooked : (Versions.after logins).lookedUp user = (Versions.after logins').lookedUp user := by
    unfold Versions.lookedUp
    rw [reachable_after, reachable_after, latest_after, latest_after, hcount]
  unfold Gate.authenticate
  cases hfound : token? fields query with
  | none => rfl
  | some token =>
    cases hholds : verify Digest.authenticate g.secret now (Bytes.ofText token) with
    | error f => simp only [hholds]
    | ok c =>
      have hc : c.user = user := huser token c ⟨hfound, hholds⟩
      simp only [hholds]
      unfold Gate.accept
      rw [hc, hlooked]

end LoginWindowAux

open LoginWindowAux

/-- The window of logins, for a gate and a user, when nobody's version goes to its greatest value: a call with a token that one of the
user's logins gave is let in when fewer logins of the user than the window came after that one, and refused for too many devices
otherwise; so of the versions given no more than the window are let in at a time; a token refused for too many devices is never let in
again, whoever presents it and whenever; and histories in which the user logged in as often are answered alike, so that the logins of
others change nothing. -/
theorem login_window (g : Gate) (user : Int) :
    (∀ before after now fields query token c, (before ++ user :: after).count user < maxU64 →
      g.Presents now fields query token c → c.user = user → c.version = Versions.given before user →
      g.authenticate (Versions.after (before ++ user :: after)) now fields query =
        if after.count user < g.window then .ok c else .error .deviceLimit) ∧
    (∀ (logins : List Int) (versions : List Nat), logins.count user < maxU64 → versions.Nodup →
      (∀ v ∈ versions, Versions.Gave logins user v ∧ ∃ now fields query c,
        g.authenticate (Versions.after logins) now fields query = .ok c ∧ c.user = user ∧ c.version = v) →
      versions.length ≤ g.window) ∧
    (∀ logins more now fields query now' fields' query' token c, (logins ++ more).count user < maxU64 →
      g.Presents now fields query token c → c.user = user → Versions.Gave logins user c.version →
      g.authenticate (Versions.after logins) now fields query = .error .deviceLimit → token? fields' query' = some token →
      ∀ c', g.authenticate (Versions.after (logins ++ more)) now' fields' query' ≠ .ok c') ∧
    (∀ logins logins' now fields query, logins.count user = logins'.count user →
      (∀ token c, g.Presents now fields query token c → c.user = user) →
      g.authenticate (Versions.after logins) now fields query = g.authenticate (Versions.after logins') now fields query) := by
  refine ⟨?_, ?_, ?_, ?_⟩
  · intro before after now fields query token c hbound hp huser hversion
    exact authenticate_of_given hbound hp huser hversion
  · intro logins versions hbound hnodup h
    have hwithin : ∀ v ∈ versions, v ≤ logins.count user ∧ logins.count user - v < g.window := by
      intro v hv
      obtain ⟨hgave, now, fields, query, c, hc, rfl, rfl⟩ := h v hv
      exact lt_window_of_authenticate hbound hgave hc
    exact length_le_of_window hnodup hwithin
  · intro logins more now fields query now' fields' query' token c hbound hp huser hgave hrefused hfound c' hc'
    subst huser
    obtain ⟨⟨token', hp'⟩, -⟩ := presents_of_authenticate hc'
    obtain rfl : token' = token := Option.some.inj (hp'.found.symm.trans hfound)
    obtain rfl : c' = c := claims_unique hp.holds hp'.holds
    have hcount : (logins ++ more).count c'.user = logins.count c'.user + more.count c'.user := List.count_append
    have hout := window_le_of_refused (by omega) hp hgave hrefused
    have hin := (lt_window_of_authenticate hbound (gave_append hgave more) hc').2
    omega
  · intro logins logins' now fields query hcount huser
    exact authenticate_congr hcount huser

namespace LoginWindowAux

/-- The token of the first login of a user. -/
def firstToken : String := "eyJ0eXAiOiJKV1QiLCJhbGciOiJIUzI1NiJ9." ++
  "eyJ1c2VyX2lkIjo3LCJyb2xlIjoiIiwiVmVyc2lvbiI6MSwiZXhwIjo0MTAyNDQ0ODAwfQ.XCjjC0CTbAatSjzhp3doIymhm0gavNeGWFsNSDHcumI"

/-- The first token is good in the second in which it is presented. -/
theorem verify_firstToken : verify Digest.authenticate (Bytes.ofText "secret") 1700000000 (Bytes.ofText firstToken) =
    .ok { user := 7, version := 1, expires := some 4102444800 } := by
  decide +kernel

end LoginWindowAux

/-- A window of two logins: the token of a user's first login is good after the login of another user and the user's second, and from the
user's third on it is not. -/
theorem login_window_two_devices :
    let g : Gate := { secret := Bytes.ofText "secret", window := 2 }
    let query : Option Bytes := some (Bytes.ofText ("token=" ++ firstToken))
    let c : Claims := { user := 7, version := 1, expires := some 4102444800 }
    g.authenticate (Versions.after [7, 8, 7]) 1700000000 [] query = .ok c ∧
      g.authenticate (Versions.after [7, 7]) 1700000000 [] query = .ok c ∧
      [c.version].length ≤ g.window ∧
      g.authenticate (Versions.after [7, 8, 7, 7]) 1700000000 [] query = .error .deviceLimit ∧
      ∀ c', g.authenticate (Versions.after [7, 8, 7, 7, 7, 8]) 1700000600 [] query ≠ .ok c' := by
  intro g query c
  have hp : g.Presents 1700000000 [] query firstToken c := ⟨by decide +kernel, verify_firstToken⟩
  obtain ⟨hgood, hfew, hnever, hothers⟩ := login_window g 7
  have hin := hgood [] [8, 7] _ _ _ _ _ (by decide) hp rfl rfl
  have hout := hgood [] [8, 7, 7] _ _ _ _ _ (by decide) hp rfl rfl
  have hsame := hothers [7, 8, 7] [7, 7] 1700000000 [] query (by decide) fun token' c' hp' => by
    obtain rfl : token' = firstToken := Option.some.inj (hp'.found.symm.trans hp.found)
    rw [claims_unique hp.holds hp'.holds]
  have hone := hfew [7, 8, 7] [c.version] (by decide) (by decide) fun v hv => by
    obtain rfl := List.mem_singleton.1 hv
    exact ⟨⟨[], [8, 7], rfl, rfl⟩, _, _, _, _, hin, rfl, rfl⟩
  exact ⟨hin, hsame.symm.trans hin, hone, hout,
    hnever [7, 8, 7, 7] [7, 8] _ _ _ _ _ _ _ _ (by decide) hp rfl ⟨[], [8, 7, 7], rfl, rfl⟩ hout hp.found⟩

end InferenceGate.Credential
