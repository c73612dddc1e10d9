import InferenceGate.Config.Reading

/-!
# The settings in force

A cache of settings is visited again and again, and what its source holds may have changed in between. Every visit gives valid
settings and leaves them in force (`isValid_answer`, `current_answer`); so only the first finds none, and a `get` after it gives what
the visit before it gave and leaves the source alone (`settings_in_force`).

Whether a source is read does not show in a value. So each request is also made of a source that is a computation of any kind
(`answerFrom`): over one that only holds a value it is the same request (`answerFrom_pure`), and over one that counts its readings it
says how many there were (`readings`).
-/

namespace InferenceGate.Quota

namespace SettingsCache

/-- What a cache is asked: which settings are in force, to read them again, or to put others in force. -/
inductive Request where
  | get
  | refresh
  | replace (limits : RateLimits)

/-- What a cache answers to a request, and the cache after it. -/
def answer (source : Option RateLimits) (c : SettingsCache) : Request → Settings × SettingsCache
  | .get => c.get source
  | .refresh => c.refresh source
  | .replace limits => c.replace limits

/-! ## Sources that are computations -/

section Sources

variable {m : Type → Type} [Monad m]

/-- The limits read again from a source. -/
def refreshFrom (source : m (Option RateLimits)) (c : SettingsCache) : m (Settings × SettingsCache) := do
  let limits ← source
  return c.refresh limits

/-- The current settings, read from a source if none are loaded. -/
def getFrom (source : m (Option RateLimits)) (c : SettingsCache) : m (Settings × SettingsCache) :=
  if c.current.isValid then return (c.current, c) else c.refreshFrom source

/-- What a cache answers to a request over a source. -/
def answerFrom (source : m (Option RateLimits)) (c : SettingsCache) : Request → m (Settings × SettingsCache)
  | .get => c.getFrom source
  | .refresh => c.refreshFrom source
  | .replace limits => return c.replace limits

/-- A source that only holds a value is asked as the value is. -/
theorem answerFrom_pure [LawfulMonad m] (source : Option RateLimits) (c : SettingsCache) (r : Request) :
    c.answerFrom (pure source : m _) r = pure (c.answer source r) := by
  have hrefresh : c.refreshFrom (pure source : m _) = pure (c.refresh source) := pure_bind _ _
  cases r with
  | get =>
    show (if c.current.isValid then pure (c.current, c) else c.refreshFrom (pure source : m _)) =
      pure (if c.current.isValid then (c.current, c) else c.refresh source)
    rw [hrefresh, apply_ite pure]
  | refresh => exact hrefresh
  | replace limits => rfl

/-- With settings in force a `get` is nothing but those, whatever kind of computation the source is. -/
theorem answerFrom_get_of_isValid {c : SettingsCache} (h : c.current.isValid = true) (source : m (Option RateLimits)) :
    c.answerFrom source .get = pure (c.current, c) := by
  unfold answerFrom getFrom
  rw [if_pos h]

end Sources

/-- A source that counts how often it is read. -/
def counted (source : Option RateLimits) : StateM Nat (Option RateLimits) := modifyGet fun n => (source, n + 1)

/-- How often a request reads the source. -/
def readings (source : Option RateLimits) (c : SettingsCache) (r : Request) : Nat := ((c.answerFrom (counted source) r).run 0).2

/-! ## Visits -/

/-- A visit to a cache: what is asked, and what its source holds then. -/
structure Visit (κ : Type) where
  request : Request
  content : κ

/-- The cache after visits, over a source whose contents are read in some way. -/
def after {κ : Type} (read : κ → Option RateLimits) (c : SettingsCache) (visits : List (Visit κ)) : SettingsCache :=
  visits.foldl (fun c v => (c.answer (read v.content) v.request).2) c

section Visits

variable {κ : Type} (read : κ → Option RateLimits)

/-- The settings that a visit to a new cache is given after others. -/
def given (past : List (Visit κ)) (v : Visit κ) : Settings := ((after read {} past).answer (read v.content) v.request).1

/-- How often a visit to a new cache reads the source after others. -/
def readingsAt (past : List (Visit κ)) (v : Visit κ) : Nat := (after read {} past).readings (read v.content) v.request

/-- What a visit to a cache comes to after others: which settings it is given, that they are valid and in force afterwards, and how
often the source is read. A source that cannot be read gives no limits. -/
structure InForce (past : List (Visit κ)) (v : Visit κ) : Prop where
  valid : (given read past v).isValid = true
  stored : (after read {} (past ++ [v])).current = given read past v
  /-- It is one and the same request whose readings are counted. -/
  readings : ∀ n, ((after read {} past).answerFrom (counted (read v.content)) v.request).run n =
    ((given read past v, after read {} (past ++ [v])), n + readingsAt read past v)
  first : v.request = .get → past = [] → given read past v = ((read v.content).getD {}).normalize ∧ readingsAt read past v = 1
  later : v.request = .get → ∀ before u, past = before ++ [u] → given read past v = given read before u ∧ readingsAt read past v = 0
  refreshed : v.request = .refresh → given read past v = ((read v.content).getD {}).normalize ∧ readingsAt read past v = 1
  replaced : ∀ limits, v.request = .replace limits → given read past v = limits.normalize ∧ readingsAt read past v = 0
  /-- Settings from a source that could not be read count nothing, and `get` gives them until another request is made. -/
  unreadable : read v.content = none → v.request = .refresh ∨ v.request = .get ∧ past = [] →
    (given read past v).requestEnabled = false ∧ (given read past v).tokenEnabled = false ∧
    ∀ gets w, (∀ u ∈ gets, u.request = .get) → w.request = .get → given read (past ++ v :: gets) w = given read past v

end Visits

namespace CacheAux

variable {κ : Type} {read : κ → Option RateLimits} {c : SettingsCache}

/-- With settings in force a `get` gives those, -/
theorem get_of_isValid (h : c.current.isValid = true) (source : Option RateLimits) : c.get source = (c.current, c) := by
  unfold get
  rw [if_pos h]

/-- and with none it is a `refresh`. -/
theorem get_of_not_isValid (h : c.current.isValid = false) (source : Option RateLimits) : c.get source = c.refresh source := by
  unfold get
  rw [h]
  rfl

/-- Every request is answered with valid settings. -/
theorem isValid_answer (source : Option RateLimits) (c : SettingsCache) (r : Request) : (c.answer source r).1.isValid = true := by
  cases r with
  | get =>
    show (c.get source).1.isValid = true
    cases h : c.current.isValid with
    | false =>
      rw [get_of_not_isValid h]
      exact RateLimits.isValid_normalize _
    | true =>
      rw [get_of_isValid h]
      exact h
  | refresh => exact RateLimits.isValid_normalize _
  | replace limits => exact RateLimits.isValid_normalize _

/-- The settings that a request is answered with are in force afterwards. -/
theorem current_answer (source : Option RateLimits) (c : SettingsCache) (r : Request) :
    (c.answer source r).2.current = (c.answer source r).1 := by
  cases r with
  | get =>
    show (c.get source).2.current = (c.get source).1
    cases h : c.current.isValid with
    | false =>
      rw [get_of_not_isValid h]
      rfl
    | true => rw [get_of_isValid h]
  | refresh => rfl
  | replace limits => rfl

theorem after_append (c : SettingsCache) (past later : List (Visit κ)) :
    after read c (past ++ later) = after read (after read c past) later := List.foldl_append

/-- What is in force after a visit is what it was given, -/
theorem current_after (past : List (Visit κ)) (v : Visit κ) : (after read {} (past ++ [v])).current = given read past v := by
  rw [after_append]
  exact current_answer _ _ _

/-- and that is valid. -/
theorem isValid_after (past : List (Visit κ)) (v : Visit κ) : (after read {} (past ++ [v])).current.isValid = true := by
  rw [current_after]
  exact isValid_answer _ _ _

/-- As long as nothing but `get` is asked, settings in force stay so. -/
theorem after_gets (h : c.current.isValid = true) {gets : List (Visit κ)} (hg : ∀ u ∈ gets, u.request = .get) : after read c gets = c := by
  induction gets with
  | nil => rfl
  | cons u gets ih =>
    have hu : (c.answer (read u.content) u.request).2 = c := by
      rw [hg u (by simp)]
      exact congrArg Prod.snd (get_of_isValid h _)
    show after read (c.answer (read u.content) u.request).2 gets = c
    rw [hu]
    exact ih fun w hw => hg w (List.mem_cons_of_mem _ hw)

/-- With settings in force a `get` reads nothing, -/
theorem run_get_of_isValid (h : c.current.isValid = true) (source : Option RateLimits) (n : Nat) :
    (c.answerFrom (counted source) .get).run n = (c.answer source .get, n) := by
  rw [answerFrom_get_of_isValid h]
  exact congrArg (·, n) (get_of_isValid h source).symm

/-- and with none it reads the source once. -/
theorem run_get_of_not_isValid (h : c.current.isValid = false) (source : Option RateLimits) (n : Nat) :
    (c.answerFrom (counted source) .get).run n = (c.answer source .get, n + 1) := by
  unfold answerFrom getFrom
  rw [if_neg (Bool.eq_false_iff.1 h)]
  exact congrArg (·, n + 1) (get_of_not_isValid h source).symm

/-- Valid settings are given without a reading of the source. -/
theorem readings_get_of_isValid (h : c.current.isValid = true) (source : Option RateLimits) : c.readings source .get = 0 :=
  congrArg Prod.snd (run_get_of_isValid h source 0)

/-- Settings that are not valid are read from the source once. -/
theorem readings_get_of_not_isValid (h : c.current.isValid = false) (source : Option RateLimits) : c.readings source .get = 1 :=
  congrArg Prod.snd (run_get_of_not_isValid h source 0)

/-- Over a source that counts, a request is answered as ever, and its readings are added to the count. -/
theorem run_answerFrom (source : Option RateLimits) (c : SettingsCache) (r : Request) (n : Nat) :
    (c.answerFrom (counted source) r).run n = (c.answer source r, n + c.readings source r) := by
  cases r with
  | get =>
    cases h : c.current.isValid with
    | false => rw [run_get_of_not_isValid h, readings_get_of_not_isValid h]
    | true => rw [run_get_of_isValid h, readings_get_of_isValid h, Nat.add_zero]
  | refresh => rfl
  | replace limits => rfl

/-- The first `get` reads the source and gives what it holds. -/
theorem given_first {v : Visit κ} (hv : v.request = .get) :
    given read [] v = ((read v.content).getD {}).normalize ∧ readingsAt read [] v = 1 := by
  have hnew : (after read {} []).current.isValid = false := rfl
  unfold given readingsAt
  rw [hv, readings_get_of_not_isValid hnew]
  exact ⟨rfl, rfl⟩

/-- A `get` gives what the last visit before it that was no `get` gave, and reads nothing. -/
theorem given_get (past : List (Visit κ)) (v : Visit κ) {gets : List (Visit κ)} (hg : ∀ u ∈ gets, u.request = .get) {w : Visit κ}
    (hw : w.request = .get) : given read (past ++ v :: gets) w = given read past v ∧ readingsAt read (past ++ v :: gets) w = 0 := by
  have hvalid : (after read {} (past ++ [v])).current.isValid = true := isValid_after past v
  have hafter : after read {} (past ++ v :: gets) = after read {} (past ++ [v]) := by
    rw [List.append_cons, after_append, after_gets hvalid hg]
  constructor
  · calc given read (past ++ v :: gets) w
        = ((after read {} (past ++ [v])).get (read w.content)).1 := by
          unfold given
          rw [hafter, hw]
          rfl
      _ = (after read {} (past ++ [v])).current := by rw [get_of_isValid hvalid]
      _ = given read past v := current_after past v
  · unfold readingsAt
    rw [hafter, hw, readings_get_of_isValid hvalid]

/-- A `refresh` reads the source and gives what it holds. -/
theorem given_refresh (past : List (Visit κ)) {v : Visit κ} (hv : v.request = .refresh) :
    given read past v = ((read v.content).getD {}).normalize ∧ readingsAt read past v = 1 := by
  unfold given readingsAt
  rw [hv]
  exact ⟨rfl, rfl⟩

/-- A `replace` reads nothing and gives its own limits. -/
theorem given_replace (past : List (Visit κ)) {v : Visit κ} {limits : RateLimits} (hv : v.request = .replace limits) :
    given read past v = limits.normalize ∧ readingsAt read past v = 0 := by
  unfold given readingsAt
  rw [hv]
  exact ⟨rfl, rfl⟩

end CacheAux

open CacheAux

/-- Over any run on a cache, whatever its source holds at each visit: every settings given are valid and stay in force; only the first
`get` and each `refresh` read the source, and give the limits it then holds; a later `get` gives what the visit before it gave; and
settings from a source that cannot be read switch both dimensions off until another request is made. -/
theorem settings_in_force {κ : Type} (read : κ → Option RateLimits) (past : List (Visit κ)) (v : Visit κ) : InForce read past v where
  valid := isValid_answer _ _ _
  stored := current_after past v
  readings n := by
    rw [run_answerFrom, after_append]
    rfl
  first := by
    rintro hv rfl
    exact given_first hv
  later := by
    rintro hv before u rfl
    exact given_get before u (List.forall_mem_nil _) hv
  refreshed := given_refresh past
  replaced _ := given_replace past
  unreadable := by
    intro hread hasked
    have hgiven : given read past v = RateLimits.normalize {} := by
      rcases hasked with hv | ⟨hv, rfl⟩
      · rw [(given_refresh past hv).1, hread]
        rfl
      · rw [(given_first hv).1, hread]
        rfl
    exact ⟨hgiven ▸ rfl, hgiven ▸ rfl, fun gets w hg hw => (given_get past v hg hw).1⟩

/-- The limits of a file are read when first asked for. They stay in force when the file is gone; told to read it again while it is
broken, the cache counts nothing, also when the file is whole again. -/
theorem settings_in_force_changing_file :
    let read := Config.limitsOfFile "gateway.json"
    let whole := Bytes.ofText "\x7b\"backend\": \x7b\"base_url\": \"http://b\"\x7d, \"rate_limit\": \x7b\"request_per_min\": 3\x7d\x7d"
    let loaded : Visit (Option Bytes) := ⟨.get, some whole⟩
    let gone : Visit (Option Bytes) := ⟨.get, none⟩
    let broken : Visit (Option Bytes) := ⟨.refresh, some (whole.take 60)⟩
    given read [] loaded = RateLimits.normalize { requestPerMin := 3 } ∧ readingsAt read [] loaded = 1 ∧
      given read [loaded] gone = given read [] loaded ∧ readingsAt read [loaded] gone = 0 ∧
      (given read [loaded, gone] broken).anyEnabled = false ∧
      given read [loaded, gone, broken] loaded = given read [loaded, gone] broken := by
  intro read whole loaded gone broken
  have hwhole : read (some whole) = some { requestPerMin := 3 } := by decide +kernel
  have hbroken : read (some (whole.take 60)) = none := by decide +kernel
  obtain ⟨hfirst, honce⟩ := (settings_in_force read [] loaded).first rfl rfl
  obtain ⟨hlater, hnever⟩ := (settings_in_force read [loaded] gone).later rfl [] loaded rfl
  obtain ⟨hrequests, htokens, hstay⟩ := (settings_in_force read [loaded, gone] broken).unreadable hbroken (.inl rfl)
  refine ⟨?_, honce, hlater, hnever, ?_, hstay [] loaded (List.forall_mem_nil _) rfl⟩
  · rw [hfirst]
    exact congrArg (fun limits => (Option.getD limits {}).normalize) hwhole
  · unfold Settings.anyEnabled
    rw [hrequests, htokens]
    rfl

end SettingsCache

end InferenceGate.Quota
