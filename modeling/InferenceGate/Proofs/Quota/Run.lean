import InferenceGate.Proofs.Quota.Counters
import InferenceGate.Proofs.Quota.Keys
import InferenceGate.Quota.Ledger
import InferenceGate.Total
import Mathlib.Data.List.Induction
import Mathlib.Tactic.Ring

/-!
# The ledger over a whole run

A run is a list of attempts, of any subjects and in the order in which the counters are charged. What the counters hold after it
is told by the attempts that were allowed: `Tracks` relates every counter that can still be asked for to the exact sum of the
costs charged to its subject in its window. From it follow what each attempt is answered and how much a window can admit.
-/

namespace InferenceGate.Quota

/-- The limit of a dimension. -/
def Settings.limit (s : Settings) : Dimension → Nat
  | .request => s.requestPerMin
  | .token => s.tokenPerMin

/-- A call that asks to be charged, with the settings it finds in force. The ledger takes it up at the millisecond `asked`, and the
counters are charged at the millisecond `charged`. -/
structure Attempt where
  settings : Settings
  asked : Nat
  charged : Nat
  subject : Int
  requestCost : Nat
  tokenCost : Nat
  deriving DecidableEq

namespace Attempt

/-- What the attempt costs in a dimension. -/
def cost (a : Attempt) : Dimension → Nat
  | .request => a.requestCost
  | .token => a.tokenCost

/-- The window the attempt falls in. -/
def window (a : Attempt) : Nat := windowOf (a.asked / 1000) a.settings.windowSeconds

/-- The attempt's cost in a dimension counts for a subject in a window. -/
def countsFor (d : Dimension) (subject : Int) (window : Nat) (a : Attempt) : Bool :=
  decide (a.subject = subject) && decide (a.window = window) && decide (0 < a.settings.limit d)

end Attempt

/-- The counters, and the attempts allowed so far. -/
structure Books where
  store : CounterStore := .counting []
  allowed : List Attempt := []

namespace Books

/-- What an attempt is answered, and the counters after it. -/
def answer (b : Books) (a : Attempt) : Decision × CounterStore :=
  consumeAt a.settings b.store a.asked a.charged a.subject a.requestCost a.tokenCost

/-- The books after an attempt. -/
def put (b : Books) (a : Attempt) : Books where
  store := (b.answer a).2
  allowed := if (b.answer a).1 = .allowed then b.allowed ++ [a] else b.allowed

/-- The books after a run that begins with no counters. -/
def after (run : List Attempt) : Books := run.foldl put {}

end Books

/-- What an attempt is answered after a run. -/
def decision (past : List Attempt) (a : Attempt) : Decision := ((Books.after past).answer a).1

/-- The attempts of a run that are allowed. -/
def allowedOf (run : List Attempt) : List Attempt := (Books.after run).allowed

/-- The exact sum of what allowed attempts cost a subject in a window, while the dimension was counted. -/
def spent (allowed : List Attempt) (d : Dimension) (subject : Int) (window : Nat) : Nat :=
  total ((allowed.filter (Attempt.countsFor d subject window)).map (Attempt.cost · d))

/-- An attempt would pass the limit of a dimension that is counted. -/
def passes (allowed : List Attempt) (a : Attempt) (d : Dimension) : Bool :=
  decide (0 < a.settings.limit d) && decide (0 < a.cost d) &&
    decide (a.settings.limit d < spent allowed d a.subject a.window + a.cost d)

/-- What an attempt should be answered, by the sums. -/
def verdict (allowed : List Attempt) (a : Attempt) : Decision :=
  if passes allowed a .request then .denied .request
  else if passes allowed a .token then .denied .token
  else .allowed

/-- Settings that come of normalizing limits written in signed words. -/
def Settings.IsNormal (s : Settings) : Prop :=
  ∃ r : RateLimits, inI64 r.requestPerMin ∧ inI64 r.tokenPerMin ∧ inI64 r.tokenUnit ∧ inI64 r.defaultMaxTokens ∧
    inI64 r.windowSeconds ∧ s = r.normalize

/-- An attempt with normal settings of one head and one window length, charged no later than in the window after its own. -/
structure Attempt.Regular (head : String) (length : Nat) (a : Attempt) : Prop where
  normal : a.settings.IsNormal
  head_eq : a.settings.keyHead = head
  length_eq : a.settings.windowSeconds = length
  asked_le : a.asked ≤ a.charged
  prompt : windowOf (a.charged / 1000) length ≤ a.window + 1
  charged_lt : a.charged < maxU64

/-- A run of regular attempts on a clock that never runs back. -/
structure Orderly (head : String) (length : Nat) (run : List Attempt) : Prop where
  regular : ∀ a ∈ run, a.Regular head length
  clock : run.Pairwise fun a b => a.charged ≤ b.charged

namespace RunAux

/-! ## Settings -/

/-- A fallback that is positive and small makes any number so. -/
theorem positiveOr_bounds {n : Int} (h : inI64 n) {fallback : Nat} (hf : fallback < maxU64) : positiveOr n fallback < maxU64 := by
  rw [inI64_iff] at h
  unfold minI64 maxI64 at h
  unfold positiveOr
  split
  · unfold maxU64
    omega
  · exact hf

/-- A limit of normal settings is less than the greatest word. -/
theorem limit_lt {s : Settings} (h : s.IsNormal) (d : Dimension) : s.limit d < maxU64 := by
  obtain ⟨r, hr, ht, -, -, -, rfl⟩ := h
  cases d
  · exact positiveOr_bounds hr (by decide)
  · exact positiveOr_bounds ht (by decide)

/-- Windows of normal settings have a length. -/
theorem windowSeconds_pos {s : Settings} (h : s.IsNormal) : 0 < s.windowSeconds := by
  obtain ⟨r, -, -, -, -, -, rfl⟩ := h
  exact positiveOr_pos _ (by decide)

/-! ## Sums -/

/-- A sum takes in one more attempt if it counts. -/
theorem spent_append (allowed : List Attempt) (a : Attempt) (d : Dimension) (u : Int) (w : Nat) :
    spent (allowed ++ [a]) d u w = spent allowed d u w + if a.countsFor d u w then a.cost d else 0 := by
  unfold spent
  rw [List.filter_append, List.map_append, total_append]
  cases h : a.countsFor d u w <;> simp [h]

/-- A sum is of the attempts of its subject. -/
theorem spent_filter_subject (allowed : List Attempt) (d : Dimension) (u : Int) (w : Nat) :
    spent (allowed.filter fun a => decide (a.subject = u)) d u w = spent allowed d u w := by
  unfold spent
  rw [List.filter_filter]
  congr 2
  refine List.filter_congr fun a _ => ?_
  unfold Attempt.countsFor
  cases decide (a.subject = u) <;> simp

/-- The verdict on an attempt is by the sums of its own subject. -/
theorem verdict_congr {allowed allowed' : List Attempt} {a : Attempt}
    (h : allowed.filter (fun b => decide (b.subject = a.subject)) = allowed'.filter fun b => decide (b.subject = a.subject)) :
    verdict allowed a = verdict allowed' a := by
  have hs : ∀ d, spent allowed d a.subject a.window = spent allowed' d a.subject a.window := by
    intro d
    rw [← spent_filter_subject, h, spent_filter_subject]
  simp [verdict, passes, hs]

/-! ## The counters of a run -/

/-- The mark of a dimension in a counter key. -/
def mark : Dimension → String
  | .request => "req"
  | .token => "tok"

/-- The counter key of a dimension. -/
def keyOf (head : String) (d : Dimension) (u : Int) (w : Nat) : String := counterKey head (mark d) u w

/-- A key is of one dimension, one subject and one window. -/
theorem keyOf_inj {head : String} {d d' : Dimension} {u u' : Int} {w w' : Nat} :
    keyOf head d u w = keyOf head d' u' w' ↔ d = d' ∧ u = u' ∧ w = w' := by
  constructor
  · intro h
    have hm : ∀ d, ':' ∉ (mark d).toList := by
      intro d
      cases d <;> decide
    obtain ⟨-, hd, hu, hw⟩ := counterKey_inj (hm d) (hm d') h
    refine ⟨?_, hu, hw⟩
    cases d <;> cases d' <;> first | rfl | exact absurd hd (by decide)
  · rintro ⟨rfl, rfl, rfl⟩
    rfl

/-- The millisecond until which the counters of a window are asked for. -/
def lastAsked (length w : Nat) : Nat := (w + 2) * length * 1000

/-- A counter that holds a sum, or its absence when the sum is zero. -/
inductive Holds (last : Nat) (sum : Nat) : Option Counter → Prop
  | absent : sum = 0 → Holds last sum none
  | present {c : Counter} {e : Nat} : c.value = sum → 0 < sum → c.expiresAt = some e → min last maxU64 ≤ e →
    Holds last sum (some c)

/-- The counters of every window that is still asked for hold the sums. -/
structure Tracks (head : String) (length : Nat) (cs : Counters) (allowed : List Attempt) (now : Nat) : Prop where
  distinct : cs.Distinct
  holds : ∀ d u w, now < lastAsked length w → Holds (lastAsked length w) (spent allowed d u w) (cs.lookup (keyOf head d u w))

/-- A counter that holds a sum counts as long as it is asked for. -/
theorem Holds.filter_isLive {last sum now : Nat} {o : Option Counter} (h : Holds last sum o) (hu : now < last)
    (hm : now < maxU64) : o.filter (Counter.isLive now) = o := by
  cases h with
  | absent => rfl
  | @present c e hv hs he hl =>
    have hlive : c.isLive now = true := by
      rw [Counter.isLive, he]
      simp only [Option.all_some, decide_eq_true_eq]
      omega
    simp [Option.filter, hlive]

/-- The value under a key is the sum its counter holds. -/
theorem Holds.value_eq {last sum now : Nat} {cs : Counters} {k : String} (h : Holds last sum (cs.lookup k))
    (hu : now < last) (hm : now < maxU64) : cs.value k now = sum := by
  unfold Counters.value
  have hf := h.filter_isLive hu hm
  generalize cs.lookup k = o at h hf
  cases h with
  | absent hs => exact hs.symm
  | @present c e hv hs he hl =>
    cases hlive : c.isLive now with
    | true => simpa [hlive] using hv
    | false => simp [Option.filter, hlive] at hf

/-- A raised counter holds the raised sum: a new one lives long enough, an old one keeps its time. -/
theorem Holds.raised {last sum now life cost : Nat} {o : Option Counter} (h : Holds last sum o) (hc : 0 < cost)
    (hf : sum + cost < maxU64) (hl : 0 < life) (hlong : min last maxU64 ≤ addCapped now life) :
    Holds last (sum + cost) (some (Counters.raised now life cost (o.getD ⟨0, none⟩))) := by
  cases h with
  | absent hs =>
    subst hs
    have hv : addCapped 0 cost = cost := by
      unfold addCapped
      omega
    refine .present ?_ (by omega) ?_ hlong
    · simp [Counters.raised, hv]
    · simp [Counters.raised, hv, hl]
  | @present c e hv hs he hlast =>
    have hadd : addCapped c.value cost = sum + cost := by
      unfold addCapped
      omega
    have hne : sum ≠ 0 := by omega
    refine .present ?_ (by omega) ?_ hlast
    · simp [Counters.raised, hadd]
    · simp [Counters.raised, hadd, hne, he]

/-- With no counters at all nothing was charged. -/
theorem tracks_nil (head : String) (length : Nat) : Tracks head length [] [] 0 :=
  ⟨List.nodup_nil, fun _ _ _ _ => .absent rfl⟩

/-- A purge leaves the counters that are still asked for. -/
theorem Tracks.purge {head : String} {length now now' : Nat} {cs : Counters} {allowed : List Attempt}
    (h : Tracks head length cs allowed now) (hn : now ≤ now') (hm : now' < maxU64) :
    Tracks head length (cs.purge now') allowed now' := by
  refine ⟨h.distinct.purge now', ?_⟩
  intro d u w hw
  rw [h.distinct.lookup_purge, (h.holds d u w (by omega)).filter_isLive hw hm]
  exact h.holds d u w (by omega)

/-! ## One attempt -/

variable {head : String} {length : Nat} {a : Attempt}

/-- The charge that an attempt asks for. -/
def chargeOf (a : Attempt) : Charge := chargeFor a.settings a.asked a.subject a.requestCost a.tokenCost

/-- The attempt is charged in a dimension. -/
def isCharged (a : Attempt) (d : Dimension) : Bool := decide (0 < a.settings.limit d) && decide (0 < a.cost d)

/-- The counters of the attempt's own window are asked for when it is charged. -/
theorem charged_lt_lastAsked (h : a.Regular head length) : a.charged < lastAsked length a.window := by
  have hp := h.prompt
  have hl : 0 < length := h.length_eq ▸ windowSeconds_pos h.normal
  unfold windowOf at hp
  rw [Nat.max_eq_left hl, ← Nat.lt_succ_iff, Nat.div_lt_iff_lt_mul hl] at hp
  unfold lastAsked
  have : a.charged < (a.window + 2) * length * 1000 := (Nat.div_lt_iff_lt_mul (by decide)).1 hp
  exact this

/-- A counter created for the attempt lives as long as its window is asked for. -/
theorem lastAsked_le (h : a.Regular head length) :
    min (lastAsked length a.window) maxU64 ≤
      addCapped a.charged (mulCapped (mulCapped a.settings.windowSeconds 2) 1000) := by
  have hl : 0 < length := h.length_eq ▸ windowSeconds_pos h.normal
  have hw : a.window * length * 1000 ≤ a.asked := by
    have h1 : a.window * length ≤ a.asked / 1000 := by
      unfold Attempt.window windowOf
      rw [h.length_eq, Nat.max_eq_left hl]
      exact Nat.div_mul_le_self _ _
    omega
  have ha := h.asked_le
  rw [h.length_eq]
  have e : lastAsked length a.window = a.window * length * 1000 + length * 2 * 1000 := by
    unfold lastAsked
    ring
  unfold addCapped mulCapped
  rw [e]
  unfold maxU64
  omega

/-- What refuses a charge is what the sums say. -/
theorem refusal_eq {cs : Counters} {allowed : List Attempt} (ha : a.Regular head length)
    (h : Tracks head length cs allowed a.charged) :
    cs.refusal? a.charged (chargeOf a) =
      if passes allowed a .request then some .request else if passes allowed a .token then some .token else none := by
  have hlast := charged_lt_lastAsked ha
  have hv : ∀ d, cs.value (keyOf a.settings.keyHead d a.subject a.window) a.charged = spent allowed d a.subject a.window := by
    intro d
    rw [ha.head_eq]
    exact (h.holds d a.subject a.window hlast).value_eq hlast ha.charged_lt
  have hcap : ∀ d n, decide (a.settings.limit d < addCapped n (a.cost d)) = decide (a.settings.limit d < n + a.cost d) := by
    intro d n
    have := limit_lt ha.normal d
    unfold addCapped
    apply decide_eq_decide.2
    omega
  have hr : ((chargeOf a).requestEnabled && decide ((chargeOf a).requestLimit <
      addCapped (cs.value (chargeOf a).requestKey a.charged) (chargeOf a).requestCost)) = passes allowed a .request := by
    unfold passes
    rw [← hcap, ← hv]
    rfl
  have ht : ((chargeOf a).tokenEnabled && decide ((chargeOf a).tokenLimit <
      addCapped (cs.value (chargeOf a).tokenKey a.charged) (chargeOf a).tokenCost)) = passes allowed a .token := by
    unfold passes
    rw [← hcap, ← hv]
    rfl
  unfold Counters.refusal?
  rw [hr, ht]

/-- The lifetime of a counter that an attempt creates, in milliseconds. -/
def lifeOf (a : Attempt) : Nat := mulCapped (mulCapped a.settings.windowSeconds 2) 1000

/-- The counters with that of an attempt in one dimension raised, if it is charged in it. -/
def raiseIn (a : Attempt) (d : Dimension) (cs : Counters) : Counters :=
  if isCharged a d then cs.bump (keyOf a.settings.keyHead d a.subject a.window) a.charged (lifeOf a) (a.cost d) else cs

/-- A charge that is not refused raises the counters in both dimensions. -/
theorem charge_eq (cs : Counters) (a : Attempt) :
    cs.charge a.charged (chargeOf a) =
      match (cs.purge a.charged).refusal? a.charged (chargeOf a) with
      | some d => (some d, cs.purge a.charged)
      | none => (none, raiseIn a .token (raiseIn a .request (cs.purge a.charged))) := rfl

/-- Raising the counter of one dimension changes that counter alone. -/
theorem lookup_raiseIn (a : Attempt) (d d' : Dimension) (u : Int) (w : Nat) (cs : Counters) :
    (raiseIn a d cs).lookup (keyOf a.settings.keyHead d' u w) =
      if isCharged a d = true ∧ d' = d ∧ u = a.subject ∧ w = a.window then
        some (Counters.raised a.charged (lifeOf a) (a.cost d)
          ((cs.lookup (keyOf a.settings.keyHead d' u w)).getD ⟨0, none⟩))
      else cs.lookup (keyOf a.settings.keyHead d' u w) := by
  unfold raiseIn
  by_cases hc : isCharged a d = true
  · rw [if_pos hc, Counters.lookup_bump]
    by_cases hk : d' = d ∧ u = a.subject ∧ w = a.window
    · rw [if_pos (keyOf_inj.2 hk), if_pos ⟨hc, hk⟩, keyOf_inj.2 hk]
    · rw [if_neg (mt keyOf_inj.1 hk), if_neg (mt And.right hk)]
  · rw [if_neg hc, if_neg (mt And.left hc)]

/-- Raising both counters of an attempt changes, in each dimension, the one of its subject and window. -/
theorem lookup_raised (a : Attempt) (d : Dimension) (u : Int) (w : Nat) (cs : Counters) :
    (raiseIn a .token (raiseIn a .request cs)).lookup (keyOf a.settings.keyHead d u w) =
      if isCharged a d = true ∧ u = a.subject ∧ w = a.window then
        some (Counters.raised a.charged (lifeOf a) (a.cost d)
          ((cs.lookup (keyOf a.settings.keyHead d u w)).getD ⟨0, none⟩))
      else cs.lookup (keyOf a.settings.keyHead d u w) := by
  rw [lookup_raiseIn, lookup_raiseIn]
  cases d <;> simp

/-- Keys stay distinct under raising. -/
theorem distinct_raiseIn {cs : Counters} (h : cs.Distinct) (a : Attempt) (d : Dimension) : (raiseIn a d cs).Distinct := by
  unfold raiseIn
  split
  · exact h.bump _ _ _ _
  · exact h

/-- An attempt that passes no limit leaves counters that hold the sums with it. -/
theorem Tracks.raise {cs : Counters} {allowed : List Attempt} (ha : a.Regular head length)
    (h : Tracks head length cs allowed a.charged) (hp : ∀ d, passes allowed a d = false) :
    Tracks head length (raiseIn a .token (raiseIn a .request cs)) (allowed ++ [a]) a.charged := by
  refine ⟨distinct_raiseIn (distinct_raiseIn h.distinct a _) a _, ?_⟩
  intro d u w hw
  have hh := h.holds d u w hw
  rw [← ha.head_eq] at hh ⊢
  rw [lookup_raised, spent_append]
  by_cases hc : isCharged a d = true ∧ u = a.subject ∧ w = a.window
  · obtain ⟨hd, rfl, rfl⟩ := hc
    have hd' := hd
    unfold isCharged at hd'
    rw [Bool.and_eq_true, decide_eq_true_iff, decide_eq_true_iff] at hd'
    have hcounts : a.countsFor d a.subject a.window = true := by simp [Attempt.countsFor, hd'.1]
    rw [if_pos hcounts, if_pos ⟨hd, rfl, rfl⟩]
    have hfit : spent allowed d a.subject a.window + a.cost d ≤ a.settings.limit d := by
      have := hp d
      unfold passes at this
      simpa [hd'] using this
    have hlife : 0 < lifeOf a := by
      have := windowSeconds_pos ha.normal
      unfold lifeOf mulCapped maxU64
      omega
    exact hh.raised hd'.2 (Nat.lt_of_le_of_lt hfit (limit_lt ha.normal d)) hlife (lastAsked_le ha)
  · rw [if_neg hc]
    have hz : (if a.countsFor d u w then a.cost d else 0) = 0 := by
      by_cases hcounts : a.countsFor d u w = true
      · unfold Attempt.countsFor at hcounts
        rw [Bool.and_eq_true, Bool.and_eq_true, decide_eq_true_iff, decide_eq_true_iff, decide_eq_true_iff] at hcounts
        obtain ⟨⟨hu, hw⟩, hl⟩ := hcounts
        have hn : ¬ isCharged a d = true := fun hd => hc ⟨hd, hu.symm, hw.symm⟩
        unfold isCharged at hn
        rw [Bool.and_eq_true, decide_eq_true_iff, decide_eq_true_iff, not_and] at hn
        have := hn hl
        split <;> omega
      · rw [if_neg hcounts]
    rw [hz, Nat.add_zero]
    exact hh

/-! ## A whole run -/

/-- With nothing counted there are no limits. -/
theorem limit_eq_zero {s : Settings} (h : s.anyEnabled = false) (d : Dimension) : s.limit d = 0 := by
  unfold Settings.anyEnabled Settings.requestEnabled Settings.tokenEnabled at h
  rw [Bool.or_eq_false_iff, decide_eq_false_iff_not, decide_eq_false_iff_not] at h
  cases d
  · exact Nat.eq_zero_of_not_pos h.1
  · exact Nat.eq_zero_of_not_pos h.2

/-- The verdict allows exactly what passes no limit. -/
theorem verdict_eq_allowed {allowed : List Attempt} : verdict allowed a = .allowed ↔ ∀ d, passes allowed a d = false := by
  unfold verdict
  constructor
  · intro h d
    cases hr : passes allowed a .request <;> cases ht : passes allowed a .token <;> cases d <;> simp_all
  · intro h
    simp [h]

/-- Books whose counters hold the sums of what was allowed. -/
def Sound (head : String) (length : Nat) (b : Books) (now : Nat) : Prop :=
  ∃ cs, b.store = .counting cs ∧ Tracks head length cs b.allowed now

/-- An attempt with nothing counted is allowed, and changes neither counters nor sums. -/
theorem Tracks.free {cs : Counters} {allowed : List Attempt} {now : Nat} (h : Tracks head length cs allowed now)
    (hn : now ≤ a.charged) (hz : ∀ d, a.settings.limit d = 0) : Tracks head length cs (allowed ++ [a]) a.charged := by
  refine ⟨h.distinct, ?_⟩
  intro d u w hw
  have hc : a.countsFor d u w = false := by simp [Attempt.countsFor, hz]
  rw [spent_append, if_neg (by simp [hc]), Nat.add_zero]
  exact h.holds d u w (by omega)

/-- A charge is refused in the dimension that the verdict names. -/
theorem verdict_of_refusal {allowed : List Attempt} :
    verdict allowed a =
      match (if passes allowed a .request then some .request else if passes allowed a .token then some .token else none :
        Option Dimension) with
      | some d => .denied d
      | none => .allowed := by
  unfold verdict
  cases passes allowed a .request <;> cases passes allowed a .token <;> rfl

/-- With something counted the counters give the answer. -/
theorem answer_counting (cs : Counters) (allowed : List Attempt) (h : a.settings.anyEnabled = true) :
    Books.answer ⟨.counting cs, allowed⟩ a =
      match cs.charge a.charged (chargeOf a) with
      | (none, cs) => (.allowed, .counting cs)
      | (some d, cs) => (.denied d, .counting cs) := by
  simp only [Books.answer, consumeAt, h, CounterStore.charge, chargeOf]
  cases cs.charge a.charged (chargeFor a.settings a.asked a.subject a.requestCost a.tokenCost) with
  | mk o cs' => cases o <;> rfl

/-- One attempt: it is answered by the sums, and the counters hold the sums after it. -/
theorem Sound.put {b : Books} {now : Nat} (h : Sound head length b now) (ha : a.Regular head length) (hn : now ≤ a.charged) :
    (b.answer a).1 = verdict b.allowed a ∧ Sound head length (b.put a) a.charged := by
  obtain ⟨store, allowed⟩ := b
  obtain ⟨cs, hs, ht⟩ := h
  change store = .counting cs at hs
  subst hs
  change Tracks head length cs allowed now at ht
  cases he : a.settings.anyEnabled with
  | false =>
    have hz := limit_eq_zero he
    have hv : verdict allowed a = .allowed := verdict_eq_allowed.2 fun d => by simp [passes, hz]
    have hans : Books.answer ⟨.counting cs, allowed⟩ a = (.allowed, .counting cs) := by
      simp [Books.answer, consumeAt, he]
    refine ⟨by rw [hans, hv], cs, ?_, ?_⟩
    · simp [Books.put, hans]
    · simpa [Books.put, hans] using ht.free hn hz
  | true =>
    have htp := ht.purge hn ha.charged_lt
    have hch := charge_eq cs a
    rw [refusal_eq ha htp] at hch
    have hv := @verdict_of_refusal a allowed
    have hnone := @verdict_eq_allowed a allowed
    have hans := answer_counting cs allowed he
    generalize (if passes allowed a .request then some .request else if passes allowed a .token then some .token else none :
      Option Dimension) = o at hch hv
    cases o with
    | some d =>
      rw [hch] at hans
      refine ⟨by rw [hans, hv], cs.purge a.charged, ?_, ?_⟩
      · simp [Books.put, hans]
      · simpa [Books.put, hans] using htp
    | none =>
      rw [hch] at hans
      refine ⟨by rw [hans, hv], raiseIn a .token (raiseIn a .request (cs.purge a.charged)), ?_, ?_⟩
      · simp [Books.put, hans]
      · simpa [Books.put, hans] using htp.raise ha (hnone.1 hv)

/-- A run goes on by one attempt. -/
theorem after_append (run : List Attempt) (a : Attempt) : Books.after (run ++ [a]) = (Books.after run).put a := by
  simp [Books.after]

/-- A run that is orderly with one attempt more. -/
theorem Orderly.of_append {run : List Attempt} (h : Orderly head length (run ++ [a])) :
    Orderly head length run ∧ a.Regular head length ∧ ∀ b ∈ run, b.charged ≤ a.charged := by
  obtain ⟨hp, -, hl⟩ := List.pairwise_append.1 h.clock
  refine ⟨⟨fun b hb => h.regular b (List.mem_append_left _ hb), hp⟩, h.regular a (by simp), fun b hb => hl b hb a (by simp)⟩

/-- After an orderly run the counters hold the sums, at any time since. -/
theorem Orderly.sound {run : List Attempt} (h : Orderly head length run) :
    ∃ now, Sound head length (Books.after run) now ∧ ∀ t, (∀ b ∈ run, b.charged ≤ t) → now ≤ t := by
  induction run using List.reverseRecOn with
  | nil => exact ⟨0, ⟨[], rfl, tracks_nil head length⟩, fun t _ => Nat.zero_le t⟩
  | append_singleton run a ih =>
    obtain ⟨hr, ha, hc⟩ := Orderly.of_append h
    obtain ⟨now, hs, hnow⟩ := ih hr
    refine ⟨a.charged, ?_, fun t ht => ht a (by simp)⟩
    rw [after_append]
    exact (hs.put ha (hnow _ hc)).2

/-- In an orderly run an attempt is answered by the sums of what was allowed before. -/
theorem decision_eq_verdict {past : List Attempt} (h : Orderly head length (past ++ [a])) :
    decision past a = verdict (allowedOf past) a := by
  obtain ⟨hr, ha, hc⟩ := Orderly.of_append h
  obtain ⟨now, hs, hnow⟩ := Orderly.sound hr
  exact (hs.put ha (hnow _ hc)).1

/-- What is allowed in a run, attempt by attempt. -/
theorem allowedOf_append {past : List Attempt} (h : Orderly head length (past ++ [a])) :
    allowedOf (past ++ [a]) = if verdict (allowedOf past) a = .allowed then allowedOf past ++ [a] else allowedOf past := by
  rw [← decision_eq_verdict h]
  unfold allowedOf
  rw [after_append]
  rfl

end RunAux

end InferenceGate.Quota
