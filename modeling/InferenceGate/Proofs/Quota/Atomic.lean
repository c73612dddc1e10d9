import InferenceGate.Proofs.Quota.Counters

/-!
# One charge, and what it leaves for later

A charge that is refused leaves nothing that any later question or charge could tell (`after_purge`); one that is not raises the
counters it counts in by its costs and no other. A counter that a charge creates lasts for the lifetime that the charge gives it,
and no later charge moves its end (`sits_charge`): only the first raise of a counter comes to the cost alone, because no counter
holds zero (`Tidy`) and no limit lets a sum come near the greatest word.
-/

namespace InferenceGate.Quota

/-- A charge and the millisecond at which it is made. -/
structure Timed where
  time : Nat
  charge : Charge
  deriving DecidableEq

/-- Charges from a millisecond on, made on a clock that never runs back. -/
structure Timely (start : Nat) (run : List Timed) : Prop where
  since : ∀ e ∈ run, start ≤ e.time
  clock : run.Pairwise fun a b => a.time ≤ b.time

namespace Charge

/-- The key of the counter that a charge asks to raise. -/
def key (c : Charge) : Dimension → String
  | .request => c.requestKey
  | .token => c.tokenKey

/-- The limit of the counter that a charge asks to raise. -/
def limit (c : Charge) : Dimension → Nat
  | .request => c.requestLimit
  | .token => c.tokenLimit

/-- What a charge asks to raise a counter by. -/
def cost (c : Charge) : Dimension → Nat
  | .request => c.requestCost
  | .token => c.tokenCost

/-- The charge counts in a dimension: it has a limit and a cost there. -/
def counts (c : Charge) (d : Dimension) : Bool := decide (0 < c.limit d) && decide (0 < c.cost d)

/-- No limit is greater than the greatest signed word. -/
def Bounded (c : Charge) : Prop := ∀ d, (c.limit d : Int) ≤ maxI64

/-- A counter that the charge creates at the millisecond `now` still counts at `t`. It lasts as long as the charge says, and for ever
where the charge gives it no lifetime; milliseconds are capped at the greatest word. -/
def lasts (c : Charge) (now t : Nat) : Bool :=
  c.lifetimeSeconds == 0 || decide (t < min (now + 1000 * c.lifetimeSeconds) maxU64)

end Charge

namespace Counters

/-- The counters after charges made one after the other. -/
def after (cs : Counters) (run : List Timed) : Counters := run.foldl (fun cs e => (cs.charge e.time e.charge).2) cs

/-- What charges made one after the other are answered. -/
def answers (cs : Counters) : List Timed → List (Option Dimension)
  | [] => []
  | e :: run => (cs.charge e.time e.charge).1 :: answers (cs.charge e.time e.charge).2 run

/-- A charge would pass a limit: it counts in the dimension, and the value of the counter and the cost are together more. -/
def exceeds (cs : Counters) (now : Nat) (c : Charge) (d : Dimension) : Bool :=
  c.counts d && decide (c.limit d < cs.value (c.key d) now + c.cost d)

/-- A charge made at a time is atomic: what it is answered, what it leaves when it is refused, and what it raises otherwise. -/
structure Atomic (cs : Counters) (now : Nat) (c : Charge) : Prop where
  /-- It is refused in the first dimension whose limit it would pass. -/
  answer : (cs.charge now c).1 =
    if cs.exceeds now c .request then some .request else if cs.exceeds now c .token then some .token else none
  /-- Refused, it is as if it had not been made: later charges are answered the same, and every value is the same after them. -/
  refused : (cs.charge now c).1 ≠ none → ∀ later, Timely now later →
    (cs.charge now c).2.answers later = cs.answers later ∧
      ∀ k t, now ≤ t → ((cs.charge now c).2.after later).value k t = (cs.after later).value k t
  /-- Otherwise each counter in whose dimension it counts is raised by exactly the cost. -/
  raised : (cs.charge now c).1 = none → ∀ d, c.counts d = true →
    (cs.charge now c).2.value (c.key d) now = cs.value (c.key d) now + c.cost d
  /-- A counter that was there is raised for as long as it counts. -/
  sustained : (cs.charge now c).1 = none → ∀ d, c.counts d = true → 0 < cs.value (c.key d) now → ∀ t, now ≤ t →
    (cs.charge now c).2.value (c.key d) t = if cs.value (c.key d) t = 0 then 0 else cs.value (c.key d) t + c.cost d
  /-- No other value changes, at the time or later. -/
  kept : (cs.charge now c).1 = none → ∀ k, (∀ d, c.counts d = true → k ≠ c.key d) → ∀ t, now ≤ t →
    (cs.charge now c).2.value k t = cs.value k t
  /-- A counter that it creates ends when its lifetime does, whatever is charged before that. -/
  created : (cs.charge now c).1 = none → ∀ d, c.counts d = true → cs.value (c.key d) now = 0 → ∀ later, Timely now later →
    (∀ e ∈ later, e.charge.Bounded ∧ c.lasts now e.time = true) →
      ∃ v, c.cost d ≤ v ∧ ∀ t, ((cs.charge now c).2.after later).value (c.key d) t = if c.lasts now t then v else 0
  /-- Once it has ended nothing is read of it, unless a charge raises a new counter under its key. -/
  ended : (cs.charge now c).1 = none → ∀ d, c.counts d = true → cs.value (c.key d) now = 0 → ∀ later, Timely now later →
    (∀ e ∈ later, e.charge.Bounded) →
    (∀ e ∈ later, c.lasts now e.time = false → ∀ d', e.charge.counts d' = true → e.charge.key d' ≠ c.key d) →
      ∀ t, c.lasts now t = false → ((cs.charge now c).2.after later).value (c.key d) t = 0

/-- Every key stands once, and no counter holds zero. -/
structure Tidy (cs : Counters) : Prop where
  distinct : cs.Distinct
  positive : ∀ k c, cs.lookup k = some c → 0 < c.value

namespace AtomicAux

variable {cs : Counters} {now t v : Nat} {c : Charge} {d : Dimension} {k : String} {expiry : Option Nat}

/-! ## A counter and its end -/

/-- A millisecond is before the end of a counter. -/
def before (expiry : Option Nat) (t : Nat) : Bool := expiry.all fun u => decide (t < u)

/-- What was before the end at a later time is so now. -/
theorem before_of_le (h : before expiry t = true) (ht : now ≤ t) : before expiry now = true :=
  isLive_of_le (c := ⟨0, expiry⟩) h ht

/-- The value of a key that has a counter. -/
theorem value_of_lookup (h : cs.lookup k = some ⟨v, expiry⟩) (t : Nat) : cs.value k t = if before expiry t then v else 0 := by
  unfold Counters.value
  rw [h]
  rfl

/-- The value of a key that has none. -/
theorem value_of_none (h : cs.lookup k = none) (t : Nat) : cs.value k t = 0 := by
  unfold Counters.value
  rw [h]

/-- A counter is there after a purge if the purge is before its end. -/
theorem lookup_purge_of_lookup (hd : cs.Distinct) (h : cs.lookup k = some ⟨v, expiry⟩) (now : Nat) :
    (cs.purge now).lookup k = if before expiry now then some ⟨v, expiry⟩ else none := by
  rw [hd.lookup_purge, h]
  rfl

/-- A key that reads zero has no counter after a purge. -/
theorem lookup_purge_of_value (h : cs.Tidy) (hv : cs.value k now = 0) : (cs.purge now).lookup k = none := by
  cases hl : cs.lookup k with
  | none => rw [h.distinct.lookup_purge, hl]; rfl
  | some n =>
    obtain ⟨v, expiry⟩ := n
    have hpos : 0 < v := h.positive k _ hl
    rw [value_of_lookup hl] at hv
    rw [lookup_purge_of_lookup h.distinct hl]
    cases hb : before expiry now with
    | false => rfl
    | true =>
      rw [hb, if_pos rfl] at hv
      omega

/-- A key that reads more than zero has a counter before its end. -/
theorem lookup_of_value (hv : 0 < cs.value k now) :
    ∃ expiry, cs.lookup k = some ⟨cs.value k now, expiry⟩ ∧ before expiry now = true := by
  cases hl : cs.lookup k with
  | none =>
    rw [value_of_none hl] at hv
    exact absurd hv (Nat.lt_irrefl 0)
  | some n =>
    obtain ⟨v, expiry⟩ := n
    rw [value_of_lookup hl] at hv ⊢
    cases hb : before expiry now with
    | false =>
      rw [hb] at hv
      exact absurd hv (Nat.lt_irrefl 0)
    | true => exact ⟨expiry, rfl, hb⟩

/-! ## What a charge does -/

/-- A charge that counts in a dimension costs something there. -/
theorem cost_pos (hc : c.counts d = true) : 0 < c.cost d := by
  unfold Charge.counts at hc
  rw [Bool.and_eq_true, decide_eq_true_iff, decide_eq_true_iff] at hc
  exact hc.2

/-- The lifetime of a counter that a charge creates, in milliseconds. -/
def lifeMs (c : Charge) : Nat := mulCapped c.lifetimeSeconds 1000

/-- The counters with that of one dimension raised, if the charge counts in it. -/
def raiseIn (c : Charge) (now : Nat) (d : Dimension) (cs : Counters) : Counters :=
  if c.counts d then cs.bump (c.key d) now (lifeMs c) (c.cost d) else cs

/-- A charge that is not refused raises the counters in both dimensions. -/
theorem charge_eq (cs : Counters) (now : Nat) (c : Charge) :
    cs.charge now c =
      match (cs.purge now).refusal? now c with
      | some d => (some d, cs.purge now)
      | none => (none, raiseIn c now .token (raiseIn c now .request (cs.purge now))) := rfl

/-- The counters after a charge that is refused are those that count. -/
theorem charge_refused (h : (cs.charge now c).1 ≠ none) : (cs.charge now c).2 = cs.purge now := by
  rw [charge_eq] at h ⊢
  cases hr : (cs.purge now).refusal? now c with
  | some d => rfl
  | none =>
    rw [hr] at h
    exact absurd rfl h

/-- The counters after a charge that is not. -/
theorem charge_raised (h : (cs.charge now c).1 = none) :
    (cs.charge now c).2 = raiseIn c now .token (raiseIn c now .request (cs.purge now)) := by
  rw [charge_eq] at h ⊢
  cases hr : (cs.purge now).refusal? now c with
  | some d =>
    rw [hr] at h
    nomatch h
  | none => rfl

/-- Raising in one dimension changes the counter of its key alone. -/
theorem lookup_raiseIn (c : Charge) (now : Nat) (d : Dimension) (cs : Counters) (k : String) :
    (raiseIn c now d cs).lookup k =
      if c.counts d = true ∧ k = c.key d then
        some (Counters.raised now (lifeMs c) (c.cost d) ((cs.lookup (c.key d)).getD ⟨0, none⟩))
      else cs.lookup k := by
  unfold raiseIn
  by_cases hc : c.counts d = true
  · rw [if_pos hc, lookup_bump]
    by_cases hk : k = c.key d
    · rw [if_pos hk, if_pos ⟨hc, hk⟩]
    · rw [if_neg hk, if_neg fun h => hk h.2]
  · rw [if_neg hc, if_neg fun h => hc h.1]

/-- Each key of a charge is raised on its own when the two are different. -/
theorem lookup_charge_key (hk : c.requestKey ≠ c.tokenKey) (h : (cs.charge now c).1 = none) (hc : c.counts d = true) :
    (cs.charge now c).2.lookup (c.key d) =
      some (Counters.raised now (lifeMs c) (c.cost d) (((cs.purge now).lookup (c.key d)).getD ⟨0, none⟩)) := by
  have hne : c.key .request ≠ c.key .token := hk
  rw [charge_raised h]
  cases d with
  | request => rw [lookup_raiseIn, if_neg fun h => hne h.2, lookup_raiseIn, if_pos ⟨hc, rfl⟩]
  | token => rw [lookup_raiseIn, if_pos ⟨hc, rfl⟩, lookup_raiseIn, if_neg fun h => hne h.2.symm]

/-- A key that a charge does not count under keeps its counter through it, if that counts. -/
theorem lookup_charge_other (h : (cs.charge now c).1 = none) (hk : ∀ d, c.counts d = true → k ≠ c.key d) :
    (cs.charge now c).2.lookup k = (cs.purge now).lookup k := by
  rw [charge_raised h, lookup_raiseIn, if_neg fun h => hk _ h.1 h.2, lookup_raiseIn, if_neg fun h => hk _ h.1 h.2]

/-! ## Refusal -/

/-- A limit within bounds is far below the greatest unsigned word. -/
theorem limit_le (hb : c.Bounded) (d : Dimension) : 2 * c.limit d < maxU64 := by
  have := hb d
  unfold maxI64 at this
  unfold maxU64
  omega

/-- Within its bounds a charge is refused by exact sums. -/
theorem answer_eq (hd : cs.Distinct) (hb : c.Bounded) :
    (cs.charge now c).1 =
      if cs.exceeds now c .request then some .request else if cs.exceeds now c .token then some .token else none := by
  have hexact : ∀ d, (c.counts d && decide (c.limit d < addCapped ((cs.purge now).value (c.key d) now) (c.cost d))) =
      cs.exceeds now c d := by
    intro d
    have hl := limit_le hb d
    rw [hd.value_purge (Nat.le_refl now)]
    unfold exceeds
    congr 1
    apply decide_eq_decide.2
    unfold addCapped
    omega
  have hr : (cs.purge now).refusal? now c =
      if cs.exceeds now c .request then some .request else if cs.exceeds now c .token then some .token else none := by
    rw [← hexact, ← hexact]
    rfl
  rw [charge_eq, hr]
  cases cs.exceeds now c .request <;> cases cs.exceeds now c .token <;> rfl

/-- What a charge that is not refused asks for fits under the limit. -/
theorem le_limit (hd : cs.Distinct) (hb : c.Bounded) (h : (cs.charge now c).1 = none) (hc : c.counts d = true) :
    cs.value (c.key d) now + c.cost d ≤ c.limit d := by
  have hnot : cs.exceeds now c d = false := by
    rw [answer_eq hd hb] at h
    cases d <;> cases hr : cs.exceeds now c .request <;> cases ht : cs.exceeds now c .token <;> simp [hr, ht] at h ⊢
  unfold exceeds at hnot
  rw [hc, Bool.true_and, decide_eq_false_iff_not] at hnot
  omega

/-- A purge leaves nothing that a later purge would not. -/
theorem purge_purge (cs : Counters) (h : now ≤ t) : (cs.purge now).purge t = cs.purge t := by
  unfold purge
  rw [List.filter_filter]
  refine List.filter_congr fun e _ => ?_
  cases hl : e.2.isLive t with
  | false => rfl
  | true => rw [isLive_of_le hl h, Bool.and_true]

/-- A purge changes no charge from its time on. -/
theorem charge_purge (cs : Counters) (h : now ≤ t) (c : Charge) : (cs.purge now).charge t c = cs.charge t c := by
  rw [charge_eq, charge_eq, purge_purge cs h]

/-- A purge changes nothing that charges from its time on are answered, and no value after them. -/
theorem after_purge (hd : cs.Distinct) {later : List Timed} (hl : Timely now later) :
    (cs.purge now).answers later = cs.answers later ∧
      ∀ k t, now ≤ t → ((cs.purge now).after later).value k t = (cs.after later).value k t := by
  cases later with
  | nil => exact ⟨rfl, fun k t ht => hd.value_purge ht k⟩
  | cons e later =>
    have he := charge_purge cs (hl.since e List.mem_cons_self) e.charge
    refine ⟨by rw [answers, answers, he], fun k t _ => ?_⟩
    unfold after
    rw [List.foldl_cons, List.foldl_cons, he]

/-! ## Raising -/

/-- When a counter that a charge creates ends. -/
def expiryOf (c : Charge) (now : Nat) : Option Nat :=
  if c.lifetimeSeconds = 0 then none else some (min (now + 1000 * c.lifetimeSeconds) maxU64)

/-- A counter counts when it is created. -/
theorem lasts_self (c : Charge) (hn : now < maxU64) : c.lasts now now = true := by
  unfold Charge.lasts
  by_cases hz : c.lifetimeSeconds = 0
  · simp [hz]
  · have : now < min (now + 1000 * c.lifetimeSeconds) maxU64 := by omega
    simp [this]

/-- A counter that a charge creates counts as long as the charge says. -/
theorem before_expiryOf (c : Charge) (now t : Nat) : before (expiryOf c now) t = c.lasts now t := by
  unfold before expiryOf Charge.lasts
  by_cases hz : c.lifetimeSeconds = 0 <;> simp [hz]

/-- A new counter holds the cost and ends as the charge says. -/
theorem raised_new (c : Charge) (now : Nat) {cost : Nat} (h : cost < maxU64) :
    Counters.raised now (lifeMs c) cost ⟨0, none⟩ = ⟨cost, expiryOf c now⟩ := by
  have hv : addCapped 0 cost = cost := by
    unfold addCapped
    omega
  have he : addCapped now (lifeMs c) = min (now + 1000 * c.lifetimeSeconds) maxU64 := by
    unfold addCapped lifeMs mulCapped
    omega
  have hz : 0 < lifeMs c ↔ c.lifetimeSeconds ≠ 0 := by
    unfold lifeMs mulCapped maxU64
    omega
  unfold Counters.raised expiryOf
  by_cases hs : c.lifetimeSeconds = 0 <;> simp [hv, he, hz, hs]

/-- A counter that holds something is raised without moving its end, as long as the sum fits a word. -/
theorem raised_more {life cost : Nat} (hv : 0 < v) (h : v + cost < maxU64) :
    Counters.raised now life cost ⟨v, expiry⟩ = ⟨v + cost, expiry⟩ := by
  have hsum : addCapped v cost = v + cost := by
    unfold addCapped
    omega
  have hne : v ≠ 0 := by omega
  unfold Counters.raised
  simp [hsum, hne]

/-- A key that read zero has a counter that the charge creates. -/
theorem lookup_created (ht : cs.Tidy) (hb : c.Bounded) (hk : c.requestKey ≠ c.tokenKey) (h : (cs.charge now c).1 = none)
    (hc : c.counts d = true) (hv : cs.value (c.key d) now = 0) :
    (cs.charge now c).2.lookup (c.key d) = some ⟨c.cost d, expiryOf c now⟩ := by
  have hfit := le_limit ht.distinct hb h hc
  have hlimit := limit_le hb d
  rw [lookup_charge_key hk h hc, lookup_purge_of_value ht hv, Option.getD_none, raised_new c now (by omega)]

/-- A counter that read more than zero holds the cost more, until it ends as before. -/
theorem lookup_sustained (hd : cs.Distinct) (hb : c.Bounded) (hk : c.requestKey ≠ c.tokenKey) (h : (cs.charge now c).1 = none)
    (hc : c.counts d = true) (hv : 0 < cs.value (c.key d) now) :
    ∃ expiry, cs.lookup (c.key d) = some ⟨cs.value (c.key d) now, expiry⟩ ∧ before expiry now = true ∧
      (cs.charge now c).2.lookup (c.key d) = some ⟨cs.value (c.key d) now + c.cost d, expiry⟩ := by
  obtain ⟨expiry, hl, hbefore⟩ := lookup_of_value hv
  have hfit := le_limit hd hb h hc
  have hlimit := limit_le hb d
  refine ⟨expiry, hl, hbefore, ?_⟩
  rw [lookup_charge_key hk h hc, lookup_purge_of_lookup hd hl, if_pos hbefore, Option.getD_some, raised_more hv (by omega)]

/-! ## Tidy counters -/

theorem tidy_purge (h : cs.Tidy) (now : Nat) : (cs.purge now).Tidy := by
  refine ⟨h.distinct.purge now, fun k n hn => ?_⟩
  rw [h.distinct.lookup_purge] at hn
  exact h.positive k n (Option.filter_eq_some_iff.1 hn).1

theorem tidy_raiseIn (h : cs.Tidy) (c : Charge) (now : Nat) (d : Dimension) : (raiseIn c now d cs).Tidy := by
  refine ⟨?_, fun k n hn => ?_⟩
  · unfold AtomicAux.raiseIn
    split
    · exact h.distinct.bump _ _ _ _
    · exact h.distinct
  · rw [lookup_raiseIn] at hn
    split at hn
    · rename_i hc
      have hcost := cost_pos hc.1
      obtain rfl := Option.some.inj hn
      show 0 < addCapped _ _
      unfold addCapped maxU64
      omega
    · exact h.positive k n hn

/-- A charge leaves counters tidy. -/
theorem tidy_charge (h : cs.Tidy) (now : Nat) (c : Charge) : (cs.charge now c).2.Tidy := by
  cases hr : (cs.charge now c).1 with
  | some d =>
    rw [charge_refused (by simp [hr])]
    exact tidy_purge h now
  | none =>
    rw [charge_raised hr]
    exact tidy_raiseIn (tidy_raiseIn (tidy_purge h now) c now .request) c now .token

theorem tidy_nil : Tidy [] := ⟨List.nodup_nil, nofun⟩

/-- Whatever is charged, the counters stay tidy. -/
theorem tidy_after (h : cs.Tidy) (run : List Timed) : (cs.after run).Tidy := by
  induction run generalizing cs with
  | nil => exact h
  | cons e run ih => exact ih (tidy_charge h e.time e.charge)

/-! ## A counter and the charges after it -/

/-- A counter that counts when a charge is made holds no less after it, and ends as before. The two keys of the charge may be one, and
then the counter is raised twice. -/
theorem sits_charge (hd : cs.Distinct) (hb : c.Bounded) (hv : 0 < v) (hl : cs.lookup k = some ⟨v, expiry⟩)
    (hlive : before expiry now = true) : ∃ v', v ≤ v' ∧ (cs.charge now c).2.lookup k = some ⟨v', expiry⟩ := by
  have hp : (cs.purge now).lookup k = some ⟨v, expiry⟩ := by
    rw [lookup_purge_of_lookup hd hl, if_pos hlive]
  cases hr : (cs.charge now c).1 with
  | some d =>
    rw [charge_refused (by simp [hr])]
    exact ⟨v, Nat.le_refl v, hp⟩
  | none =>
    have hfit : ∀ d, c.counts d = true ∧ k = c.key d → v + c.cost d ≤ c.limit d := by
      rintro d ⟨hc, rfl⟩
      have := le_limit hd hb hr hc
      rwa [value_of_lookup hl, if_pos hlive] at this
    have hreq := limit_le hb .request
    have htok := limit_le hb .token
    have hone : ∃ v', v ≤ v' ∧ v' ≤ v + c.limit .request ∧
        (raiseIn c now .request (cs.purge now)).lookup k = some ⟨v', expiry⟩ := by
      rw [lookup_raiseIn]
      split
      · rename_i hc
        have hf := hfit _ hc
        refine ⟨v + c.cost .request, by omega, by omega, ?_⟩
        rw [← hc.2, hp, Option.getD_some, raised_more hv (by omega)]
      · exact ⟨v, Nat.le_refl v, by omega, hp⟩
    obtain ⟨v₁, h₁, hle, hlook⟩ := hone
    rw [charge_raised hr, lookup_raiseIn]
    split
    · rename_i hc
      have hf := hfit _ hc
      refine ⟨v₁ + c.cost .token, by omega, ?_⟩
      rw [← hc.2, hlook, Option.getD_some, raised_more (by omega) (by omega)]
    · exact ⟨v₁, h₁, hlook⟩

/-- A counter keeps its end as long as all charges are made before it. -/
theorem sits_after (hd : cs.Distinct) {later : List Timed}
    (hall : ∀ e ∈ later, e.charge.Bounded ∧ before expiry e.time = true) (hv : 0 < v)
    (hl : cs.lookup k = some ⟨v, expiry⟩) : ∃ v', v ≤ v' ∧ (cs.after later).lookup k = some ⟨v', expiry⟩ := by
  induction later generalizing cs v with
  | nil => exact ⟨v, Nat.le_refl v, hl⟩
  | cons e later ih =>
    obtain ⟨hb, hlive⟩ := hall e List.mem_cons_self
    obtain ⟨v₁, h₁, hl₁⟩ := sits_charge hd hb hv hl hlive
    obtain ⟨v₂, h₂, hl₂⟩ := ih (hd.charge e.time e.charge) (fun e he => hall e (List.mem_cons_of_mem _ he)) (by omega) hl₁
    exact ⟨v₂, Nat.le_trans h₁ h₂, hl₂⟩

/-- A key without a counter that counts has none after a charge that does not count under it. -/
theorem gone_charge (hp : (cs.purge now).lookup k = none) (hk : ∀ d, c.counts d = true → c.key d ≠ k) :
    (cs.charge now c).2.lookup k = none := by
  cases hr : (cs.charge now c).1 with
  | some d =>
    rw [charge_refused (by simp [hr])]
    exact hp
  | none =>
    rw [lookup_charge_other hr fun d hc e => hk d hc e.symm]
    exact hp

/-- A key without a counter has none until a charge counts under it. -/
theorem gone_after (hd : cs.Distinct) {later : List Timed}
    (hk : ∀ e ∈ later, ∀ d, e.charge.counts d = true → e.charge.key d ≠ k) (hl : cs.lookup k = none) :
    (cs.after later).lookup k = none := by
  induction later generalizing cs with
  | nil => exact hl
  | cons e later ih =>
    refine ih (hd.charge e.time e.charge) (fun e he => hk e (List.mem_cons_of_mem _ he)) ?_
    refine gone_charge ?_ (hk e List.mem_cons_self)
    rw [hd.lookup_purge, hl]
    rfl

/-- A counter has kept its end, or is gone because a charge was made after it. -/
theorem ended_after (hd : cs.Distinct) {later : List Timed} {start : Nat} (ht : Timely start later)
    (hb : ∀ e ∈ later, e.charge.Bounded)
    (hk : ∀ e ∈ later, before expiry e.time = false → ∀ d, e.charge.counts d = true → e.charge.key d ≠ k)
    (hv : 0 < v) (hl : cs.lookup k = some ⟨v, expiry⟩) :
    (cs.after later).lookup k = none ∨ ∃ v', (cs.after later).lookup k = some ⟨v', expiry⟩ := by
  induction later generalizing cs v with
  | nil => exact .inr ⟨v, hl⟩
  | cons e later ih =>
    obtain ⟨hclock, hrest⟩ := List.pairwise_cons.1 ht.clock
    cases hlive : before expiry e.time with
    | true =>
      obtain ⟨v₁, h₁, hl₁⟩ := sits_charge hd (hb e List.mem_cons_self) hv hl hlive
      exact ih (hd.charge e.time e.charge) ⟨fun e he => ht.since e (List.mem_cons_of_mem _ he), hrest⟩
        (fun e he => hb e (List.mem_cons_of_mem _ he)) (fun e he => hk e (List.mem_cons_of_mem _ he)) (by omega) hl₁
    | false =>
      have hpast : ∀ e' ∈ e :: later, before expiry e'.time = false := by
        intro e' he'
        rcases List.mem_cons.1 he' with rfl | he'
        · exact hlive
        · cases hlate : before expiry e'.time with
          | false => rfl
          | true =>
            rw [before_of_le hlate (hclock e' he')] at hlive
            nomatch hlive
      have hp : (cs.purge e.time).lookup k = none := by
        rw [lookup_purge_of_lookup hd hl, hlive]
        rfl
      have hone := gone_charge hp (hk e List.mem_cons_self hlive)
      exact .inl (gone_after (hd.charge e.time e.charge)
        (fun e he => hk e (List.mem_cons_of_mem _ he) (hpast e (List.mem_cons_of_mem _ he))) hone)

/-! ## The values after a charge -/

/-- A charge that is not refused raises the counter of a dimension it counts in by its cost. -/
theorem value_raised (ht : cs.Tidy) (hn : now < maxU64) (hb : c.Bounded) (hk : c.requestKey ≠ c.tokenKey)
    (h : (cs.charge now c).1 = none) (hc : c.counts d = true) :
    (cs.charge now c).2.value (c.key d) now = cs.value (c.key d) now + c.cost d := by
  rcases Nat.eq_zero_or_pos (cs.value (c.key d) now) with hv | hv
  · have hlasts : before (expiryOf c now) now = true := by
      rw [before_expiryOf]
      exact lasts_self c hn
    rw [value_of_lookup (lookup_created ht hb hk h hc hv), if_pos hlasts, hv, Nat.zero_add]
  · obtain ⟨expiry, -, hbefore, hl⟩ := lookup_sustained ht.distinct hb hk h hc hv
    rw [value_of_lookup hl, if_pos hbefore]

/-- A counter that was there is raised until it ends. -/
theorem value_sustained (ht : cs.Tidy) (hb : c.Bounded) (hk : c.requestKey ≠ c.tokenKey) (h : (cs.charge now c).1 = none)
    (hc : c.counts d = true) (hv : 0 < cs.value (c.key d) now) (t : Nat) :
    (cs.charge now c).2.value (c.key d) t = if cs.value (c.key d) t = 0 then 0 else cs.value (c.key d) t + c.cost d := by
  obtain ⟨expiry, hl, -, hl'⟩ := lookup_sustained ht.distinct hb hk h hc hv
  rw [value_of_lookup hl', value_of_lookup hl t]
  cases before expiry t with
  | true => simp [Nat.ne_of_gt hv]
  | false => simp

/-- A charge changes no value of a key that it does not count under. -/
theorem value_other (ht : cs.Tidy) (h : (cs.charge now c).1 = none) (hother : ∀ d, c.counts d = true → k ≠ c.key d)
    (hnow : now ≤ t) : (cs.charge now c).2.value k t = cs.value k t := by
  have hvalue : (cs.charge now c).2.value k t = (cs.purge now).value k t := by
    unfold Counters.value
    rw [lookup_charge_other h hother]
  rw [hvalue, ht.distinct.value_purge hnow]

/-- A counter that a charge creates counts as long as the charge says, whatever is charged before it ends. -/
theorem value_created (ht : cs.Tidy) (hb : c.Bounded) (hk : c.requestKey ≠ c.tokenKey) (h : (cs.charge now c).1 = none)
    (hc : c.counts d = true) (hv : cs.value (c.key d) now = 0) {later : List Timed}
    (hall : ∀ e ∈ later, e.charge.Bounded ∧ c.lasts now e.time = true) :
    ∃ v, c.cost d ≤ v ∧ ∀ t, ((cs.charge now c).2.after later).value (c.key d) t = if c.lasts now t then v else 0 := by
  have hall' : ∀ e ∈ later, e.charge.Bounded ∧ before (expiryOf c now) e.time = true := by
    intro e he
    rw [before_expiryOf]
    exact hall e he
  obtain ⟨v, hle, hl⟩ := sits_after (ht.distinct.charge now c) hall' (cost_pos hc) (lookup_created ht hb hk h hc hv)
  refine ⟨v, hle, fun t => ?_⟩
  rw [value_of_lookup hl, before_expiryOf]

/-- Nothing is read of a counter that a charge created once it has ended, unless another is raised under its key. -/
theorem value_ended (ht : cs.Tidy) (hb : c.Bounded) (hk : c.requestKey ≠ c.tokenKey) (h : (cs.charge now c).1 = none)
    (hc : c.counts d = true) (hv : cs.value (c.key d) now = 0) {later : List Timed} (hclock : Timely now later)
    (hbound : ∀ e ∈ later, e.charge.Bounded)
    (hother : ∀ e ∈ later, c.lasts now e.time = false → ∀ d', e.charge.counts d' = true → e.charge.key d' ≠ c.key d)
    (hpast : c.lasts now t = false) : ((cs.charge now c).2.after later).value (c.key d) t = 0 := by
  have hother' : ∀ e ∈ later, before (expiryOf c now) e.time = false →
      ∀ d', e.charge.counts d' = true → e.charge.key d' ≠ c.key d := by
    intro e he hp
    rw [before_expiryOf] at hp
    exact hother e he hp
  rcases ended_after (ht.distinct.charge now c) hclock hbound hother' (cost_pos hc) (lookup_created ht hb hk h hc hv) with
    hl | ⟨v, hl⟩
  · exact value_of_none hl t
  · rw [value_of_lookup hl, before_expiryOf, hpast]
    rfl

end AtomicAux

open AtomicAux

/-- One charge is atomic. Whatever was charged before, a charge with two keys and limits that fit signed words is refused, requests
first, exactly when a counter and its cost are together more than a limit that counts, and then leaves no trace; otherwise it raises
exactly the counters that it counts in by exactly its costs. A counter that it creates ends with its lifetime, and no charge before
that moves its end; without a lifetime it does not end. -/
theorem charge_atomic (past : List Timed) {now : Nat} {c : Charge} (hn : now < maxU64) (hk : c.requestKey ≠ c.tokenKey)
    (hb : c.Bounded) : Atomic (after [] past) now c := by
  have ht : (after [] past).Tidy := tidy_after tidy_nil past
  generalize after [] past = cs at ht
  exact {
    answer := answer_eq ht.distinct hb
    refused := fun h later hl => by
      rw [charge_refused h]
      exact after_purge ht.distinct hl
    raised := fun h d hc => value_raised ht hn hb hk h hc
    sustained := fun h d hc hv t _ => value_sustained ht hb hk h hc hv t
    kept := fun h k hother t hnow => value_other ht h hother hnow
    created := fun h d hc hv later _ hall => value_created ht hb hk h hc hv hall
    ended := fun h d hc hv later hclock hbound hother t hpast => value_ended ht hb hk h hc hv hclock hbound hother hpast }

/-- A charge in the last millisecond of a counter raises it, but does not make it last, and its own new counter lasts a second. -/
theorem charge_atomic_last_millisecond :
    let past : List Timed := [⟨1000, ⟨"r", "t", 5, 2, 0, 0, 2⟩⟩]
    let c : Charge := ⟨"r", "t", 5, 3, 10, 4, 1⟩
    let cs := ((after [] past).charge 2999 c).2
    2999 < maxU64 ∧ c.requestKey ≠ c.tokenKey ∧ c.Bounded ∧ cs.value "r" 2999 = 5 ∧ cs.value "r" 3000 = 0 ∧
      ∃ v, 4 ≤ v ∧ cs.value "t" 3998 = v ∧ cs.value "t" 3999 = 0 := by
  intro past c cs
  have hb : c.Bounded := by
    intro d
    cases d <;> decide
  have h : Atomic (after [] past) 2999 c := charge_atomic past (by decide) (by decide) hb
  have hnone : ((after [] past).charge 2999 c).1 = none := by decide
  obtain ⟨v, hv, ht⟩ := h.created hnone .token (by decide) (by decide) [] ⟨nofun, .nil⟩ nofun
  exact ⟨by decide, by decide, hb, h.raised hnone .request (by decide),
    h.sustained hnone .request (by decide) (by decide) 3000 (by decide), v, hv, ht 3998, ht 3999⟩

end Counters

end InferenceGate.Quota
