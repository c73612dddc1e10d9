import InferenceGate.Store.Accounts

/-!
# Totals over all time

A user's totals over all time leave one moment out: the last that a row can have, at which all rows stand that are made when the clock
has run past it. They add up the rows that the user's listing shows but for those (`all_time_totals`), and so all rows exactly where no
row has that time.
-/

namespace InferenceGate.Store

/-- Totals add up rows: how many there are, how many succeeded and how many failed, and all their tokens. -/
structure Totals.AddUp (t : Totals) (rows : List Usage) : Prop where
  requests : t.requests = rows.length
  successes : t.successes = rows.countP fun u => 200 ≤ u.status ∧ u.status ≤ 299
  failures : t.failures = rows.countP fun u => 400 ≤ u.status
  tokens : t.tokens = total (rows.map Usage.totalTokens)

instance (t : Totals) (rows : List Usage) : Decidable (t.AddUp rows) :=
  decidable_of_iff (t.requests = rows.length ∧ (t.successes = rows.countP fun u => 200 ≤ u.status ∧ u.status ≤ 299) ∧
    (t.failures = rows.countP fun u => 400 ≤ u.status) ∧ t.tokens = total (rows.map Usage.totalTokens))
    ⟨fun h => ⟨h.1, h.2.1, h.2.2.1, h.2.2.2⟩, fun h => ⟨h.1, h.2, h.3, h.4⟩⟩

namespace AllTimeAux

variable {t : Totals} {rows rows' : List Usage} {s : Tables} {user : Int}

theorem isSuccess_eq (u : Usage) : u.isSuccess = decide (200 ≤ u.status ∧ u.status ≤ 299) := by
  unfold Usage.isSuccess
  rw [Bool.decide_and]
  exact congrArg _ (decide_eq_decide.2 (by omega))

/-- The order of the rows does not matter. -/
theorem addUp_perm (h : rows.Perm rows') : t.AddUp rows ↔ t.AddUp rows' := by
  have htokens : total (rows.map Usage.totalTokens) = total (rows'.map Usage.totalTokens) := total_perm (h.map _)
  constructor
  · intro ha
    exact ⟨ha.requests.trans h.length_eq, ha.successes.trans (h.countP_eq _), ha.failures.trans (h.countP_eq _),
      ha.tokens.trans htokens⟩
  · intro ha
    exact ⟨ha.requests.trans h.length_eq.symm, ha.successes.trans (h.countP_eq _).symm, ha.failures.trans (h.countP_eq _).symm,
      ha.tokens.trans htokens.symm⟩

/-- Some of the rows of a user are counted over all time, and their totals add them up unless the tokens are too many. -/
theorem usageTotals_none (h : total ((s.usageWithin user minI64 maxI64).map Usage.totalTokens) ≤ maxI64.toNat) :
    ∃ t, s.usageTotals user none = .ok t ∧ t.AddUp (s.usageWithin user minI64 maxI64) := by
  have htokens : tokenSum (s.usageWithin user minI64 maxI64) =
      .ok (total ((s.usageWithin user minI64 maxI64).map Usage.totalTokens)) := if_neg (Nat.not_lt.2 h)
  unfold Tables.usageTotals
  simp only [Option.getD_none, htokens]
  refine ⟨_, rfl, rfl, ?_, rfl, rfl⟩
  exact congrArg (List.countP · _) (funext isSuccess_eq)

/-- The rows counted over all time are those of the listing but for the last moment. -/
theorem usageWithin_perm (user : Int) (hwords : ∀ u ∈ s.usage, inI64 u.createdAt = true) :
    (s.usageWithin user minI64 maxI64).Perm ((s.listUsage user).filter fun u => u.createdAt ≠ maxI64) := by
  have hwithin : ∀ u ∈ s.usageOf user, Usage.within minI64 maxI64 u = decide (u.createdAt ≠ maxI64) := by
    intro u hu
    have hword := inI64_iff.1 (hwords u (List.mem_filter.1 hu).1)
    unfold Usage.within
    rw [← Bool.decide_and, decide_eq_decide]
    omega
  unfold Tables.usageWithin Tables.listUsage
  rw [List.filter_congr hwithin]
  exact ((List.mergeSort_perm _ _).filter _).symm

end AllTimeAux

open AllTimeAux

/-- The totals of a user over all time add up the rows that the listing shows but for those of the last moment that a row can have; so
they add up all rows exactly where no row of the listing has that time. -/
theorem all_time_totals {s : Tables} {user : Int} (hwords : ∀ u ∈ s.usage, inI64 u.createdAt = true)
    (hsum : total ((s.listUsage user).map Usage.totalTokens) ≤ maxI64.toNat) :
    ∃ t, s.usageTotals user none = .ok t ∧ t.AddUp ((s.listUsage user).filter fun u => u.createdAt ≠ maxI64) ∧
      (t.AddUp (s.listUsage user) ↔ ∀ u ∈ s.listUsage user, u.createdAt ≠ maxI64) := by
  have hperm := usageWithin_perm user hwords
  have hle : total (((s.listUsage user).filter fun u => u.createdAt ≠ maxI64).map Usage.totalTokens) ≤
      total ((s.listUsage user).map Usage.totalTokens) := total_le_of_sublist (List.filter_sublist.map _)
  have hcounted : total ((s.usageWithin user minI64 maxI64).map Usage.totalTokens) ≤ maxI64.toNat := by
    rw [total_perm (hperm.map _)]
    exact Nat.le_trans hle hsum
  obtain ⟨t, ht, hadd⟩ := usageTotals_none hcounted
  rw [addUp_perm hperm] at hadd
  refine ⟨t, ht, hadd, fun hall => ?_, fun hnone => ?_⟩
  · -- as many rows are counted as are listed, so none is left out
    have hlength := hadd.requests.symm.trans hall.requests
    intro u hu
    exact of_decide_eq_true (List.length_filter_eq_length_iff.1 hlength u hu)
  · rwa [List.filter_eq_self.2 fun u hu => decide_eq_true (hnone u hu)] at hadd

namespace AllTimeAux

/-- A row of user 7 at an endpoint. -/
def row (id : Int) (endpoint : String) (status tokens : Nat) (createdAt : Int) : Usage where
  id := id
  user := 7
  endpoint := endpoint
  method := "POST"
  status := status
  requestSize := 0
  responseSize := 0
  latency := 0
  model := ""
  inputTokens := 0
  outputTokens := 0
  totalTokens := tokens
  error := none
  createdAt := createdAt

/-- Rows of the first moment, of the last moment and of the one before it. -/
def ends : Tables where
  usage := [row 1 "/v1/models" 200 3 minI64, row 2 "/v1/chat/completions" 404 5 (maxI64 - 1), row 3 "/v1/models" 200 30 maxI64]

theorem listUsage_ends : ends.listUsage 7 = ends.usage := by
  have hsorted : ends.usage.Pairwise fun a b => Usage.before a b = true := by decide
  exact List.mergeSort_of_pairwise hsorted

end AllTimeAux

/-- Of three rows the one of the last moment is left out; the two others are counted, whatever their times. -/
theorem all_time_totals_three_rows :
    ∃ t, ends.usageTotals 7 none = .ok t ∧ t.AddUp (ends.usage.take 2) ∧ ¬ t.AddUp (ends.listUsage 7) := by
  have hwords : ∀ u ∈ ends.usage, inI64 u.createdAt = true := by decide
  have hsum : total ((ends.listUsage 7).map Usage.totalTokens) ≤ maxI64.toNat := by
    rw [listUsage_ends]
    decide
  obtain ⟨t, ht, hadd, hall⟩ := all_time_totals hwords hsum
  rw [listUsage_ends] at hadd hall ⊢
  exact ⟨t, ht, hadd, fun h => absurd (hall.1 h) (by decide)⟩

/-- A row of the last moment is listed and not counted. -/
theorem last_moment_uncounted :
    ∃ s t, Tables.insertUsage {} (row 1 "/v1/models" 200 30 maxI64) = .ok s ∧ s.listUsage 7 = [row 1 "/v1/models" 200 30 maxI64] ∧
      s.usageTotals 7 none = .ok t ∧ (t.requests, t.tokens) = (0, 0) ∧ ¬ t.AddUp (s.listUsage 7) := by
  let s : Tables := { usage := [row 1 "/v1/models" 200 30 maxI64] }
  refine ⟨s, ⟨0, 0, 0, 0, averageLatency []⟩, rfl, by decide +kernel, rfl, rfl, fun h => ?_⟩
  exact absurd h.requests (by decide +kernel)

end InferenceGate.Store
