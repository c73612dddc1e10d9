import InferenceGate.Proofs.Calendar.Days
import InferenceGate.Proofs.Store.AllTime
import InferenceGate.Proofs.Store.Order
import InferenceGate.Store.Report

/-!
# The report of a day adds up

A report is made of the rows that a user has in the day, and of nothing else (`daily_eq`): it is refused where the tokens of all those rows
are too many, and never for the tokens of one endpoint. Its parts are the endpoints of the rows in ascending order, each once, and the
parts come to the totals (`daily_adds_up`).
-/

namespace InferenceGate.Store

open Calendar (Date)

/-- The rows that a user has in a day. -/
def Tables.usageOn (s : Tables) (user : Int) (d : Date) : List Usage := s.usage.filter fun u => u.user = user ∧ d.Covers u.createdAt

/-- A report adds up rows: its parts are the endpoints of the rows, each once and in ascending order, with the requests and the tokens of
the rows of that endpoint; the parts come to the totals, which are those of all rows, and each request is a success or a failure. -/
structure Daily.AddsUp (r : Daily) (rows : List Usage) : Prop where
  endpoints : ∀ e, e ∈ r.details.map EndpointTotals.endpoint ↔ ∃ u ∈ rows, u.endpoint = e
  ascending : (r.details.map EndpointTotals.endpoint).Pairwise (· < ·)
  part : ∀ p ∈ r.details, p.requests = (rows.filter (·.endpoint = p.endpoint)).length ∧
    p.tokens = total ((rows.filter (·.endpoint = p.endpoint)).map Usage.totalTokens)
  requests : total (r.details.map EndpointTotals.requests) = r.totals.requests
  tokens : total (r.details.map EndpointTotals.tokens) = r.totals.tokens
  allRequests : r.totals.requests = rows.length
  allTokens : r.totals.tokens = total (rows.map Usage.totalTokens)
  sides : r.totals.successes + r.totals.failures = r.totals.requests

namespace DailyReportAux

variable {s : Tables} {user : Int} {d : Date} {rows : List Usage}

/-! ## The endpoints of rows -/

/-- The endpoints of rows, each once and in ascending order. -/
def endpointsOf (rows : List Usage) : List String := (rows.map Usage.endpoint).eraseDups.mergeSort fun a b => !decide (b < a)

theorem eraseDups_nodup {α : Type} [BEq α] [LawfulBEq α] (l : List α) : l.eraseDups.Nodup := by
  match l with
  | [] => exact List.nodup_nil
  | a :: l =>
    rw [List.eraseDups_cons, List.nodup_cons]
    refine ⟨fun ha => ?_, eraseDups_nodup _⟩
    simpa using (List.mem_filter.1 (List.mem_eraseDups.1 ha)).2
termination_by l.length
decreasing_by exact Nat.lt_succ_of_le (List.length_filter_le _ _)

theorem mem_endpointsOf {e : String} : e ∈ endpointsOf rows ↔ ∃ u ∈ rows, u.endpoint = e := by
  unfold endpointsOf
  rw [List.mem_mergeSort, List.mem_eraseDups, List.mem_map]

/-- The endpoints of rows stand in ascending order. -/
theorem ascending_endpointsOf (rows : List Usage) : (endpointsOf rows).Pairwise (· < ·) := by
  have hle : ∀ {a b : String}, (!decide (b < a)) = true ↔ a ≤ b := by
    intro a b
    rw [Bool.not_eq_true', decide_eq_false_iff_not]
    exact String.not_lt
  have htrans : ∀ a b c : String, (!decide (b < a)) = true → (!decide (c < b)) = true → (!decide (c < a)) = true :=
    fun a b c hab hbc => hle.2 (String.le_trans (hle.1 hab) (hle.1 hbc))
  have htotal : ∀ a b : String, ((!decide (b < a)) || !decide (a < b)) = true := by
    intro a b
    rw [Bool.or_eq_true, hle, hle]
    exact String.le_total a b
  have hdistinct : (rows.map Usage.endpoint).eraseDups.Pairwise fun a b => id a ≠ id b := eraseDups_nodup _
  refine (OrderAux.pairwise_mergeSort_of_keys htrans htotal hdistinct).imp fun {a b} h => ?_
  obtain ⟨hab, hne⟩ := h
  exact String.not_le.1 fun hba => hne (String.le_antisymm (hle.1 hab) hba)

theorem endpointsOf_nodup (rows : List Usage) : (endpointsOf rows).Nodup := by
  refine (ascending_endpointsOf rows).imp ?_
  rintro a b hlt rfl
  exact String.lt_irrefl _ hlt

/-! ## The report that is made of rows -/

/-- The part of an endpoint in the report of rows. -/
def partOf (rows : List Usage) (endpoint : String) : EndpointTotals where
  endpoint := endpoint
  requests := (rows.filter (·.endpoint == endpoint)).length
  tokens := total ((rows.filter (·.endpoint == endpoint)).map Usage.totalTokens)
  averageLatency := averageLatency (rows.filter (·.endpoint == endpoint))

/-- The report of rows. -/
def reportOf (rows : List Usage) : Daily where
  totals :=
    { requests := rows.length
      successes := rows.countP Usage.isSuccess
      failures := rows.length - rows.countP Usage.isSuccess
      tokens := total (rows.map Usage.totalTokens)
      averageLatency := averageLatency rows }
  details := (endpointsOf rows).map (partOf rows)

/-- The rows within the span of a date are those that the date covers. -/
theorem usageWithin_span (s : Tables) (user : Int) (d : Date) : s.usageWithin user d.span.1 d.span.2 = s.usageOn user d := by
  unfold Tables.usageWithin Tables.usageOf Tables.usageOn Date.Covers
  rw [List.filter_filter]
  refine List.filter_congr fun u _ => ?_
  unfold Usage.within
  rw [Bool.eq_iff_iff]
  simp [and_comm]

/-- A list of which every item succeeds succeeds as a whole. -/
theorem mapM_eq_ok {α β ε : Type} {f : α → Except ε β} {g : α → β} {l : List α} (h : ∀ a ∈ l, f a = .ok (g a)) :
    l.mapM f = .ok (l.map g) := by
  induction l with
  | nil => rfl
  | cons a l ih =>
    rw [List.mapM_cons, h a List.mem_cons_self, ih fun b hb => h b (List.mem_cons_of_mem a hb)]
    rfl

/-- The tokens of one endpoint are no more than those of all rows. -/
theorem endpointTotals_eq (h : total (rows.map Usage.totalTokens) ≤ maxI64.toNat) (endpoint : String) :
    Tables.endpointTotals rows endpoint = .ok (partOf rows endpoint) := by
  have hle : total ((rows.filter (·.endpoint == endpoint)).map Usage.totalTokens) ≤ total (rows.map Usage.totalTokens) :=
    total_le_of_sublist (List.filter_sublist.map _)
  have hown : tokenSum (rows.filter (·.endpoint == endpoint)) =
      .ok (total ((rows.filter (·.endpoint == endpoint)).map Usage.totalTokens)) := if_neg (by omega)
  unfold Tables.endpointTotals
  dsimp only
  rw [hown]
  rfl

/-- A report is made of the rows of the day, unless they have too many tokens together. -/
theorem daily_eq (s : Tables) (user : Int) (d : Date) :
    s.daily user d = if maxI64.toNat < total ((s.usageOn user d).map Usage.totalTokens) then .error .sumOverflow
      else .ok (reportOf (s.usageOn user d)) := by
  unfold Tables.daily Tables.usageTotals Tables.usageByEndpoint
  simp only [Option.getD_some, usageWithin_span, Option.isSome_some, if_true]
  by_cases hmany : maxI64.toNat < total ((s.usageOn user d).map Usage.totalTokens)
  · have hsum : tokenSum (s.usageOn user d) = .error .sumOverflow := if_pos hmany
    rw [if_pos hmany, hsum]
    rfl
  · have hsum : tokenSum (s.usageOn user d) = .ok _ := if_neg hmany
    have hparts := mapM_eq_ok (l := endpointsOf (s.usageOn user d)) fun e _ => endpointTotals_eq (Nat.not_lt.1 hmany) e
    rw [if_neg hmany, hsum]
    unfold endpointsOf at hparts
    simp only [Except.map, hparts]
    rfl

/-- The report of rows adds them up. -/
theorem addsUp_reportOf (rows : List Usage) : (reportOf rows).AddsUp rows := by
  have hendpoints : (reportOf rows).details.map EndpointTotals.endpoint = endpointsOf rows := by
    show ((endpointsOf rows).map (partOf rows)).map EndpointTotals.endpoint = _
    rw [List.map_map]
    exact List.map_id _
  have hmem : ∀ u ∈ rows, u.endpoint ∈ endpointsOf rows := fun u hu => mem_endpointsOf.2 ⟨u, hu, rfl⟩
  refine ⟨fun e => ?_, ?_, fun p hp => ?_, ?_, ?_, rfl, rfl, ?_⟩
  · rw [hendpoints]
    exact mem_endpointsOf
  · rw [hendpoints]
    exact ascending_endpointsOf rows
  · obtain ⟨e, -, rfl⟩ := List.mem_map.1 hp
    exact ⟨rfl, rfl⟩
  · have hgroups := total_groups (endpointsOf_nodup rows) Usage.endpoint (fun _ => 1) hmem
    simp only [total_map_one] at hgroups
    show total (((endpointsOf rows).map (partOf rows)).map EndpointTotals.requests) = rows.length
    rw [List.map_map]
    exact hgroups
  · show total (((endpointsOf rows).map (partOf rows)).map EndpointTotals.tokens) = _
    rw [List.map_map]
    exact total_groups (endpointsOf_nodup rows) Usage.endpoint Usage.totalTokens hmem
  · exact Nat.add_sub_cancel' List.countP_le_length

end DailyReportAux

open AllTimeAux (row)
open DailyReportAux

/-- A report that is given adds up the rows that the user has in the day. It is given as soon as the tokens of all those rows together are
no more than the greatest signed word, however many one endpoint has, and refused for its tokens where they are more. -/
theorem daily_adds_up (s : Tables) (user : Int) (d : Date) :
    (∀ r, s.daily user d = .ok r → r.AddsUp (s.usageOn user d)) ∧
      ((∃ r, s.daily user d = .ok r) ↔ total ((s.usageOn user d).map Usage.totalTokens) ≤ maxI64.toNat) ∧
      (s.daily user d = .error .sumOverflow ↔ maxI64.toNat < total ((s.usageOn user d).map Usage.totalTokens)) := by
  rw [daily_eq]
  by_cases hmany : maxI64.toNat < total ((s.usageOn user d).map Usage.totalTokens)
  · rw [if_pos hmany]
    exact ⟨nofun, ⟨nofun, fun hle => absurd hmany (Nat.not_lt.2 hle)⟩, fun _ => hmany, fun _ => rfl⟩
  · rw [if_neg hmany]
    refine ⟨fun r hr => ?_, ⟨fun _ => Nat.not_lt.1 hmany, fun _ => ⟨_, rfl⟩⟩, nofun, fun h => absurd h hmany⟩
    obtain rfl := Except.ok.inj hr
    exact addsUp_reportOf _

namespace DailyReportAux

/-- The second day of 1970. -/
def secondDay : Date := Date.epoch.next

/-- Rows of four calls, the first of them in the last moment of the day before. -/
def calls : List Usage :=
  [row 1 "/v1/models" 200 9 86399999, row 2 "/v1/models" 302 5 86400000, row 3 "/v1/chat/completions" 200 7 172799999,
    row 4 "/v1/models" 200 1 100000000]

end DailyReportAux

/-- A day with two calls of one endpoint and one of another, a redirection among them. -/
theorem daily_adds_up_two_endpoints :
    ∃ s r, calls.foldlM Tables.insertUsage {} = .ok s ∧ s.daily 7 secondDay = .ok r ∧ r.AddsUp (s.usageOn 7 secondDay) ∧
      (r.totals.requests, r.totals.successes, r.totals.failures, r.totals.tokens) = (3, 2, 1, 13) ∧
      r.details.map (fun p => (p.endpoint, p.requests, p.tokens)) = [("/v1/chat/completions", 1, 7), ("/v1/models", 2, 6)] := by
  let s : Tables := { usage := calls }
  obtain ⟨hadds, hgiven, -⟩ := daily_adds_up s 7 secondDay
  obtain ⟨r, hr⟩ := hgiven.2 (by decide +kernel)
  have hrows : s.usageOn 7 secondDay = calls.tail := by decide +kernel
  have hreport : r = reportOf calls.tail := by
    rw [daily_eq, if_neg (by decide +kernel), hrows] at hr
    exact (Except.ok.inj hr).symm
  have hendpoints : endpointsOf calls.tail = ["/v1/chat/completions", "/v1/models"] := by
    have honce : (calls.tail.map Usage.endpoint).eraseDups = ["/v1/models", "/v1/chat/completions"] := by decide
    have hperm : (endpointsOf calls.tail).Perm ["/v1/chat/completions", "/v1/models"] := by
      refine (List.mergeSort_perm _ _).trans ?_
      rw [honce]
      exact .swap _ _ _
    exact hperm.eq_of_pairwise (fun a b _ _ hab hba => absurd hba (String.lt_asymm hab)) (ascending_endpointsOf _) (by decide)
  have hdetails : r.details = ["/v1/chat/completions", "/v1/models"].map (partOf calls.tail) := by
    rw [hreport, ← hendpoints]
    rfl
  exact ⟨s, r, rfl, hr, hadds r hr, by rw [hreport]; decide +kernel, by rw [hdetails]; decide +kernel⟩

end InferenceGate.Store
