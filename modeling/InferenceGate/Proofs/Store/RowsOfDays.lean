import InferenceGate.Proofs.Store.Books
import InferenceGate.Proofs.Store.DailyReport

/-!
# Each row counts on one day

The spans of dates part all instants among them, and so they part the rows of usage: a row inserted joins the rows of one date
(`usageOn_insert`), whose report tells of one request more, and the report of every other date stays as it was (`days_part_time`).
-/

namespace InferenceGate.Store

open Calendar (Date FallsOn InReach today)

/-- With a row the report of a date tells of one request more, and of the tokens of the row as it is kept. -/
def Tables.CountsOn (s s' : Tables) (u : Usage) (d : Date) : Prop :=
  ∀ r', s'.daily u.user d = .ok r' → ∃ r, s.daily u.user d = .ok r ∧ r'.totals.requests = r.totals.requests + 1 ∧
    r'.totals.tokens = r.totals.tokens + u.capped.totalTokens

namespace RowsOfDaysAux

open DailyReportAux

variable {s s' : Tables} {u : Usage} {user : Int} {d : Date}

/-- A row inserted joins the rows that its user has on the date that covers it. -/
theorem usageOn_insert (h : s.insertUsage u = .ok s') :
    s'.usageOn user d = s.usageOn user d ++ if u.user = user ∧ d.Covers u.createdAt then [u.capped] else [] := by
  rw [Tables.insertUsage_eq] at h
  split at h
  · nomatch h
  · obtain rfl := Except.ok.inj h
    unfold Tables.usageOn
    rw [List.filter_append, List.filter_cons, List.filter_nil]
    simp only [decide_eq_true_eq]
    rfl

/-- The report of a date stays as it is where its rows do. -/
theorem daily_congr (h : s'.usageOn user d = s.usageOn user d) : s'.daily user d = s.daily user d := by
  rw [daily_eq, daily_eq, h]

/-- A row counts on the date that covers it. -/
theorem countsOn_of_covers (h : s.insertUsage u = .ok s') (hd : d.Covers u.createdAt) : s.CountsOn s' u d := by
  intro r' hr'
  have hrows : s'.usageOn u.user d = s.usageOn u.user d ++ [u.capped] := by
    rw [usageOn_insert h, if_pos ⟨rfl, hd⟩]
  have hsum : total ((s'.usageOn u.user d).map Usage.totalTokens) =
      total ((s.usageOn u.user d).map Usage.totalTokens) + u.capped.totalTokens := by
    rw [hrows, List.map_append, total_append]
    rfl
  rw [daily_eq] at hr'
  split at hr'
  · nomatch hr'
  · rename_i hfew
    obtain rfl := Except.ok.inj hr'
    refine ⟨reportOf (s.usageOn u.user d), ?_, ?_, hsum⟩
    · rw [daily_eq, if_neg (by omega)]
    · show (s'.usageOn u.user d).length = (s.usageOn u.user d).length + 1
      rw [hrows, List.length_append]
      rfl

end RowsOfDaysAux

open RowsOfDaysAux

/-- Days part time among them. A date covers none but instants that fall on it, counted from the first day of 1970 by the calendar; one
that is told of covers them all, and its span ends where that of the next day begins. The spans of different dates do not meet. An
instant within reach is covered by one date, which is one that is told of, and a clock within reach shows the date that covers it. So a
row counts in the report of one date, and the report of no other date and of no other user changes with it. -/
theorem days_part_time :
    (∀ (d : Date) (t : Int), d.Covers t → FallsOn t d) ∧
      (∀ d : Date, d.Told → ∀ t : Int, d.Covers t ↔ FallsOn t d) ∧
      (∀ d : Date, d.Told → d.span.2 = d.next.span.1) ∧
      (∀ d d' : Date, d ≠ d' → d.span.2 ≤ d'.span.1 ∨ d'.span.2 ≤ d.span.1) ∧
      (∀ t, InReach t → ∃ d : Date, d.Told ∧ ∀ d' : Date, d'.Covers t ↔ d' = d) ∧
      (∀ clock : Nat, InReach clock → ∀ d : Date, d.Covers clock ↔ d = today clock) ∧
      ∀ (s s' : Tables) (u : Usage), s.insertUsage u = .ok s' → InReach u.createdAt →
        ∃ d : Date, d.Told ∧ FallsOn u.createdAt d ∧ s.CountsOn s' u d ∧
          ∀ user d', user ≠ u.user ∨ d' ≠ d → s'.daily user d' = s.daily user d' := by
  refine ⟨fun _ _ => Calendar.fallsOn_of_covers, fun _ htold _ => Calendar.covers_iff_fallsOn htold,
    fun _ htold => (Calendar.span_next htold).symm, fun _ _ => Calendar.span_apart, fun _ => Calendar.exists_told,
    fun clock hclock d => ?_, fun s s' u hinsert hreach => ?_⟩
  · rw [Calendar.today_eq hclock]
    exact Calendar.covers_iff_dateOf hclock
  · obtain ⟨d, htold, honly⟩ := Calendar.exists_told hreach
    have hcovers : d.Covers u.createdAt := (honly d).2 rfl
    refine ⟨d, htold, Calendar.fallsOn_of_covers hcovers, countsOn_of_covers hinsert hcovers, fun user d' hother => ?_⟩
    have hout : ¬ (u.user = user ∧ d'.Covers u.createdAt) := by
      rintro ⟨rfl, hd'⟩
      exact hother.elim (fun h => h rfl) fun h => h ((honly d').1 hd')
    refine daily_congr ?_
    rw [usageOn_insert hinsert, if_neg hout, List.append_nil]

namespace RowsOfDaysAux

/-- The last day before 1970. -/
def lastOf1969 : Date := .newYearsEve 1969

/-- The leap day of a year that is a multiple of four hundred. -/
def leapDay : Date := ⟨2000, 2, 29, by decide, by decide⟩

end RowsOfDaysAux

/-- A row of the last moment before 1970 counts on that day and on no other, and a clock shows a leap day from its first moment on. -/
theorem days_part_time_before_1970 :
    ∃ s, Tables.insertUsage {} (AllTimeAux.row 1 "/v1/models" 200 9 (-1)) = .ok s ∧ FallsOn (-1) lastOf1969 ∧
      Tables.CountsOn {} s (AllTimeAux.row 1 "/v1/models" 200 9 (-1)) lastOf1969 ∧
      (∀ d, d ≠ lastOf1969 → s.daily 7 d = Tables.daily {} 7 d) ∧ (∃ r, s.daily 7 lastOf1969 = .ok r) ∧
      leapDay = today 951782400000 ∧ ¬ leapDay.Covers 951782399999 := by
  obtain ⟨-, hfalls, -, -, hone, htoday, hcounts⟩ := days_part_time
  have hreach : InReach (-1) := by decide +kernel
  have hcovers : lastOf1969.Covers (-1) := by decide +kernel
  obtain ⟨d, htold, hd, hcount, hothers⟩ := hcounts {} _ (AllTimeAux.row 1 "/v1/models" 200 9 (-1)) rfl hreach
  obtain rfl : d = lastOf1969 := by
    obtain ⟨only, -, honly⟩ := hone (-1) hreach
    rw [(honly d).1 ((hfalls d htold (-1)).2 hd), (honly lastOf1969).1 hcovers]
  refine ⟨_, rfl, hd, hcount, fun d' hne => hothers 7 d' (.inr hne), ?_, ?_, by decide +kernel⟩
  · exact ⟨_, (DailyReportAux.daily_eq _ _ _).trans (if_neg (by decide +kernel))⟩
  · exact (htoday 951782400000 (by decide +kernel) leapDay).1 (by decide +kernel)

end InferenceGate.Store
