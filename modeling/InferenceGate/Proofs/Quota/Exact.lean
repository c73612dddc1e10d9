import InferenceGate.Proofs.Quota.Run
import Mathlib.Data.List.Induction

/-!
# What a run admits

From the answer to a single attempt (`RunAux.decision_eq_verdict`) to what a whole run lets through: the attempts of one subject are
answered as if no other subject called, a window admits no more than the limit, and a stretch of one window length no more than
twice the limit.
-/

namespace InferenceGate.Quota

open RunAux

namespace ExactAux

variable {head : String} {length : Nat} {a : Attempt}

/-- What is allowed in a run was tried in it. -/
theorem mem_of_mem_allowedOf {run : List Attempt} {b : Attempt} (h : b ∈ allowedOf run) : b ∈ run := by
  induction run using List.reverseRecOn with
  | nil => exact h
  | append_singleton run a ih =>
    unfold allowedOf at h
    rw [after_append] at h
    unfold Books.put at h
    split at h
    · rcases List.mem_append.1 h with hb | hb
      · exact List.mem_append_left _ (ih hb)
      · exact List.mem_append_right _ hb
    · exact List.mem_append_left _ (ih h)

/-- A part of an orderly run is orderly. -/
theorem Orderly.sublist {run run' : List Attempt} (h : Orderly head length run) (hs : run'.Sublist run) :
    Orderly head length run' :=
  ⟨fun b hb => h.regular b (hs.subset hb), h.clock.sublist hs⟩

/-- What is allowed to a subject is what would be allowed to it alone. -/
theorem allowedOf_filter_subject {run : List Attempt} (h : Orderly head length run) (u : Int) :
    (allowedOf run).filter (fun b => decide (b.subject = u)) = allowedOf (run.filter fun b => decide (b.subject = u)) := by
  induction run using List.reverseRecOn with
  | nil => rfl
  | append_singleton run a ih =>
    have ih := ih (Orderly.of_append h).1
    rw [allowedOf_append h, List.filter_append]
    by_cases hu : a.subject = u
    · subst hu
      have ho : Orderly head length (run.filter (fun b => decide (b.subject = a.subject)) ++ [a]) :=
        Orderly.sublist h (List.Sublist.append List.filter_sublist (List.Sublist.refl [a]))
      have hv : verdict (allowedOf run) a = verdict (allowedOf (run.filter fun b => decide (b.subject = a.subject))) a := by
        refine verdict_congr ?_
        rw [← ih, List.filter_filter]
        simp
      have hsame : [a].filter (fun b => decide (b.subject = a.subject)) = [a] := by simp
      rw [hsame, allowedOf_append ho, ← hv]
      split
      · rw [List.filter_append, hsame, ih]
      · exact ih
    · have hnone : [a].filter (fun b => decide (b.subject = u)) = [] := by simp [hu]
      rw [hnone, List.append_nil, ← ih]
      split
      · rw [List.filter_append, hnone, List.append_nil]
      · rfl

/-- Under one limit no window admits more than the limit. -/
theorem spent_le {run : List Attempt} (h : Orderly head length run) {d : Dimension} {limit : Nat}
    (hl : ∀ b ∈ run, b.settings.limit d = limit) (u : Int) (w : Nat) : spent (allowedOf run) d u w ≤ limit := by
  induction run using List.reverseRecOn with
  | nil => exact Nat.zero_le _
  | append_singleton run a ih =>
    have ih := ih (Orderly.of_append h).1 fun b hb => hl b (List.mem_append_left _ hb)
    have hla := hl a (by simp)
    rw [allowedOf_append h]
    by_cases hv : verdict (allowedOf run) a = .allowed
    · rw [if_pos hv, spent_append]
      by_cases hc : a.countsFor d u w = true
      · have hp := verdict_eq_allowed.1 hv d
        unfold passes at hp
        unfold Attempt.countsFor at hc
        rw [Bool.and_eq_true, Bool.and_eq_true, decide_eq_true_iff, decide_eq_true_iff, decide_eq_true_iff] at hc
        obtain ⟨⟨rfl, rfl⟩, hpos⟩ := hc
        by_cases hcost : 0 < a.cost d
        · simp only [hpos, hcost, decide_true, Bool.true_and, decide_eq_false_iff_not, Nat.not_lt] at hp
          split <;> omega
        · split <;> omega
      · rw [if_neg hc]
        exact ih
    · rw [if_neg hv]
      exact ih

/-- What one condition picks costs no more than what two others pick that cover it. -/
theorem total_filter_le {p q r : Attempt → Bool} {f : Attempt → Nat} {l : List Attempt}
    (h : ∀ b ∈ l, p b = true → q b = true ∨ r b = true) :
    total ((l.filter p).map f) ≤ total ((l.filter q).map f) + total ((l.filter r).map f) := by
  induction l with
  | nil => exact Nat.le_refl 0
  | cons b l ih =>
    have ih := ih fun c hc => h c (List.mem_cons_of_mem _ hc)
    have hb := h b (by simp)
    rw [List.filter_cons, List.filter_cons, List.filter_cons]
    cases hp : p b <;> cases hq : q b <;> cases hr : r b <;> simp [hp, hq, hr] at hb ⊢ <;> omega

/-- A stretch of one window length touches two windows. -/
theorem window_of_stretch (ha : a.Regular head length) {t : Nat} (h1 : t ≤ a.asked) (h2 : a.asked ≤ t + 1000 * length) :
    a.window = windowOf (t / 1000) length ∨ a.window = windowOf (t / 1000) length + 1 := by
  have hl : 0 < length := ha.length_eq ▸ windowSeconds_pos ha.normal
  unfold Attempt.window windowOf
  rw [ha.length_eq, Nat.max_eq_left hl]
  have hlow : t / 1000 / length ≤ a.asked / 1000 / length := Nat.div_le_div_right (Nat.div_le_div_right h1)
  have hhigh : a.asked / 1000 / length ≤ t / 1000 / length + 1 := by
    calc a.asked / 1000 / length ≤ (t / 1000 + length) / length := Nat.div_le_div_right (by omega)
      _ = t / 1000 / length + 1 := Nat.add_div_right _ hl
  omega

end ExactAux

open ExactAux

/-- What a subject is charged, in a dimension, for attempts taken up in a stretch of time. -/
def spentBetween (allowed : List Attempt) (d : Dimension) (subject : Int) (first last : Nat) : Nat :=
  total ((allowed.filter fun a => decide (a.subject = subject) && decide (first ≤ a.asked) && decide (a.asked ≤ last)).map
    (Attempt.cost · d))

/-- Quota over whole runs: an attempt is denied, requests first, exactly when the sum of what its subject was charged in its window
and its own cost pass a limit that is counted. So the attempts of other subjects change nothing, and as long as a limit stays what
it is no window admits more than it and no stretch of one window length more than twice it. The attempts come in the order in
which the counters are charged; the ledger and the counters may read the clock once or one after the other, as long as no more than
one window begins in between (`late_charge_passes_limit`: with two that begin, the counter is gone before it is charged). -/
theorem consume_exact {head : String} {length : Nat} {past : List Attempt} {a : Attempt}
    (h : Orderly head length (past ++ [a])) :
    (decision past a = .denied .request ↔ passes (allowedOf past) a .request = true) ∧
    (decision past a = .denied .token ↔
      passes (allowedOf past) a .request = false ∧ passes (allowedOf past) a .token = true) ∧
    (decision past a = .allowed ↔
      passes (allowedOf past) a .request = false ∧ passes (allowedOf past) a .token = false) ∧
    decision past a = decision (past.filter fun b => decide (b.subject = a.subject)) a ∧
    ∀ d limit, 0 < limit → (∀ b ∈ past ++ [a], b.settings.limit d = limit) →
      (∀ u w, spent (allowedOf (past ++ [a])) d u w ≤ limit) ∧
      ∀ u t, spentBetween (allowedOf (past ++ [a])) d u t (t + 1000 * length) ≤ 2 * limit := by
  have hd := decision_eq_verdict h
  refine ⟨?_, ?_, ?_, ?_, ?_⟩
  · rw [hd]
    unfold verdict
    cases passes (allowedOf past) a .request <;> cases passes (allowedOf past) a .token <;> simp
  · rw [hd]
    unfold verdict
    cases passes (allowedOf past) a .request <;> cases passes (allowedOf past) a .token <;> simp
  · rw [hd]
    unfold verdict
    cases passes (allowedOf past) a .request <;> cases passes (allowedOf past) a .token <;> simp
  · have ho : Orderly head length (past.filter (fun b => decide (b.subject = a.subject)) ++ [a]) :=
      Orderly.sublist h (List.Sublist.append List.filter_sublist (List.Sublist.refl [a]))
    rw [hd, decision_eq_verdict ho]
    refine verdict_congr ?_
    rw [← allowedOf_filter_subject (Orderly.of_append h).1, List.filter_filter]
    simp
  · intro d limit hpos hl
    refine ⟨spent_le h hl, ?_⟩
    intro u t
    have hw := spent_le h hl u
    calc spentBetween (allowedOf (past ++ [a])) d u t (t + 1000 * length)
        ≤ spent (allowedOf (past ++ [a])) d u (windowOf (t / 1000) length) +
          spent (allowedOf (past ++ [a])) d u (windowOf (t / 1000) length + 1) := by
          refine total_filter_le fun b hb hp => ?_
          have hb := mem_of_mem_allowedOf hb
          simp only [Bool.and_eq_true, decide_eq_true_eq] at hp
          obtain ⟨⟨rfl, h1⟩, h2⟩ := hp
          have hlim : 0 < b.settings.limit d := by
            rw [hl b hb]
            exact hpos
          rcases window_of_stretch (h.regular b hb) h1 h2 with he | he
          · exact .inl (by simp [Attempt.countsFor, he, hlim])
          · exact .inr (by simp [Attempt.countsFor, he, hlim])
      _ ≤ limit + limit := Nat.add_le_add (hw _) (hw _)
      _ = 2 * limit := (Nat.two_mul limit).symm

/-- The third request of a subject in a window that takes two is denied, whatever another subject was charged meanwhile. -/
theorem consume_exact_third_request :
    let limits : RateLimits := { requestPerMin := 2, tokenPerMin := 5, windowSeconds := 60 }
    let past : List Attempt :=
      [⟨limits.normalize, 1000, 1000, 7, 1, 1⟩, ⟨limits.normalize, 2000, 2001, 8, 2, 1⟩, ⟨limits.normalize, 59999, 60000, 7, 1, 1⟩]
    let a : Attempt := ⟨limits.normalize, 59999, 60001, 7, 1, 1⟩
    Orderly usualKeyHead 60 (past ++ [a]) ∧ decision past a = .denied .request := by
  intro limits past a
  have h : Orderly usualKeyHead 60 (past ++ [a]) := by
    refine ⟨?_, by decide⟩
    intro b hb
    have hn : limits.normalize.IsNormal := ⟨limits, by decide, by decide, by decide, by decide, by decide, rfl⟩
    simp only [past, a, List.cons_append, List.nil_append, List.mem_cons, List.not_mem_nil, or_false] at hb
    rcases hb with rfl | rfl | rfl | rfl
    all_goals exact ⟨hn, by rfl, by decide, by decide, by decide, by decide⟩
  exact ⟨h, (consume_exact h).1.2 (by decide +kernel)⟩

/-- Two windows may begin between the two readings of the clock. Under a limit of one request in a second, the second request of a
second is taken up at its end and charged when the counter of that second is gone: it is allowed although it passes the limit, and
the window admits two. All else that an orderly run asks for holds here. -/
theorem late_charge_passes_limit :
    let limits : RateLimits := { requestPerMin := 1, windowSeconds := 1 }
    let first : Attempt := ⟨limits.normalize, 0, 0, 7, 1, 0⟩
    let late : Attempt := ⟨limits.normalize, 999, 2000, 7, 1, 0⟩
    Orderly usualKeyHead 1 [first] ∧ late.settings.IsNormal ∧ first.charged ≤ late.asked ∧ late.asked ≤ late.charged ∧
      late.window = first.window ∧ windowOf (late.charged / 1000) 1 = late.window + 2 ∧
      passes (allowedOf [first]) late .request = true ∧ decision [first] late = .allowed ∧
      spent (allowedOf [first, late]) .request 7 first.window = 2 := by
  intro limits first late
  have hn : limits.normalize.IsNormal := ⟨limits, by decide, by decide, by decide, by decide, by decide, rfl⟩
  have hfirst : Orderly usualKeyHead 1 [first] := by
    refine ⟨?_, by decide⟩
    intro b hb
    obtain rfl := List.mem_singleton.1 hb
    exact ⟨hn, by rfl, by decide, by decide, by decide, by decide⟩
  exact ⟨hfirst, hn, by decide, by decide, by decide, by decide, by decide +kernel, by decide +kernel, by decide +kernel⟩

end InferenceGate.Quota
