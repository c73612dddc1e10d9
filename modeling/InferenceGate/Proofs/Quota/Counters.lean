import InferenceGate.Quota.Charge

/-!
# Counters, key by key

What each operation on the counters does to the counter of a key. The counters are a list with every key once (`Distinct`), which
all operations keep; under that condition a purge takes away exactly the counters that no longer count.
-/

namespace InferenceGate.Quota.Counters

/-- Every key stands once. -/
def Distinct (cs : Counters) : Prop := (cs.map Prod.fst).Nodup

/-- The counter of a key is the first under it. -/
theorem lookup_cons (k k' : String) (c : Counter) (cs : Counters) :
    List.lookup k ((k', c) :: cs) = if k = k' then some c else cs.lookup k := by
  rw [List.lookup_cons]
  by_cases h : k = k'
  · simp [h]
  · simp [h, beq_false_of_ne h]

/-- A key that is none of the keys has no counter. -/
theorem lookup_eq_none {cs : Counters} {k : String} (h : k ∉ cs.map Prod.fst) : cs.lookup k = none := by
  induction cs with
  | nil => rfl
  | cons e cs ih =>
    obtain ⟨k', c⟩ := e
    rw [List.map_cons, List.mem_cons, not_or] at h
    rw [lookup_cons, if_neg h.1, ih h.2]

/-! ## Purging -/

theorem Distinct.purge {cs : Counters} (h : cs.Distinct) (now : Nat) : (cs.purge now).Distinct :=
  h.sublist (List.filter_sublist.map Prod.fst)

/-- A purge takes away the counters that do not count. -/
theorem Distinct.lookup_purge {cs : Counters} (h : cs.Distinct) (now : Nat) (k : String) :
    (cs.purge now).lookup k = (cs.lookup k).filter (Counter.isLive now) := by
  induction cs with
  | nil => rfl
  | cons e cs ih =>
    obtain ⟨k', c⟩ := e
    obtain ⟨hk, hd⟩ := List.nodup_cons.1 h
    have ih := ih hd
    unfold Counters.purge at ih ⊢
    rw [List.filter_cons, lookup_cons]
    by_cases hkk : k = k'
    · subst hkk
      have hn : cs.lookup k = none := lookup_eq_none hk
      cases hl : c.isLive now with
      | true => simp [Option.filter, hl]
      | false => simp [Option.filter, hl, ih, hn]
    · cases hl : c.isLive now with
      | true => simp [lookup_cons, hkk, ih]
      | false => simp [hkk, ih]

/-! ## Raising one counter -/

/-- Raising the counter of a key changes no other; a key without one begins at zero. -/
theorem lookup_bump (cs : Counters) (key k : String) (now life cost : Nat) :
    (cs.bump key now life cost).lookup k =
      if k = key then some (raised now life cost ((cs.lookup key).getD ⟨0, none⟩)) else cs.lookup k := by
  induction cs with
  | nil => simp [Counters.bump, lookup_cons]
  | cons e cs ih =>
    obtain ⟨k', c⟩ := e
    by_cases hk : k' = key
    · subst hk
      rw [Counters.bump, if_pos rfl, lookup_cons, lookup_cons, if_pos rfl, lookup_cons]
      by_cases h : k = k'
      · simp [h]
      · simp [h]
    · have hne : key ≠ k' := fun e => hk e.symm
      rw [Counters.bump, if_neg hk, lookup_cons, ih, lookup_cons, if_neg hne, lookup_cons]
      by_cases h : k = k'
      · subst h
        simp [hk]
      · simp [h]

/-- Raising a counter adds its key at most. -/
theorem keys_bump (cs : Counters) (key : String) (now life cost : Nat) :
    (cs.bump key now life cost).map Prod.fst =
      if key ∈ cs.map Prod.fst then cs.map Prod.fst else cs.map Prod.fst ++ [key] := by
  induction cs with
  | nil => rfl
  | cons e cs ih =>
    obtain ⟨k', c⟩ := e
    by_cases hk : k' = key
    · simp [Counters.bump, hk]
    · have hne : key ≠ k' := fun e => hk e.symm
      rw [Counters.bump, if_neg hk, List.map_cons, ih]
      by_cases hm : key ∈ cs.map Prod.fst
      · simp [hm]
      · rw [if_neg hm, if_neg]
        · rfl
        · rw [List.map_cons, List.mem_cons, not_or]
          exact ⟨hne, hm⟩

theorem Distinct.bump {cs : Counters} (h : cs.Distinct) (key : String) (now life cost : Nat) :
    (cs.bump key now life cost).Distinct := by
  unfold Distinct
  rw [keys_bump]
  by_cases hm : key ∈ cs.map Prod.fst
  · rw [if_pos hm]
    exact h
  · rw [if_neg hm]
    refine List.nodup_append.2 ⟨h, by simp, ?_⟩
    intro a ha b hb hab
    rw [List.mem_singleton] at hb
    exact hm (hb ▸ hab ▸ ha)

/-! ## A charge -/

/-- A counter that does not count at a time does not count later. -/
theorem isLive_of_le {now t : Nat} {c : Counter} (h : c.isLive t = true) (ht : now ≤ t) : c.isLive now = true := by
  unfold Counter.isLive at h ⊢
  cases he : c.expiresAt with
  | none => rfl
  | some e =>
    rw [he] at h
    simp only [Option.all_some, decide_eq_true_eq] at h ⊢
    omega

/-- A purge changes no value from its time on. -/
theorem Distinct.value_purge {cs : Counters} (h : cs.Distinct) {now t : Nat} (ht : now ≤ t) (k : String) :
    (cs.purge now).value k t = cs.value k t := by
  unfold Counters.value
  rw [h.lookup_purge]
  cases cs.lookup k with
  | none => rfl
  | some c =>
    cases hl : c.isLive now with
    | true => simp [Option.filter, hl]
    | false =>
      have hlater : c.isLive t = false := by
        cases hlt : c.isLive t with
        | false => rfl
        | true => rw [isLive_of_le hlt ht] at hl; nomatch hl
      simp [Option.filter, hl, hlater]

/-- A charge leaves each counter with its own key. -/
theorem Distinct.charge {cs : Counters} (h : cs.Distinct) (now : Nat) (c : Charge) : (cs.charge now c).2.Distinct := by
  have hp := h.purge now
  unfold Counters.charge
  dsimp only
  split
  · exact hp
  · have hr : (if c.requestEnabled = true then (cs.purge now).bump c.requestKey now (mulCapped c.lifetimeSeconds 1000) c.requestCost
        else cs.purge now).Distinct := by
      split
      · exact hp.bump _ _ _ _
      · exact hp
    dsimp only
    split
    · exact hr.bump _ _ _ _
    · exact hr

end InferenceGate.Quota.Counters
