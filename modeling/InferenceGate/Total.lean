/-!
# Totals

The total of a list of numbers.
-/

namespace InferenceGate

/-- The total of numbers. -/
def total : List Nat → Nat
  | [] => 0
  | n :: ns => n + total ns

@[simp]
theorem total_nil : total [] = 0 := rfl

@[simp]
theorem total_cons (n : Nat) (ns : List Nat) : total (n :: ns) = n + total ns := rfl

/-- The total of two lists together is that of each added. -/
@[simp]
theorem total_append (ms ns : List Nat) : total (ms ++ ns) = total ms + total ns := by
  induction ms with
  | nil => simp
  | cons m ms ih => simp [ih, Nat.add_assoc]

/-- The total of the first numbers and one more. -/
theorem total_take_succ (ns : List Nat) (i : Nat) : total (ns.take (i + 1)) = total (ns.take i) + ns[i]?.getD 0 := by
  rw [List.take_add_one, total_append]
  cases ns[i]? <;> simp

/-- The total does not depend on the order. -/
theorem total_perm {ms ns : List Nat} (h : ms.Perm ns) : total ms = total ns := by
  induction h with
  | nil => rfl
  | cons n _ ih => rw [total_cons, total_cons, ih]
  | swap m n ns =>
    simp only [total_cons]
    omega
  | trans _ _ ih ih' => exact ih.trans ih'

/-- Some of the numbers come to no more than all. -/
theorem total_le_of_sublist {ms ns : List Nat} (h : ms.Sublist ns) : total ms ≤ total ns := by
  induction h with
  | slnil => exact Nat.le_refl 0
  | cons n _ ih => exact Nat.le_trans ih (Nat.le_add_left _ _)
  | cons_cons n _ ih => exact Nat.add_le_add_left ih n

/-! ## Totals by groups -/

variable {α κ : Type}

theorem total_map_add (f g : α → Nat) (l : List α) : total (l.map fun x => f x + g x) = total (l.map f) + total (l.map g) := by
  induction l with
  | nil => rfl
  | cons x l ih =>
    simp only [List.map_cons, total_cons, ih]
    omega

theorem total_map_zero (l : List α) : total (l.map fun _ => 0) = 0 := by
  induction l with
  | nil => rfl
  | cons x l ih => rw [List.map_cons, total_cons, ih]

theorem total_map_one (l : List α) : total (l.map fun _ => 1) = l.length := by
  induction l with
  | nil => rfl
  | cons x l ih => rw [List.map_cons, total_cons, ih, List.length_cons, Nat.add_comm]

variable [DecidableEq κ] {keys : List κ}

/-- Of different keys one is a given one. -/
theorem total_map_ite (h : keys.Nodup) {k : κ} (hk : k ∈ keys) (n : Nat) : total (keys.map fun k' => if k = k' then n else 0) = n := by
  induction keys with
  | nil => nomatch hk
  | cons key keys ih =>
    obtain ⟨hkey, hrest⟩ := List.nodup_cons.1 h
    rw [List.map_cons, total_cons]
    by_cases he : k = key
    · subst he
      have hzero : keys.map (fun k' => if k = k' then n else 0) = keys.map fun _ => 0 := by
        refine List.map_congr_left fun k' hk' => if_neg ?_
        rintro rfl
        exact hkey hk'
      rw [if_pos rfl, hzero, total_map_zero, Nat.add_zero]
    · have hmem : k ∈ keys := (List.mem_cons.1 hk).resolve_left he
      rw [if_neg he, ih hrest hmem, Nat.zero_add]

/-- The totals of the groups that different keys make of some rows come to the total of the rows. -/
theorem total_groups (h : keys.Nodup) (key : α → κ) (f : α → Nat) {rows : List α} (hrows : ∀ u ∈ rows, key u ∈ keys) :
    total (keys.map fun k => total ((rows.filter (key · == k)).map f)) = total (rows.map f) := by
  induction rows with
  | nil => exact total_map_zero keys
  | cons u rows ih =>
    have hsplit : ∀ k, total (((u :: rows).filter (key · == k)).map f) =
        (if key u = k then f u else 0) + total ((rows.filter (key · == k)).map f) := by
      intro k
      rw [List.filter_cons]
      by_cases he : key u = k <;> simp [he]
    simp only [hsplit]
    rw [total_map_add, total_map_ite h (hrows u List.mem_cons_self), ih fun v hv => hrows v (List.mem_cons_of_mem u hv),
      List.map_cons, total_cons]

end InferenceGate
