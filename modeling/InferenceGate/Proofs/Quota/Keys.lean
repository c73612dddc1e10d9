import InferenceGate.Proofs.Text.Ascii
import InferenceGate.Quota.Charge

/-!
# Counter keys are told apart

A counter key is a text of four parts with colons between them, and only the first of them, the head, may hold colons of its own.
So a key has one reading from its end: the window, the subject, the mark of the dimension, and what is left is the head
(`counterKey_inj`). No two counters share a key, of one dimension or of both (`keys_apart`).
-/

namespace InferenceGate.Quota

namespace KeysAux

/-- Two texts that end in a piece without colons after a colon agree before and after it. -/
theorem cut_colon {a b c d : List Char} (hb : ':' ∉ b) (hd : ':' ∉ d) (h : a ++ ':' :: b = c ++ ':' :: d) : a = c ∧ b = d := by
  rcases List.append_eq_append_iff.1 h with ⟨m, hc, hm⟩ | ⟨m, ha, hm⟩
  · cases m with
    | nil => exact ⟨by simpa using hc.symm, by simpa using hm⟩
    | cons x m =>
      obtain ⟨-, rfl⟩ := List.cons.inj (show ':' :: b = x :: (m ++ ':' :: d) by simpa using hm)
      exact absurd (by simp) hb
  · cases m with
    | nil => exact ⟨by simpa using ha, by simpa using hm.symm⟩
    | cons x m =>
      obtain ⟨-, rfl⟩ := List.cons.inj (show ':' :: d = x :: (m ++ ':' :: b) by simpa using hm)
      exact absurd (by simp) hd

/-- The same of texts. -/
theorem cut_colon_text {a b c d : String} (hb : ':' ∉ b.toList) (hd : ':' ∉ d.toList) (h : a ++ ":" ++ b = c ++ ":" ++ d) :
    a = c ∧ b = d := by
  have hl := congrArg String.toList h
  simp only [String.toList_append, show ":".toList = [':'] from rfl, List.append_assoc, List.singleton_append] at hl
  obtain ⟨h1, h2⟩ := cut_colon hb hd hl
  exact ⟨String.toList_inj.1 h1, String.toList_inj.1 h2⟩

/-- The decimal text of a natural number has no colon. -/
theorem colon_notMem_nat (n : Nat) : ':' ∉ (toString n).toList := fun h => absurd (Text.isDigit_of_mem h) (by decide)

/-- A number below zero is written as the next number after a minus sign. -/
theorem toList_negSucc (n : Nat) : (toString (Int.negSucc n)).toList = '-' :: (toString (n + 1)).toList := by
  rw [Int.toString_eq_repr, Int.repr, String.toList_append]
  rfl

/-- The decimal text of a whole number has no colon. -/
theorem colon_notMem_int (n : Int) : ':' ∉ (toString n).toList := by
  cases n with
  | ofNat n => exact colon_notMem_nat n
  | negSucc n =>
    rw [toList_negSucc]
    exact List.not_mem_cons_of_ne_of_not_mem (by decide) (colon_notMem_nat (n + 1))

/-- A natural number is read back from its decimal text. -/
theorem eq_of_toString_nat {n m : Nat} (h : (toString n).toList = (toString m).toList) : n = m := by
  have hread := Text.natural?_toString n
  rw [h, Text.natural?_toString] at hread
  exact (Option.some.inj hread).symm

/-- The decimal text of a natural number has no sign. -/
theorem toList_ne_negSucc (n m : Nat) : (toString n).toList ≠ (toString (Int.negSucc m)).toList := by
  intro h
  have hsign : '-' ∈ (toString n).toList := by
    rw [h, toList_negSucc]
    exact List.mem_cons_self
  exact absurd (Text.isDigit_of_mem hsign) (by decide)

/-- Whole numbers with one decimal text are the same. -/
theorem eq_of_toString_int {n m : Int} (h : (toString n).toList = (toString m).toList) : n = m := by
  cases n with
  | ofNat n =>
    cases m with
    | ofNat m => exact congrArg Int.ofNat (eq_of_toString_nat h)
    | negSucc m => exact absurd h (toList_ne_negSucc n m)
  | negSucc n =>
    cases m with
    | ofNat m => exact absurd h.symm (toList_ne_negSucc m n)
    | negSucc m =>
      rw [toList_negSucc, toList_negSucc] at h
      exact congrArg Int.negSucc (Nat.succ.inj (eq_of_toString_nat (List.cons.inj h).2))

end KeysAux

open KeysAux

/-- A counter key is the key of one head, mark, subject and window only, as long as the mark has no colon. -/
theorem counterKey_inj {head head' mark mark' : String} {subject subject' : Int} {window window' : Nat}
    (hm : ':' ∉ mark.toList) (hm' : ':' ∉ mark'.toList)
    (h : counterKey head mark subject window = counterKey head' mark' subject' window') :
    head = head' ∧ mark = mark' ∧ subject = subject' ∧ window = window' := by
  obtain ⟨h1, hw⟩ := cut_colon_text (colon_notMem_nat window) (colon_notMem_nat window') h
  obtain ⟨h2, hs⟩ := cut_colon_text (colon_notMem_int subject) (colon_notMem_int subject') h1
  obtain ⟨h3, h4⟩ := cut_colon_text hm hm' h2
  exact ⟨h3, h4, eq_of_toString_int (congrArg _ hs), eq_of_toString_nat (congrArg _ hw)⟩

/-- The key of a mark is that of one head, subject and window. -/
theorem counterKey_eq_iff {mark : String} (hm : ':' ∉ mark.toList) {head head' : String} {subject subject' : Int} {window window' : Nat} :
    counterKey head mark subject window = counterKey head' mark subject' window' ↔
      head = head' ∧ subject = subject' ∧ window = window' := by
  constructor
  · intro h
    obtain ⟨hhead, -, hrest⟩ := counterKey_inj hm hm h
    exact ⟨hhead, hrest⟩
  · rintro ⟨rfl, rfl, rfl⟩
    rfl

/-- Whatever the heads are, two keys of one dimension are the same only for the same head, subject and window, and no key that counts
requests is one that counts tokens. -/
theorem keys_apart (head head' : String) (subject subject' : Int) (window window' : Nat) :
    (requestKey head subject window = requestKey head' subject' window' ↔ head = head' ∧ subject = subject' ∧ window = window') ∧
    (tokenKey head subject window = tokenKey head' subject' window' ↔ head = head' ∧ subject = subject' ∧ window = window') ∧
    requestKey head subject window ≠ tokenKey head' subject' window' := by
  have hreq : ':' ∉ "req".toList := by decide
  have htok : ':' ∉ "tok".toList := by decide
  refine ⟨counterKey_eq_iff hreq, counterKey_eq_iff htok, fun h => ?_⟩
  obtain ⟨-, hmark, -⟩ := counterKey_inj hreq htok h
  exact absurd hmark (by decide)

end InferenceGate.Quota
