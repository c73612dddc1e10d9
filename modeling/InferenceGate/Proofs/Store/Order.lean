import InferenceGate.Store.Conversations

/-!
# Messages in order

The order of messages is total, and on messages of different ids no two are equal in it. So sorting the newest first is sorting
the oldest first backwards, and of a table whose rows already stand in order (`Ordered`) the newest turns of a conversation are
the last ones. An order in which rows of one kind lead (`leading`) sorts those rows and the others apart.
-/

namespace InferenceGate.Store

/-- Messages of which no two have the same id. -/
def DistinctIds (ms : List Message) : Prop := ms.Pairwise fun a b => a.id ≠ b.id

/-- Messages whose ids go up and whose times do not go down. -/
def Ordered (ms : List Message) : Prop := ms.Pairwise fun a b => a.id < b.id ∧ a.createdAt ≤ b.createdAt

namespace OrderAux

/-- One message comes before another when it is older, or of the same age with an id that is not greater. -/
theorem before_iff {a b : Message} :
    a.before b = true ↔ a.createdAt < b.createdAt ∨ (a.createdAt = b.createdAt ∧ a.id ≤ b.id) := by
  simp [Message.before]

theorem before_trans (a b c : Message) (h1 : a.before b = true) (h2 : b.before c = true) : a.before c = true := by
  rw [before_iff] at h1 h2 ⊢
  omega

theorem before_total (a b : Message) : (a.before b || b.before a) = true := by
  rw [Bool.or_eq_true, before_iff, before_iff]
  omega

/-- Of two messages that come before each other the ids are the same. -/
theorem id_eq_of_before {a b : Message} (h1 : a.before b = true) (h2 : b.before a = true) : a.id = b.id := by
  rw [before_iff] at h1 h2
  omega

section Leading

variable {α : Type} {p : α → Bool} {le : α → α → Bool}

/-- The first of a sorted list comes before all of it. -/
theorem first_of_mergeSort (htrans : ∀ a b c, le a b = true → le b c = true → le a c = true)
    (htotal : ∀ a b, (le a b || le b a) = true) {l : List α} {a : α} (h : (l.mergeSort le).head? = some a) :
    a ∈ l ∧ ∀ b ∈ l, le a b = true := by
  have hsorted := List.pairwise_mergeSort htrans htotal l
  refine ⟨List.mem_mergeSort.1 (List.mem_of_mem_head? h), fun b hb => ?_⟩
  have hb' : b ∈ l.mergeSort le := List.mem_mergeSort.2 hb
  cases hs : l.mergeSort le with
  | nil =>
    rw [hs] at h
    nomatch h
  | cons c rest =>
    rw [hs] at h hsorted hb'
    obtain rfl : c = a := Option.some.inj h
    rcases List.mem_cons.1 hb' with rfl | hb'
    · simpa using htotal b b
    · exact (List.pairwise_cons.1 hsorted).1 b hb'

/-- An order of rows in which those of one kind lead. -/
def leading (p : α → Bool) (le : α → α → Bool) (a b : α) : Bool := if p a == p b then le a b else p a

/-- Within a kind the order is the plain one. -/
theorem leading_of_eq {a b : α} (h : p a = p b) : leading p le a b = le a b := by
  unfold leading
  rw [h, if_pos (beq_self_eq_true _)]

/-- An order with a leading kind is transitive when it is so within the kinds. -/
theorem leading_trans (h : ∀ a b c, le a b = true → le b c = true → le a c = true) (a b c : α)
    (h1 : leading p le a b = true) (h2 : leading p le b c = true) : leading p le a c = true := by
  have := h a b c
  unfold leading at *
  cases hpa : p a <;> cases hpb : p b <;> cases hpc : p c <;> simp_all

/-- An order with a leading kind is total when it is so within the kinds. -/
theorem leading_total (h : ∀ a b, (le a b || le b a) = true) (a b : α) : (leading p le a b || leading p le b a) = true := by
  have := h a b
  unfold leading
  cases hpa : p a <;> cases hpb : p b <;> simp_all

/-- Sorting with rows of a kind in the lead sorts these and then the others. -/
theorem mergeSort_leading (htrans : ∀ a b c, le a b = true → le b c = true → le a c = true)
    (htotal : ∀ a b, (le a b || le b a) = true) {l : List α}
    (hanti : ∀ a b, a ∈ l → b ∈ l → le a b = true → le b a = true → a = b) :
    l.mergeSort (leading p le) = (l.filter p).mergeSort le ++ (l.filter fun a => !p a).mergeSort le := by
  refine @List.Perm.eq_of_pairwise _ (fun a b => leading p le a b = true) _ _ ?_ ?_ ?_ ?_
  · intro a b ha hb h1 h2
    have ha := List.mem_mergeSort.1 ha
    have hb : b ∈ l := by
      rcases List.mem_append.1 hb with hb | hb <;> exact (List.mem_filter.1 (List.mem_mergeSort.1 hb)).1
    unfold leading at h1 h2
    cases hpa : p a <;> cases hpb : p b <;> simp only [hpa, hpb] at h1 h2
    · exact hanti a b ha hb (by simpa using h1) (by simpa using h2)
    · simp at h1
    · simp at h2
    · exact hanti a b ha hb (by simpa using h1) (by simpa using h2)
  · exact List.pairwise_mergeSort (leading_trans htrans) (leading_total htotal) l
  · -- within either part the order is the plain one, and every row of the first part leads every row of the second
    have hpart : ∀ (q : α → Bool) (v : Bool), (∀ a, q a = true → p a = v) →
        ((l.filter q).mergeSort le).Pairwise fun a b => leading p le a b = true := by
      intro q v hq
      refine List.Pairwise.imp_of_mem (fun {a b} ha hb hab => ?_) (List.pairwise_mergeSort htrans htotal (l.filter q))
      have hpa := hq a (List.mem_filter.1 (List.mem_mergeSort.1 ha)).2
      have hpb := hq b (List.mem_filter.1 (List.mem_mergeSort.1 hb)).2
      rw [leading_of_eq (hpa.trans hpb.symm)]
      exact hab
    refine List.pairwise_append.2 ⟨hpart p true fun _ h => h, hpart _ false fun a h => by simpa using h, fun a ha b hb => ?_⟩
    have hpa : p a = true := (List.mem_filter.1 (List.mem_mergeSort.1 ha)).2
    have hpb : p b = false := by simpa using (List.mem_filter.1 (List.mem_mergeSort.1 hb)).2
    simp [leading, hpa, hpb]
  · refine (List.mergeSort_perm _ _).trans ((List.filter_append_perm p l).symm.trans ?_)
    exact ((List.mergeSort_perm _ _).symm).append (List.mergeSort_perm _ _).symm

end Leading

section Keys

variable {α κ : Type} {key : α → κ} {l : List α}

/-- A list of different keys holds one member of a key. -/
theorem eq_of_key_eq (h : l.Pairwise fun a b => key a ≠ key b) {a b : α} (ha : a ∈ l) (hb : b ∈ l) (he : key a = key b) : a = b := by
  induction l with
  | nil => nomatch ha
  | cons m l ih =>
    obtain ⟨hm, hl⟩ := List.pairwise_cons.1 h
    rcases List.mem_cons.1 ha with rfl | ha' <;> rcases List.mem_cons.1 hb with rfl | hb'
    · rfl
    · exact absurd he (hm b hb')
    · exact absurd he.symm (hm a ha')
    · exact ih hl ha' hb'

/-- In a list of different keys a test that only members of one key pass finds the one that does. -/
theorem find?_of_keys (h : l.Pairwise fun a b => key a ≠ key b) {p : α → Bool} {a : α} (ha : a ∈ l) (hp : p a = true)
    (hkey : ∀ b, p b = true → key b = key a) : l.find? p = some a := by
  cases hf : l.find? p with
  | none => exact absurd hp (List.find?_eq_none.1 hf a ha)
  | some b => rw [eq_of_key_eq h (List.mem_of_find?_eq_some hf) ha (hkey b (List.find?_some hf))]

/-- Sorted rows of different keys are sorted strictly. -/
theorem pairwise_mergeSort_of_keys {le : α → α → Bool} (htrans : ∀ a b c, le a b = true → le b c = true → le a c = true)
    (htotal : ∀ a b, (le a b || le b a) = true) (h : l.Pairwise fun a b => key a ≠ key b) :
    (l.mergeSort le).Pairwise fun a b => le a b = true ∧ key a ≠ key b :=
  (List.pairwise_mergeSort htrans htotal l).and ((List.mergeSort_perm l le).symm.pairwise h fun h => h.symm)

end Keys

/-- A list of messages of different ids holds one message of an id. -/
theorem eq_of_id_eq {l : List Message} (h : DistinctIds l) {a b : Message} (ha : a ∈ l) (hb : b ∈ l)
    (he : a.id = b.id) : a = b := eq_of_key_eq h ha hb he

/-- Sorting the newest first is sorting the oldest first, backwards. -/
theorem mergeSort_newerFirst {l : List Message} (h : DistinctIds l) :
    l.mergeSort Message.newerFirst = (l.mergeSort Message.before).reverse := by
  refine @List.Perm.eq_of_pairwise _ (fun a b => Message.newerFirst a b = true) _ _ ?_ ?_ ?_ ?_
  · intro a b ha hb h1 h2
    have ha := List.mem_mergeSort.1 ha
    have hb := List.mem_mergeSort.1 (List.mem_reverse.1 hb)
    exact eq_of_id_eq h ha hb (id_eq_of_before h2 h1)
  · exact List.pairwise_mergeSort (fun a b c h1 h2 => before_trans c b a h2 h1) (fun a b => before_total b a) l
  · rw [List.pairwise_reverse]
    exact List.pairwise_mergeSort before_trans before_total l
  · exact (List.mergeSort_perm _ _).trans ((List.mergeSort_perm _ _).symm.trans (List.reverse_perm _).symm)

/-- The order of a listing: messages of the system lead, each kind with the oldest first. -/
theorem listedBefore_eq : Message.listedBefore = leading Message.isSystem Message.before := rfl

/-- The order in which messages stand for their conversation: turns lead, each kind with the newest first. -/
theorem shownBefore_eq : Message.shownBefore = leading (fun m => !m.isSystem) Message.newerFirst := by
  funext a b
  unfold Message.shownBefore leading
  cases ha : a.isSystem <;> cases hb : b.isSystem <;> simp [ha, hb]

theorem newerFirst_trans (a b c : Message) (h1 : a.newerFirst b = true) (h2 : b.newerFirst c = true) : a.newerFirst c = true :=
  before_trans c b a h2 h1

theorem newerFirst_total (a b : Message) : (a.newerFirst b || b.newerFirst a) = true := before_total b a

end OrderAux

open OrderAux

namespace Ordered

variable {ms ms' : List Message}

/-- A part of messages in order is in order. -/
theorem sublist (h : Ordered ms) (hs : ms'.Sublist ms) : Ordered ms' := List.Pairwise.sublist hs h

/-- Messages in order have different ids. -/
theorem distinct (h : Ordered ms) : DistinctIds ms :=
  List.Pairwise.imp (fun hab => Int.ne_of_lt hab.1) h

/-- Messages in order are sorted. -/
theorem sorted (h : Ordered ms) : ms.mergeSort Message.before = ms := by
  refine List.mergeSort_of_pairwise (List.Pairwise.imp (fun {a b} hab => ?_) h)
  rw [before_iff]
  omega

/-- The newest of messages in order are the last of them. -/
theorem newest (h : Ordered ms) (n : Nat) : ((ms.mergeSort Message.newerFirst).take n).reverse = ms.drop (ms.length - n) := by
  rw [mergeSort_newerFirst h.distinct, h.sorted, List.take_reverse, List.reverse_reverse]

end Ordered

namespace Tables

/-- Of a table in order, the newest turns of a conversation are the last of its turns. -/
theorem recentTurns_eq {s : Tables} (h : Ordered s.messages) (conversation : Int) (n : Nat) :
    s.recentTurns conversation n = (s.turnsOf conversation).drop ((s.turnsOf conversation).length - n) :=
  (h.sublist (List.filter_sublist.trans List.filter_sublist)).newest n

end Tables

end InferenceGate.Store
