import InferenceGate.Proofs.Store.Order
import InferenceGate.Server.Selection

/-!
# Rows dealt to pages

Where no two rows have the same id a listing of them is in strict order (`sorted_conversationsOf`, `sorted_listing`), and its pages
are its rows dealt out in turn (`Dealt`): the offset of a page is capped at the greatest word on the way to the store, which changes
nothing as long as a signed word counts the rows.
-/

namespace InferenceGate.Store

open OrderAux

/-! ## The order of a listing -/

/-- The order of conversations in a listing: the later last message first; of one time, the greater id. -/
def Conversation.Precedes (a b : Conversation) : Prop :=
  b.lastMessageAt < a.lastMessageAt ∨ (a.lastMessageAt = b.lastMessageAt ∧ b.id < a.id)

/-- The order of messages in a listing: those of the system first, then the earlier first; of one time, the lesser id. -/
def Message.Precedes (a b : Message) : Prop :=
  if a.isSystem = b.isSystem then a.createdAt < b.createdAt ∨ (a.createdAt = b.createdAt ∧ a.id < b.id) else a.isSystem = true

theorem Conversation.Precedes.asymm {a b : Conversation} (h : a.Precedes b) : ¬ b.Precedes a := by
  unfold Conversation.Precedes at *
  omega

theorem Message.Precedes.asymm {a b : Message} (h : a.Precedes b) : ¬ b.Precedes a := by
  unfold Message.Precedes at *
  cases ha : a.isSystem <;> cases hb : b.isSystem <;> simp_all <;> omega

/-- Rows in strict order are told by which rows they are. -/
theorem eq_of_perm_of_asymm {α : Type} {before : α → α → Prop} (hasymm : ∀ {a b}, before a b → ¬ before b a) {rows rows' : List α}
    (hperm : rows.Perm rows') (h : rows.Pairwise before) (h' : rows'.Pairwise before) : rows = rows' :=
  List.Perm.eq_of_pairwise (fun _ _ _ _ h1 h2 => absurd h2 (hasymm h1)) h h' hperm

namespace PagingAux

/-- Conversations are listed by their last message, the newer first, and by their ids. -/
theorem conversation_before_iff {a b : Conversation} :
    a.listedBefore b = true ↔ b.lastMessageAt < a.lastMessageAt ∨ (a.lastMessageAt = b.lastMessageAt ∧ b.id ≤ a.id) := by
  simp [Conversation.listedBefore]

theorem conversation_trans (a b c : Conversation) (h1 : a.listedBefore b = true) (h2 : b.listedBefore c = true) :
    a.listedBefore c = true := by
  rw [conversation_before_iff] at h1 h2 ⊢
  omega

theorem conversation_total (a b : Conversation) : (a.listedBefore b || b.listedBefore a) = true := by
  rw [Bool.or_eq_true, conversation_before_iff, conversation_before_iff]
  omega

end PagingAux

open PagingAux

namespace Tables

variable {s : Tables}

/-- A user's conversations are listed in strict order. -/
theorem sorted_conversationsOf (h : s.conversations.Pairwise fun a b => a.id ≠ b.id) (user : Int) :
    (s.conversationsOf user).Pairwise Conversation.Precedes := by
  refine List.Pairwise.imp ?_ (pairwise_mergeSort_of_keys conversation_trans conversation_total (h.sublist List.filter_sublist))
  intro a b hab
  have hbefore := conversation_before_iff.1 hab.1
  unfold Conversation.Precedes
  omega

/-- The messages of a conversation are listed in strict order. -/
theorem sorted_listing (h : DistinctIds s.messages) (conversation : Int) :
    (s.listing conversation).Pairwise Message.Precedes := by
  unfold listing
  rw [listedBefore_eq]
  refine List.Pairwise.imp ?_ (pairwise_mergeSort_of_keys (leading_trans before_trans) (leading_total before_total)
    (h.sublist List.filter_sublist))
  intro a b hab
  unfold Message.Precedes
  split
  · rename_i he
    have hbefore := before_iff.1 ((leading_of_eq he).symm.trans hab.1)
    omega
  · rename_i he
    have hfirst := hab.1
    unfold leading at hfirst
    rwa [if_neg (by simpa using he)] at hfirst

end Tables

/-! ## Pages -/

/-- Rows dealt to pages, so many to a page. -/
structure Dealt {α : Type} (rows : List α) (size : Nat) (page : Nat → List α) : Prop where
  /-- A page has room for a row. -/
  room : 0 < size
  /-- As many pages as have room for all the rows are, one after the other, the rows: each once and in order. -/
  whole : ∀ last, rows.length ≤ last * size → ((List.range last).flatMap fun i => page (i + 1)) = rows
  /-- A page that others follow is full. -/
  full : ∀ p, 0 < p → p * size < rows.length → (page p).length = size
  /-- A page past the end is empty, however far. -/
  past : ∀ p, rows.length ≤ (p - 1) * size → page p = []

namespace PagingAux

variable {α : Type} {rows : List α}

/-- Caps change nothing about a page of rows that a signed word counts. -/
theorem items_eq (hcount : rows.length ≤ maxI64.toNat) (p size : Nat) :
    (Page.of rows (Selection.offset ⟨p, size⟩) size).items = (rows.drop ((p - 1) * size)).take size := by
  have hcap : maxI64.toNat ≤ maxU64 := by decide
  show (rows.drop (min (min ((p - 1) * size) maxU64) maxI64.toNat)).take (min size maxI64.toNat) = _
  have hdrop : rows.drop (min (min ((p - 1) * size) maxU64) maxI64.toNat) = rows.drop ((p - 1) * size) := by
    by_cases h : (p - 1) * size ≤ maxI64.toNat
    · rw [Nat.min_eq_left (Nat.le_trans h hcap), Nat.min_eq_left h]
    · rw [List.drop_eq_nil_of_le (by omega), List.drop_eq_nil_of_le (by omega)]
  have hrest : (rows.drop ((p - 1) * size)).length ≤ maxI64.toNat := by
    rw [List.length_drop]
    omega
  rw [hdrop]
  by_cases h : size ≤ maxI64.toNat
  · rw [Nat.min_eq_left h]
  · rw [List.take_of_length_le (by omega), List.take_of_length_le (by omega)]

/-- The first pages, one after the other, are the first rows. -/
theorem flatMap_pages (rows : List α) (size last : Nat) :
    ((List.range last).flatMap fun i => (rows.drop (i * size)).take size) = rows.take (last * size) := by
  induction last with
  | zero => simp
  | succ last ih => rw [List.range_succ, List.flatMap_append, ih, Nat.succ_mul, List.take_add, List.flatMap_singleton]

end PagingAux

namespace Dealt

variable {α : Type} {rows : List α} {size p : Nat} {page : Nat → List α}

/-- The pages before a page that has rows are full. -/
theorem length_before (h : Dealt rows size page) {k : Nat} (hk : k * size < rows.length) :
    ((List.range k).flatMap fun i => page (i + 1)).length = k * size := by
  induction k with
  | zero => simp
  | succ k ih =>
    rw [Nat.succ_mul] at hk
    rw [List.range_succ, List.flatMap_append, List.length_append, ih (by omega), List.flatMap_singleton,
      h.full (k + 1) (Nat.succ_pos k) (by rwa [Nat.succ_mul]), Nat.succ_mul]

/-- Rows are dealt out in one way only. -/
theorem page_eq (h : Dealt rows size page) (hp : 0 < p) : page p = (rows.drop ((p - 1) * size)).take size := by
  obtain ⟨k, rfl⟩ := Nat.exists_eq_add_one.2 hp
  rw [Nat.add_sub_cancel]
  by_cases hk : k * size < rows.length
  · -- what comes after the page stands behind it in the whole
    have hrows := h.whole (k + 1 + rows.length) (Nat.le_trans (Nat.le_add_left _ _) (Nat.le_mul_of_pos_right _ h.room))
    rw [List.range_add, List.range_succ, List.flatMap_append, List.flatMap_append, List.flatMap_singleton, List.append_assoc,
      List.flatMap_map] at hrows
    have hdrop := congrArg (List.drop (k * size)) hrows
    rw [← h.length_before hk, List.drop_left, h.length_before hk] at hdrop
    rw [← hdrop]
    by_cases hlast : (k + 1) * size < rows.length
    · rw [List.take_left' (h.full (k + 1) hp hlast)]
    · have hafter : ((List.range rows.length).flatMap fun i => page (k + 1 + i + 1)) = [] := by
        refine List.flatMap_eq_nil_iff.2 fun i _ => h.past _ ?_
        rw [Nat.add_sub_cancel, Nat.add_mul]
        omega
      have hlength := congrArg List.length hdrop
      rw [hafter, List.append_nil, List.length_drop] at hlength
      rw [Nat.succ_mul] at hlast
      rw [hafter, List.append_nil, List.take_of_length_le (by omega)]
  · rw [h.past (k + 1) (by rw [Nat.add_sub_cancel]; omega), List.drop_eq_nil_of_le (by omega), List.take_nil]

end Dealt

/-- The pages of rows that a signed word counts are the rows dealt out. -/
theorem dealt_pages {α : Type} {rows : List α} {size : Nat} (hcount : rows.length ≤ maxI64.toNat) (hsize : 0 < size) :
    Dealt rows size fun p => (Page.of rows (Selection.offset ⟨p, size⟩) size).items where
  room := hsize
  whole last hlast := by
    simp only [items_eq hcount, Nat.add_sub_cancel]
    rw [flatMap_pages, List.take_of_length_le hlast]
  full p hp hrest := by
    have hbefore : p * size = (p - 1) * size + size := by
      conv => lhs; rw [← Nat.sub_add_cancel hp, Nat.succ_mul]
    rw [items_eq hcount, List.length_take, List.length_drop]
    omega
  past p hpast := by
    rw [items_eq hcount, List.drop_eq_nil_of_le hpast, List.take_nil]

end InferenceGate.Store
