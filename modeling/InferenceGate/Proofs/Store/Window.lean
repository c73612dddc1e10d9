import InferenceGate.Proofs.Store.Figures

/-!
# The window of the history

The listing of a conversation, its recent turns and the message that stands for it are read off the same rows in three different
orders. On rows of different ids they agree: the listing is the system messages and then the turns, the oldest first
(`listing_eq`), the recent turns are the last of it, and the very last of it stands for the conversation (`representative?_eq`).
-/

namespace InferenceGate.Store

open OrderAux

namespace Tables

variable {s : Tables}

/-- The turns of a conversation as they are listed: its listing without the messages of the system. -/
def listedTurns (s : Tables) (conversation : Int) : List Message := (s.listing conversation).filter fun m => !m.isSystem

/-- Of the messages of a conversation no two come before each other. -/
theorem eq_of_before_before (hd : DistinctIds s.messages) {c : Int} (a b : Message) (ha : a ∈ s.messagesOf c)
    (hb : b ∈ s.messagesOf c) (h1 : a.before b = true) (h2 : b.before a = true) : a = b :=
  eq_of_id_eq hd (List.mem_filter.1 ha).1 (List.mem_filter.1 hb).1 (id_eq_of_before h1 h2)

/-- A listing is the system messages and then the turns, each with the oldest first. -/
theorem listing_eq (hd : DistinctIds s.messages) (c : Int) :
    s.listing c = (s.systemOf c).mergeSort Message.before ++ (s.turnsOf c).mergeSort Message.before := by
  unfold listing
  rw [listedBefore_eq]
  exact mergeSort_leading before_trans before_total (eq_of_before_before hd)

/-- The turns are listed with the oldest first. -/
theorem listedTurns_eq (hd : DistinctIds s.messages) (c : Int) : s.listedTurns c = (s.turnsOf c).mergeSort Message.before := by
  have hsystem : ((s.systemOf c).mergeSort Message.before).filter (fun m => !m.isSystem) = [] := by
    rw [List.filter_eq_nil_iff]
    intro m hm
    simp [(mem_systemOf.1 (List.mem_mergeSort.1 hm)).2.1]
  have hturns : ((s.turnsOf c).mergeSort Message.before).filter (fun m => !m.isSystem) = (s.turnsOf c).mergeSort Message.before := by
    rw [List.filter_eq_self]
    intro m hm
    exact (List.mem_filter.1 (List.mem_mergeSort.1 hm)).2
  unfold listedTurns
  rw [listing_eq hd, List.filter_append, hsystem, hturns, List.nil_append]

/-- The turns of a table of different ids have different ids. -/
theorem distinct_turnsOf (hd : DistinctIds s.messages) (c : Int) : DistinctIds (s.turnsOf c) :=
  List.Pairwise.sublist (List.filter_sublist.trans List.filter_sublist) hd

/-- The newest first, the turns are the listed ones backwards. -/
theorem mergeSort_turnsOf (hd : DistinctIds s.messages) (c : Int) :
    (s.turnsOf c).mergeSort Message.newerFirst = (s.listedTurns c).reverse := by
  rw [mergeSort_newerFirst (distinct_turnsOf hd c), listedTurns_eq hd]

/-- The recent turns are the last of the listed ones. -/
theorem recentTurns_eq_listed (hd : DistinctIds s.messages) (c : Int) (n : Nat) :
    s.recentTurns c n = (s.listedTurns c).drop ((s.listedTurns c).length - n) := by
  unfold recentTurns
  rw [mergeSort_turnsOf hd, List.take_reverse, List.reverse_reverse]

/-- The last of the listed turns stands for a conversation, or its system message where there is no turn. -/
theorem representative?_eq (hd : DistinctIds s.messages) (c : Int) :
    s.representative? c = (s.listedTurns c).getLast?.or (s.latestSystem c) := by
  have hsystem : (s.messagesOf c).filter (fun m => !!m.isSystem) = s.systemOf c := by
    simp only [Bool.not_not]
    rfl
  have hanti : ∀ a b, a ∈ s.messagesOf c → b ∈ s.messagesOf c → a.newerFirst b = true → b.newerFirst a = true → a = b :=
    fun a b ha hb h1 h2 => eq_of_before_before hd a b ha hb h2 h1
  unfold representative?
  rw [shownBefore_eq, mergeSort_leading newerFirst_trans newerFirst_total hanti, hsystem, List.head?_append]
  show ((s.turnsOf c).mergeSort Message.newerFirst).head?.or _ = _
  rw [mergeSort_turnsOf hd, List.head?_reverse]
  rfl

end Tables

/-- A row of a conversation shows a message: the beginning of its text, and its time. Where there is no message it shows what it
showed before. -/
def Shows (conversations : List Conversation) (shown : Option Message) (row : Conversation) : Prop :=
  match shown with
  | some m => row.preview = Text.firstChars previewLength (Text.trim m.content) ∧ row.lastMessageAt = m.createdAt
  | none => ∃ before ∈ conversations, before.id = row.id ∧ row.preview = before.preview ∧ row.lastMessageAt = before.lastMessageAt

namespace WindowAux

variable {w : World}

/-- A store that can be reached answers with the recent turns, also where none are asked for. -/
theorem recentTurns_of_reachable (hw : w.reachable = true) (c : Int) (n : Nat) :
    w.recentTurns c n = .ok (w.tables.recentTurns c n) := by
  unfold World.recentTurns
  rw [w.ask_of_reachable hw]
  split
  · rename_i hn
    rw [eq_of_beq hn]
    rfl
  · rfl

/-- Figures brought up to date show the message that stands for the conversation; where there is none they show what they did. -/
theorem shows_refreshed {t t' : Tables} {c : Int} {model : Option String} {now : Int} (h : t.refresh c model now = .ok t')
    {row : Conversation} (hrow : row ∈ t'.conversations) (hc : row.id = c) :
    Shows t.conversations (t.representative? c) row := by
  obtain ⟨-, rfl⟩ := Tables.refresh_ok h
  obtain ⟨before, hbefore, rfl⟩ := List.mem_map.1 hrow
  have hid : before.id = c := by rw [← hc, Tables.afterRefresh_id]
  have hrefreshed : t.afterRefresh c model now before = t.refreshed model now before := by
    unfold Tables.afterRefresh
    rw [if_pos (by simpa using hid)]
  rw [hrefreshed]
  unfold Shows Tables.refreshed
  rw [hid]
  cases t.representative? c with
  | some m => exact ⟨rfl, rfl⟩
  | none => exact ⟨before, hbefore, hid, rfl, rfl⟩

end WindowAux

open WindowAux

/-- Whatever the rows of a store with different ids, the history of a conversation is the end of its listing without the messages of
the system, in the same order: the last `n` of them, or all where there are fewer. The limit may be capped to a signed word on the
way, as long as a signed word counts the turns. And bringing the figures of a conversation up to date shows the last of the listed
turns, or the system message that is found where there is no turn. -/
theorem window_agrees_with_listing {w : World} (hw : w.reachable = true) (hd : DistinctIds w.tables.messages) (c : Int) :
    let turns := w.tables.listedTurns c
    (∀ n, w.recentTurns c n = .ok (turns.drop (turns.length - min n turns.length))) ∧
    (turns.length ≤ maxI64.toNat → ∀ n, w.recentTurns c (min n maxI64.toNat) = w.recentTurns c n) ∧
    ((∃ row ∈ w.tables.conversations, row.id = c) → ∀ model now,
      ∃ t, w.update (·.refresh c model now) = (.ok (), { w with tables := t }) ∧ ∀ row ∈ t.conversations, row.id = c →
        Shows w.tables.conversations (turns.getLast?.or (w.tables.latestSystem c)) row) := by
  intro turns
  have hrecent : ∀ n, w.recentTurns c n = .ok (turns.drop (turns.length - n)) := by
    intro n
    rw [recentTurns_of_reachable hw, Tables.recentTurns_eq_listed hd]
  refine ⟨fun n => ?_, fun hcount n => ?_, fun hc model now => ?_⟩
  · rw [hrecent]
    congr 2
    omega
  · rw [hrecent, hrecent]
    congr 2
    omega
  · have hok : w.tables.refresh c model now =
        .ok { w.tables with conversations := w.tables.conversations.map (w.tables.afterRefresh c model now) } := by
      rw [Tables.refresh_eq, if_pos hc]
    refine ⟨_, World.update_of_ok hw hok, fun row hrow hid => ?_⟩
    rw [← Tables.representative?_eq hd]
    exact shows_refreshed hok hrow hid

/-- Turns of one time are told apart by their ids, whatever the ids of earlier ones, and a later system message is no turn. -/
theorem window_agrees_with_listing_one_time :
    let first : Message := ⟨7, 100, 7, "user", "a", none, "", 999, 999⟩
    let second : Message := ⟨5, 100, 7, "assistant", "b", none, "", 1000, 1000⟩
    let third : Message := ⟨9, 100, 7, "user", " c ", none, "", 1000, 1000⟩
    let system : Message := ⟨20, 100, 7, "system", "s", none, "", 5000, 5000⟩
    let row : Conversation := ⟨100, 7, "", "", 0, "", 0, 0, 0⟩
    let w : World := { tables := { conversations := [row], messages := [system, first, second, third] }, ids := .ofNode 0, clock := 0 }
    w.reachable = true ∧ DistinctIds w.tables.messages ∧ w.recentTurns 100 2 = .ok [second, third] ∧
      ∃ t, w.update (·.refresh 100 none 6000) = (.ok (), { w with tables := t }) ∧
        ∀ row ∈ t.conversations, row.id = 100 → row.preview = "c" ∧ row.lastMessageAt = 1000 := by
  intro first second third system row w
  have hd : DistinctIds w.tables.messages := by
    unfold DistinctIds
    decide
  have hturns : w.tables.listedTurns 100 = [first, second, third] := by
    rw [Tables.listedTurns_eq hd, show w.tables.turnsOf 100 = [first, second, third] from by decide]
    exact List.mergeSort_of_pairwise (by decide)
  obtain ⟨hwindow, -, hfigures⟩ := window_agrees_with_listing (w := w) rfl hd 100
  rw [hturns] at hwindow hfigures
  obtain ⟨t, ht, hshows⟩ := hfigures ⟨row, by decide, rfl⟩ none 6000
  refine ⟨rfl, hd, hwindow 2, t, ht, fun row hrow hid => ?_⟩
  have hthird : Shows w.tables.conversations (some third) row := hshows row hrow hid
  exact ⟨hthird.1.trans (by decide), hthird.2⟩

end InferenceGate.Store
