import InferenceGate.Proofs.Http.Queries
import InferenceGate.Proofs.Store.Effects
import InferenceGate.Proofs.Store.Paging
import InferenceGate.Server.Listing

/-!
# The pages of a listing

A query that is accepted for one page of a listing is accepted for every other (`read_onPage`), and what the pages show is the listing
dealt out in turn (`Paged`).
-/

namespace InferenceGate

open Http Store
open Json (Value)

namespace Selection

variable {query : Bytes} {name : String} {usual most n : Nat} {s : Selection}

/-- The decimal text of a positive word is read as the word. -/
theorem word_toString (hpos : 0 < n) (hmax : n ≤ maxI64.toNat) :
    (Text.i64? (Text.trim (toString n))).filter (0 < ·) = some (n : Int) := by
  have hword : (n : Int) ≤ maxI64 := by
    have : (maxI64.toNat : Int) = maxI64 := by decide
    omega
  rw [Text.trim_toString, Text.i64?_toString hword, Option.filter_some, if_pos (by simpa using hpos)]

/-- A number that a query is taken to name is a positive word, or the usual one. -/
theorem of_positive (h : positive query name usual = .ok n) : n = usual ∨ (0 < n ∧ n ≤ maxI64.toNat) := by
  unfold positive at h
  split at h
  · exact .inl (Except.ok.inj h).symm
  · split at h
    · rename_i k hk
      obtain rfl := Except.ok.inj h
      obtain ⟨hword, hpos⟩ := Option.filter_eq_some_iff.1 hk
      unfold Text.i64? at hword
      have hrange := (Option.filter_eq_some_iff.1 hword).2
      simp only [inI64, Bool.and_eq_true, decide_eq_true_eq] at hrange hpos
      right
      omega
    · exact nomatch h

/-- What an accepted query selects is made of the two numbers it is taken to name. -/
theorem read_eq_ok (h : read query usual most = .ok s) :
    positive query "page" 1 = .ok s.page ∧
      ∃ size, positive query "page_size" (max usual 1) = .ok size ∧ s.size = min size (max most 1) := by
  unfold read at h
  split at h
  · exact nomatch h
  · rename_i page hpage
    cases hsize : positive query "page_size" (max usual 1) with
    | error e =>
      rw [hsize] at h
      exact nomatch h
    | ok size =>
      rw [hsize] at h
      obtain rfl := Except.ok.inj h
      exact ⟨hpage, size, rfl, rfl⟩

/-- An accepted query selects a page that a signed word counts, and a size from one to the greatest. -/
theorem bounds_of_read (h : read query usual most = .ok s) :
    0 < s.page ∧ s.page ≤ maxI64.toNat ∧ 0 < s.size ∧ s.size ≤ max most 1 := by
  obtain ⟨hpage, size, hsize, hs⟩ := read_eq_ok h
  have hword : 1 ≤ maxI64.toNat := by decide
  have := of_positive hpage
  have := of_positive hsize
  omega

/-- A query that asks for a page behind all else. -/
def onPage (query : Bytes) (page : Nat) : Bytes := withPair query "page" (toString page)

theorem plain_page : Plain "page" where
  ascii := by simp [Text.IsAscii]
  percent := by decide
  plus := by decide
  ampersand := by decide
  equals := by decide

/-- On a page the query names that page, and all else as before. -/
theorem formValue?_onPage (query : Bytes) (page : Nat) (name : String) :
    formValue? (onPage query page) name = if name = "page" then some (toString page) else formValue? query name :=
  formValue?_withPair plain_page (plain_toString page) query name

/-- A query that is accepted for one page is accepted, with the same size, for any page that a signed word counts. -/
theorem read_onPage (h : read query usual most = .ok s) {page : Nat} (hpos : 0 < page) (hmax : page ≤ maxI64.toNat) :
    read (onPage query page) usual most = .ok { s with page } := by
  obtain ⟨-, size, hsize, hs⟩ := read_eq_ok h
  have hpage : positive (onPage query page) "page" 1 = .ok page := by
    unfold positive
    rw [formValue?_onPage, if_pos rfl]
    dsimp only
    rw [word_toString hpos hmax]
    rfl
  have hsame : positive (onPage query page) "page_size" (max usual 1) = .ok size := by
    unfold positive at hsize ⊢
    rwa [formValue?_onPage, if_neg (by decide)]
  unfold read
  rw [hpage, hsame, hs]
  rfl

end Selection

namespace Listing

/-- A listing that is shown page by page, to every query that is accepted. -/
structure Paged {α : Type} (usual most : Nat) (answer : Bytes → Except ApiError Value) (shown : List α → List (String × Value))
    (rows : List α) : Prop where
  /-- However many rows go to a page, the pages are the rows dealt out, and each comes with its own number, the size of a page and the
  number of all rows. -/
  dealt : ∀ query s, Selection.read query usual most = .ok s → ∃ page : Nat → List α, Dealt rows s.size page ∧
    ∀ q p, Selection.read q usual most = .ok ⟨p, s.size⟩ →
      answer q = .ok (.object (shown (page p) ++
        [("page", .ofNat p), ("page_size", .ofNat s.size), ("total", .ofNat rows.length)]))
  /-- Where one page can be asked for, so can every other. -/
  asked : ∀ query s, Selection.read query usual most = .ok s → ∀ p, 0 < p → p ≤ maxI64.toNat →
    Selection.read (Selection.onPage query p) usual most = .ok ⟨p, s.size⟩

end Listing

namespace PagesAux

variable {w : World}

/-- A listing that answers every selection with the rows it selects is shown page by page. -/
theorem paged_of_answer {α : Type} {usual most : Nat} {answer : Bytes → Except ApiError Value}
    {shown : List α → List (String × Value)} {rows : List α} (hcount : rows.length ≤ maxI64.toNat)
    (h : ∀ q s, Selection.read q usual most = .ok s →
      answer q = .ok (.object (shown (Page.of rows s.offset s.size).items ++ s.members rows.length))) :
    Listing.Paged usual most answer shown rows where
  dealt _ _ hs := ⟨_, dealt_pages hcount (Selection.bounds_of_read hs).2.2.1, fun q p hq => h q ⟨p, _⟩ hq⟩
  asked _ _ hs _ hpos hmax := Selection.read_onPage hs hpos hmax

/-- A page of conversations is cut out of the listing of the user. -/
theorem conversations_eq (hw : w.reachable = true) {sizes : Config.Paging} (user : Int) {q : Bytes} {s : Selection}
    (hs : Selection.read q sizes.conversations sizes.maxConversations = .ok s) :
    Listing.conversations sizes w user q =
      .ok (.object ([("list", .array ((Page.of (w.tables.conversationsOf user) s.offset s.size).items.map Listing.conversation))] ++
        s.members (w.tables.conversationsOf user).length)) := by
  have hpage := w.ask_of_reachable hw (·.listConversations user s.offset s.size)
  unfold Listing.conversations
  rw [hs]
  show (Listing.answered (w.ask _) >>= _) = _
  rw [hpage]
  rfl

/-- A conversation that stands once in the table is found for its owner. -/
theorem findConversation_of_mem {t : Tables} (h : t.conversations.Pairwise fun a b => a.id ≠ b.id) {c : Conversation}
    (hc : c ∈ t.conversations) : t.findConversation c.id c.user = some c := by
  refine OrderAux.find?_of_keys h hc (by simp) fun d hd => ?_
  simp only [Bool.and_eq_true, beq_iff_eq] at hd
  exact hd.1

/-- A page of messages is cut out of the listing of its conversation. -/
theorem messages_eq (hw : w.reachable = true) (hids : w.tables.conversations.Pairwise fun a b => a.id ≠ b.id)
    {sizes : Config.Paging} {c : Conversation} (hc : c ∈ w.tables.conversations) {segment : String}
    (hsegment : Listing.idOf segment = .ok c.id) {q : Bytes} {s : Selection}
    (hs : Selection.read q sizes.messages sizes.maxMessages = .ok s) :
    Listing.messages sizes w c.user segment q =
      .ok (.object ([("conversation", Listing.conversation c),
          ("messages", .array ((Page.of (w.tables.listing c.id) s.offset s.size).items.map Listing.message))] ++
        s.members (w.tables.listing c.id).length)) := by
  have howned : Listing.owned w c.user c.id = .ok c := by
    unfold Listing.owned
    rw [w.ask_of_reachable hw, findConversation_of_mem hids hc]
    rfl
  unfold Listing.messages
  rw [hsegment, hs]
  show (Listing.owned w c.user c.id >>= _) = _
  rw [howned, w.ask_of_reachable hw]
  rfl

end PagesAux

open PagesAux

namespace Listing

/-- The decimal text of the id of a conversation names it. -/
theorem idOf_toString {id : Nat} (hpos : 0 < id) (hmax : id ≤ maxI64.toNat) : idOf (toString id) = .ok (id : Int) := by
  unfold idOf
  rw [Selection.word_toString hpos hmax]

/-- Whatever the sizes that are configured and that a query asks for, the pages of the conversations of a user are these conversations,
each once, the later last message first and of one time the greater id; and the pages of the messages of a conversation of his are
these messages, each once, those of the system first and then the earlier first, of one time the lesser id. A page that others follow
is full, one past the end is empty, and each comes with the number of all rows. The tables are those of any store that can be reached:
an id is a key, and a signed word counts the rows. -/
theorem pages_partition {w : World} (hw : w.reachable = true) (hids : w.tables.conversations.Pairwise fun a b => a.id ≠ b.id)
    (hd : DistinctIds w.tables.messages) (hconversations : w.tables.conversations.length ≤ maxI64.toNat)
    (hmessages : w.tables.messages.length ≤ maxI64.toNat) (sizes : Config.Paging) (user : Int) :
    (∃ rows : List Conversation, rows.Perm (w.tables.conversations.filter (·.user == user)) ∧ rows.Pairwise Conversation.Precedes ∧
      Paged sizes.conversations sizes.maxConversations (conversations sizes w user)
        (fun page => [("list", .array (page.map conversation))]) rows) ∧
    ∀ c ∈ w.tables.conversations, c.user = user →
      ∃ rows : List Message, rows.Perm (w.tables.messages.filter (·.conversation == c.id)) ∧ rows.Pairwise Message.Precedes ∧
        ∀ segment, idOf segment = .ok c.id →
          Paged sizes.messages sizes.maxMessages (messages sizes w user segment)
            (fun page => [("conversation", conversation c), ("messages", .array (page.map message))]) rows := by
  have hown : (w.tables.conversationsOf user).Perm (w.tables.conversations.filter (·.user == user)) := List.mergeSort_perm _ _
  refine ⟨⟨_, hown, Tables.sorted_conversationsOf hids user, paged_of_answer ?_ fun q s hs => conversations_eq hw user hs⟩, ?_⟩
  · rw [hown.length_eq]
    exact Nat.le_trans (List.length_filter_le _ _) hconversations
  · rintro c hc rfl
    have hof : (w.tables.listing c.id).Perm (w.tables.messages.filter (·.conversation == c.id)) := List.mergeSort_perm _ _
    refine ⟨_, hof, Tables.sorted_listing hd c.id, fun segment hsegment =>
      paged_of_answer ?_ fun q s hs => messages_eq hw hids hc hsegment hs⟩
    rw [hof.length_eq]
    exact Nat.le_trans (List.length_filter_le _ _) hmessages

/-- Two conversations of one time, one to a page, and three messages, two to a page, the system's the latest of them. -/
theorem pages_partition_of_one_time :
    let older : Conversation := ⟨100, 7, "a", "m", 0, "", 5, 5, 5⟩
    let newer : Conversation := ⟨101, 7, "b", "m", 3, "r", 5, 5, 5⟩
    let first : Message := ⟨3, 101, 7, "user", "q", none, "m", 5, 5⟩
    let second : Message := ⟨4, 101, 7, "assistant", "r", none, "m", 5, 5⟩
    let system : Message := ⟨9, 101, 7, "system", "s", none, "m", 6, 6⟩
    let w : World :=
      { tables := { conversations := [older, newer], messages := [first, second, system] }, ids := .ofNode 0, clock := 0 }
    let sizes : Config.Paging := { conversations := 1, messages := 2 }
    let numbered (page size total : Nat) : List (String × Value) :=
      [("page", .ofNat page), ("page_size", .ofNat size), ("total", .ofNat total)]
    w.reachable = true ∧ w.tables.conversations.Pairwise (fun a b => a.id ≠ b.id) ∧ DistinctIds w.tables.messages ∧
      w.tables.conversations.length ≤ maxI64.toNat ∧ w.tables.messages.length ≤ maxI64.toNat ∧
      conversations sizes w 7 (Selection.onPage [] 2) = .ok (.object (("list", .array [conversation older]) :: numbered 2 1 2)) ∧
      conversations sizes w 7 (Selection.onPage [] maxI64.toNat) = .ok (.object (("list", .array []) :: numbered maxI64.toNat 1 2)) ∧
      messages sizes w 7 (toString 101) (Selection.onPage [] 1) =
        .ok (.object (("conversation", conversation newer) :: ("messages", .array [message system, message first]) ::
          numbered 1 2 3)) := by
  intro older newer first second system w sizes numbered
  have hids : w.tables.conversations.Pairwise fun a b => a.id ≠ b.id := by decide
  have hd : DistinctIds w.tables.messages := by unfold DistinctIds; decide
  have hone : w.tables.conversations.length ≤ maxI64.toNat := by decide
  have htwo : w.tables.messages.length ≤ maxI64.toNat := by decide
  obtain ⟨⟨rows, hperm, hsorted, hpaged⟩, hof⟩ := pages_partition rfl hids hd hone htwo sizes 7
  obtain ⟨turns, hperm', hsorted', hpaged'⟩ := hof newer (by decide) rfl
  have hrows : rows = [newer, older] := by
    refine eq_of_perm_of_asymm Conversation.Precedes.asymm (hperm.trans (by decide)) hsorted ?_
    unfold Conversation.Precedes
    decide
  have hturns : turns = [system, first, second] := by
    refine eq_of_perm_of_asymm Message.Precedes.asymm (hperm'.trans (by decide)) hsorted' ?_
    unfold Message.Precedes
    decide
  subst hrows hturns
  have hsegment : idOf (toString 101) = .ok newer.id := idOf_toString (show 0 < 101 by decide) (show 101 ≤ maxI64.toNat by decide)
  have hpaged' := hpaged' (toString 101) hsegment
  obtain ⟨page, hdealt, hanswer⟩ := hpaged.dealt [] ⟨1, 1⟩ rfl
  obtain ⟨page', hdealt', hanswer'⟩ := hpaged'.dealt [] ⟨1, 2⟩ rfl
  have hasked := hpaged.asked [] ⟨1, 1⟩ rfl
  have hasked' := hpaged'.asked [] ⟨1, 2⟩ rfl
  refine ⟨rfl, hids, hd, hone, htwo, ?_, ?_, ?_⟩
  · rw [hanswer _ 2 (hasked 2 (by decide) (by decide)), hdealt.page_eq (by decide)]
    rfl
  · rw [hanswer _ _ (hasked _ (by decide) (Nat.le_refl _)), hdealt.past _ (by decide)]
    rfl
  · rw [hanswer' _ 1 (hasked' 1 (by decide) (by decide)), hdealt'.page_eq (by decide)]
    rfl

end Listing

end InferenceGate
