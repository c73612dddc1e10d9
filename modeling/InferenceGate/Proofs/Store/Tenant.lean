import InferenceGate.Proofs.Store.Effects
import InferenceGate.Store.Accounts

/-!
# One user's part of the tables

A conversation has one owner, and its messages are the owner's. `Tables.restrict` keeps the rows of one user and `Tables.without` the
rows of all others. In tidy tables each statement that a user makes on conversations of his own leaves the rows of the others as they
are, and it does to his part of the tables alone what it does to it among the others, as long as the ids it brings are not taken by
others.
-/

namespace InferenceGate.Store

open OrderAux

namespace Tables

/-- The owner of a conversation. -/
def owner? (s : Tables) (id : Int) : Option Int := (s.conversations.find? (·.id == id)).map (·.user)

/-- A message in a conversation of a user. -/
def isOf (s : Tables) (user : Int) (m : Message) : Bool := s.owner? m.conversation == some user

/-- The rows of a user. -/
def restrict (s : Tables) (user : Int) : Tables where
  conversations := s.conversations.filter (·.user == user)
  messages := s.messages.filter (s.isOf user)
  usage := s.usage.filter (·.user == user)
  chats := s.chats

/-- The rows of all others. -/
def without (s : Tables) (user : Int) : Tables where
  conversations := s.conversations.filter (·.user != user)
  messages := s.messages.filter fun m => !s.isOf user m
  usage := s.usage.filter (·.user != user)
  chats := s.chats

/-- Tables in which ids are not used twice and every message is the owner's of its conversation. -/
structure Tidy (s : Tables) : Prop where
  conversations : s.conversations.Pairwise fun a b => a.id ≠ b.id
  messages : DistinctIds s.messages
  owned : ∀ m ∈ s.messages, s.owner? m.conversation = some m.user

variable {s s' : Tables} {user : Int}

/-! ## Owners -/

/-- A conversation with an owner stands in the table. -/
theorem exists_of_owner? {id v : Int} (h : s.owner? id = some v) : ∃ c ∈ s.conversations, c.id = id ∧ c.user = v := by
  unfold owner? at h
  obtain ⟨c, hc, rfl⟩ := Option.map_eq_some_iff.1 h
  exact ⟨c, List.mem_of_find?_eq_some hc, by simpa using List.find?_some hc, rfl⟩

/-- A conversation that stands in the table once is its owner's. -/
theorem owner?_of_mem (h : s.conversations.Pairwise fun a b => a.id ≠ b.id) {c : Conversation} (hc : c ∈ s.conversations) :
    s.owner? c.id = some c.user := by
  have hfind : s.conversations.find? (·.id == c.id) = some c :=
    OrderAux.find?_of_keys h hc (beq_self_eq_true c.id) fun d hd => eq_of_beq hd
  unfold owner?
  rw [hfind, Option.map_some]

/-- Owners are read off ids and users alone. -/
theorem owner?_congr (h : s'.conversations.map (fun c => (c.id, c.user)) = s.conversations.map fun c => (c.id, c.user))
    (id : Int) : s'.owner? id = s.owner? id := by
  have hmap : ∀ t : Tables, t.owner? id = ((t.conversations.map fun c => (c.id, c.user)).find? (·.1 == id)).map (·.2) := by
    intro t
    unfold owner?
    rw [List.find?_map, Option.map_map]
    rfl
  rw [hmap, hmap, h]

/-- A new conversation does not change the owners there are. -/
theorem owner?_append {id v : Int} (h : s.owner? id = some v) (c : Conversation) :
    { s with conversations := s.conversations ++ [c] : Tables }.owner? id = some v := by
  unfold owner? at h ⊢
  obtain ⟨d, hd, rfl⟩ := Option.map_eq_some_iff.1 h
  rw [List.find?_append, hd]
  rfl

/-! ## Questions of the owner -/

/-- The messages of a user's conversation are all in his part. -/
theorem messagesOf_restrict {c : Int} (h : s.owner? c = some user) : (s.restrict user).messagesOf c = s.messagesOf c := by
  unfold messagesOf restrict
  rw [List.filter_filter]
  refine List.filter_congr fun m _ => ?_
  by_cases hm : m.conversation = c
  · simp [isOf, hm, h]
  · simp [hm]

/-- The system messages of a user's own conversation are left to the user. -/
theorem systemOf_restrict {c : Int} (h : s.owner? c = some user) : (s.restrict user).systemOf c = s.systemOf c := by
  unfold systemOf
  rw [messagesOf_restrict h]

/-- The turns of a user's own conversation are left to the user. -/
theorem turnsOf_restrict {c : Int} (h : s.owner? c = some user) : (s.restrict user).turnsOf c = s.turnsOf c := by
  unfold turnsOf
  rw [messagesOf_restrict h]

/-- The latest system message of a user's own conversation is left to the user. -/
theorem latestSystem_restrict {c : Int} (h : s.owner? c = some user) : (s.restrict user).latestSystem c = s.latestSystem c := by
  unfold latestSystem
  rw [systemOf_restrict h]

/-- The recent turns of a user's own conversation are left to the user. -/
theorem recentTurns_restrict {c : Int} (h : s.owner? c = some user) (n : Nat) :
    (s.restrict user).recentTurns c n = s.recentTurns c n := by
  unfold recentTurns
  rw [turnsOf_restrict h]

/-- The figures of a user's own conversation come out the same of what is left to the user. -/
theorem refreshed_restrict {c : Conversation} (h : s.owner? c.id = some user) (model : Option String) (time : Int) :
    (s.restrict user).refreshed model time c = s.refreshed model time c := by
  unfold refreshed representative?
  rw [messagesOf_restrict h]

/-- A conversation found for a user is found in what is left to the user. -/
theorem findConversation_restrict (s : Tables) (id user : Int) :
    (s.restrict user).findConversation id user = s.findConversation id user := by
  unfold findConversation restrict
  rw [List.find?_filter]
  congr 1
  funext c
  by_cases hc : c.id = id <;> cases c.user == user <;> simp [hc]

/-- A conversation that is found for a user is his. -/
theorem owner?_of_find (h : s.Tidy) {id : Int} {c : Conversation} (hf : s.findConversation id user = some c) :
    s.owner? id = some user := by
  have hc := List.find?_some hf
  simp only [Bool.and_eq_true, beq_iff_eq] at hc
  rw [← hc.1, ← hc.2]
  exact owner?_of_mem h.conversations (List.mem_of_find?_eq_some hf)

/-! ## What the owner's statements leave as it is -/

/-- Tables changed by a user: they stay tidy, the rows of the others are the same, and no conversation changes hands. -/
structure Touches (user : Int) (s s' : Tables) : Prop where
  tidy : s'.Tidy
  others : s'.without user = s.without user
  owners : ∀ id v, s.owner? id = some v → s'.owner? id = some v

theorem Touches.refl (h : s.Tidy) : Touches user s s := ⟨h, rfl, fun _ _ ho => ho⟩

theorem Touches.trans {s'' : Tables} (h : Touches user s s') (h' : Touches user s' s'') : Touches user s s'' :=
  ⟨h'.tidy, h'.others.trans h.others, fun id v ho => h'.owners id v (h.owners id v ho)⟩

/-- Rows added to a user's conversation are no rows of the others. -/
theorem filter_isOf_append {rows : List Message} (h : ∀ m ∈ rows, s.owner? m.conversation = some user) :
    (s.messages ++ rows).filter (fun m => !s.isOf user m) = s.messages.filter fun m => !s.isOf user m := by
  have hnone : rows.filter (fun m => !s.isOf user m) = [] := by
    rw [List.filter_eq_nil_iff]
    intro m hm
    simp [isOf, h m hm]
  rw [List.filter_append, hnone, List.append_nil]

/-- A conversation created for a user touches what is the user's alone, and is the user's. -/
theorem touches_create (h : s.Tidy) {c : NewConversation} {row : Conversation} (hu : c.user = user)
    (hc : s.createConversation c = .ok (row, s')) : Touches user s s' ∧ s'.owner? row.id = some user := by
  rw [createConversation_eq] at hc
  split at hc
  · nomatch hc
  · rename_i hn
    obtain ⟨rfl, rfl⟩ := Prod.mk.inj (Except.ok.inj hc)
    have hd : (s.conversations ++ [c.row]).Pairwise fun a b => a.id ≠ b.id := by
      refine List.pairwise_append.2 ⟨h.conversations, List.pairwise_singleton _ _, ?_⟩
      intro a ha b hb he
      rw [List.mem_singleton.1 hb] at he
      exact hn ⟨a, ha, he⟩
    have hisOf : ∀ m ∈ s.messages, isOf { s with conversations := s.conversations ++ [c.row] } user m = s.isOf user m := by
      intro m hm
      unfold isOf
      rw [owner?_append (h.owned m hm), h.owned m hm]
    refine ⟨⟨⟨hd, h.messages, fun m hm => owner?_append (h.owned m hm) c.row⟩, ?_, fun id v ho => owner?_append ho c.row⟩, ?_⟩
    · unfold without
      have hrow : [c.row].filter (fun c => c.user != user) = [] := by simp [NewConversation.row, hu]
      simp only [List.filter_append, hrow, List.append_nil]
      congr 1
      exact List.filter_congr fun m hm => by rw [hisOf m hm]
    · rw [← hu]
      exact owner?_of_mem hd (List.mem_append_right _ (List.mem_singleton_self _))

/-- Messages inserted into a user's conversations touch what is the user's alone. -/
theorem touches_insert (h : s.Tidy) {ms : List NewMessage} (hu : ∀ m ∈ ms, m.user = user ∧ s.owner? m.conversation = some user)
    (hi : s.insertMessages ms = .ok s') : Touches user s s' := by
  obtain ⟨ha, rfl⟩ := insertMessages_ok hi
  have hrows : ∀ m ∈ ms.map NewMessage.row, m.user = user ∧ s.owner? m.conversation = some user := by
    intro m hm
    obtain ⟨n, hn, rfl⟩ := List.mem_map.1 hm
    exact hu n hn
  refine ⟨⟨h.conversations, distinct_insert h.messages ha, ?_⟩, ?_, fun _ _ ho => ho⟩
  · intro m hm
    rcases List.mem_append.1 hm with hm | hm
    · exact h.owned m hm
    · obtain ⟨h1, h2⟩ := hrows m hm
      rw [h1]
      exact h2
  · unfold without
    congr 1
    exact filter_isOf_append fun m hm => (hrows m hm).2

/-- Writing over a user's system message leaves the messages of the others. -/
theorem filter_isOf_rewritten (h : s.Tidy) {m : NewMessage} {kept : Message} (ho : s.owner? m.conversation = some user)
    (hk : kept ∈ s.systemOf m.conversation) :
    ((s.messages.filter (stays kept m)).map (rewritten kept m)).filter (fun r => !s.isOf user r) =
      s.messages.filter fun r => !s.isOf user r := by
  refine filter_rewritten_of_not h.messages hk (fun r => by simp [isOf, rewritten_conversation]) fun r hr => ?_
  simp [isOf, (mem_systemOf.1 hr).2.2, ho]

/-- A system message written in a user's conversation touches what is the user's alone. -/
theorem touches_upsert (h : s.Tidy) {m : NewMessage} {id : Int} (hu : m.user = user) (ho : s.owner? m.conversation = some user)
    (hi : s.upsertSystem m = .ok (id, s')) : Touches user s s' := by
  rcases upsertSystem_rows hi with ⟨hfresh, rfl⟩ | ⟨kept, hk, rfl⟩
  · have hone : ∀ n ∈ [m], n.user = user ∧ s.owner? n.conversation = some user := by
      intro n hn
      rw [List.mem_singleton.1 hn]
      exact ⟨hu, ho⟩
    refine touches_insert h hone (insertMessages_of_admits ⟨?_, List.pairwise_singleton _ _⟩)
    intro n hn r hr
    rw [List.mem_singleton.1 hn]
    exact hfresh r hr
  · refine ⟨⟨h.conversations, distinct_rewritten h.messages, ?_⟩, ?_, fun _ _ ho => ho⟩
    · intro r' hr'
      obtain ⟨r, hrs, rfl⟩ := List.mem_map.1 hr'
      have hr := (List.mem_filter.1 hrs).1
      show s.owner? (rewritten kept m r).conversation = some (rewritten kept m r).user
      rw [rewritten_conversation]
      unfold rewritten
      split
      · rename_i he
        obtain ⟨hmem, -, hconv⟩ := mem_systemOf.1 hk
        rw [eq_of_id_eq h.messages hr hmem (by simpa using he), hconv, ho]
        exact congrArg some hu.symm
      · exact h.owned r hr
    · unfold without
      congr 1
      exact filter_isOf_rewritten h ho hk

/-- Bringing figures up to date changes no owner. -/
theorem owner?_refresh (s : Tables) (id time : Int) (model : Option String) (c : Int) :
    owner? { s with conversations := s.conversations.map (s.afterRefresh id model time) } c = s.owner? c := by
  refine owner?_congr ?_ c
  rw [List.map_map]
  refine List.map_congr_left fun c _ => ?_
  simp only [Function.comp, afterRefresh_id, afterRefresh_user]

/-- A refresh of a user's conversation touches what is the user's alone. -/
theorem touches_refresh (h : s.Tidy) {id time : Int} {model : Option String} (ho : s.owner? id = some user)
    (hr : s.refresh id model time = .ok s') : Touches user s s' := by
  obtain ⟨-, rfl⟩ := refresh_ok hr
  have howner := owner?_refresh s id time model
  refine ⟨⟨?_, h.messages, fun m hm => (howner _).trans (h.owned m hm)⟩, ?_, fun c v hv => (howner c).trans hv⟩
  · refine List.pairwise_map.2 (List.Pairwise.imp (fun {a b} hab => ?_) h.conversations)
    rw [afterRefresh_id, afterRefresh_id]
    exact hab
  · unfold without
    congr 1
    · have hother : (fun c => c.user != user) ∘ s.afterRefresh id model time = fun c => c.user != user := by
        funext c
        simp only [Function.comp, afterRefresh_user]
      rw [List.filter_map, hother, List.map_congr_left, List.map_id']
      intro c hc
      obtain ⟨hmem, hne⟩ := List.mem_filter.1 hc
      have hidne : c.id ≠ id := by
        intro he
        have hc' := owner?_of_mem h.conversations hmem
        rw [he, ho] at hc'
        simp [Option.some.inj hc'] at hne
      simp [afterRefresh, hidne]
    · refine List.filter_congr fun m _ => ?_
      unfold isOf
      rw [howner]

/-! ## The same in the owner's part alone -/

/-- All ids of the others are below a floor. -/
structure Foreign (s : Tables) (user floor : Int) : Prop where
  conversations : ∀ c ∈ s.conversations, c.user ≠ user → c.id < floor
  messages : ∀ m ∈ s.messages, s.isOf user m = false → m.id < floor

variable {floor : Int}

/-- A conversation with an id that the others do not have is created or refused in the owner's part as among all. -/
theorem createConversation_restrict (h : s.Tidy) (hf : s.Foreign user floor) {c : NewConversation} (hu : c.user = user)
    (hid : floor ≤ c.id) :
    (s.restrict user).createConversation c = (s.createConversation c).map fun r => (r.1, r.2.restrict user) := by
  have hiff : (∃ r ∈ (s.restrict user).conversations, r.id = c.id) ↔ ∃ r ∈ s.conversations, r.id = c.id := by
    constructor
    · rintro ⟨r, hr, he⟩
      exact ⟨r, (List.mem_filter.1 hr).1, he⟩
    · rintro ⟨r, hr, he⟩
      refine ⟨r, List.mem_filter.2 ⟨hr, ?_⟩, he⟩
      by_cases hru : r.user = user
      · simpa using hru
      · have := hf.conversations r hr hru
        omega
  rw [createConversation_eq, createConversation_eq]
  by_cases hd : ∃ r ∈ s.conversations, r.id = c.id
  · rw [if_pos hd, if_pos (hiff.2 hd)]
    rfl
  · rw [if_neg hd, if_neg (mt hiff.1 hd)]
    unfold restrict
    have hrow : [c.row].filter (fun c => c.user == user) = [c.row] := by simp [NewConversation.row, hu]
    simp only [Except.map, List.filter_append, hrow]
    congr 3
    refine List.filter_congr fun m hm => ?_
    unfold isOf
    rw [owner?_append (h.owned m hm), h.owned m hm]

/-- Messages with ids that the others do not have are inserted or refused in the owner's part as among all. -/
theorem insertMessages_restrict (hf : s.Foreign user floor) {ms : List NewMessage}
    (ho : ∀ m ∈ ms, s.owner? m.conversation = some user) (hid : ∀ m ∈ ms, floor ≤ m.id) :
    (s.restrict user).insertMessages ms = (s.insertMessages ms).map (·.restrict user) := by
  have hiff : (s.restrict user).Admits ms ↔ s.Admits ms := by
    constructor
    · intro ha
      refine ⟨fun m hm r hr he => ?_, ha.distinct⟩
      cases hown : s.isOf user r with
      | true => exact ha.fresh m hm r (List.mem_filter.2 ⟨hr, hown⟩) he
      | false =>
        have h1 := hf.messages r hr hown
        have h2 := hid m hm
        omega
    · exact fun ha => ⟨fun m hm r hr => ha.fresh m hm r (List.mem_filter.1 hr).1, ha.distinct⟩
  by_cases ha : s.Admits ms
  · rw [insertMessages_of_admits ha, insertMessages_of_admits (hiff.2 ha)]
    unfold restrict
    have hrows : (ms.map NewMessage.row).filter (s.isOf user) = ms.map NewMessage.row := by
      refine List.filter_eq_self.2 fun r hr => ?_
      obtain ⟨m, hm, rfl⟩ := List.mem_map.1 hr
      have hm' : s.owner? m.row.conversation = some user := ho m hm
      simp [isOf, hm']
    simp only [Except.map]
    congr 2
    show s.messages.filter (s.isOf user) ++ ms.map NewMessage.row = (s.messages ++ ms.map NewMessage.row).filter (s.isOf user)
    rw [List.filter_append, hrows]
  · rw [insertMessages_of_not_admits ha, insertMessages_of_not_admits (mt hiff.1 ha)]
    rfl

/-- A single message is inserted as a list of one. -/
theorem insertMessage_eq_insertMessages (s : Tables) (m : NewMessage) : s.insertMessage m = s.insertMessages [m] := by
  unfold insertMessages
  cases s.insertMessage m <;> rfl

/-- The system message of a user's conversation is written in the owner's part as among all. -/
theorem upsertSystem_restrict (hf : s.Foreign user floor) {m : NewMessage} (ho : s.owner? m.conversation = some user)
    (hid : floor ≤ m.id) :
    (s.restrict user).upsertSystem m = (s.upsertSystem m).map fun r => (r.1, r.2.restrict user) := by
  rw [upsertSystem_eq, upsertSystem_eq, latestSystem_restrict ho]
  cases s.latestSystem m.conversation with
  | none =>
    have hone : (s.restrict user).insertMessages [m] = (s.insertMessages [m]).map (·.restrict user) :=
      insertMessages_restrict hf (by simpa using ho) (by simpa using hid)
    rw [← insertMessage_eq_insertMessages, ← insertMessage_eq_insertMessages] at hone
    simp only [hone]
    cases s.insertMessage m <;> rfl
  | some kept =>
    simp only [Except.map]
    congr 2
    unfold restrict
    congr 1
    show ((s.messages.filter (s.isOf user)).filter (stays kept m)).map (rewritten kept m) =
      ((s.messages.filter (stays kept m)).map (rewritten kept m)).filter (s.isOf user)
    rw [filter_rewritten (fun r => by simp [isOf, rewritten_conversation]), List.filter_filter]
    congr 1
    refine List.filter_congr fun r _ => ?_
    rw [Bool.and_comm]

/-- The figures of a user's conversation are brought up to date in the owner's part as among all. -/
theorem refresh_restrict {id time : Int} {model : Option String} (ho : s.owner? id = some user) :
    (s.restrict user).refresh id model time = (s.refresh id model time).map (·.restrict user) := by
  obtain ⟨c, hc, rfl, hu⟩ := exists_of_owner? ho
  have hex' : ∃ d ∈ (s.restrict user).conversations, d.id = c.id := ⟨c, List.mem_filter.2 ⟨hc, by simpa using hu⟩, rfl⟩
  rw [refresh_eq, refresh_eq, if_pos hex', if_pos ⟨c, hc, rfl⟩]
  have hrows : (s.restrict user).conversations.map ((s.restrict user).afterRefresh c.id model time) =
      (s.conversations.map (s.afterRefresh c.id model time)).filter (·.user == user) := by
    have hown : (fun d => d.user == user) ∘ s.afterRefresh c.id model time = fun d => d.user == user := by
      funext d
      simp only [Function.comp, afterRefresh_user]
    rw [List.filter_map, hown]
    refine List.map_congr_left fun d _ => ?_
    unfold afterRefresh
    by_cases hd : d.id = c.id
    · rw [if_pos (by simpa using hd), if_pos (by simpa using hd), refreshed_restrict (hd ▸ ho)]
    · rw [if_neg (by simpa using hd), if_neg (by simpa using hd)]
  have hmessages : (s.restrict user).messages = s.messages.filter
      (isOf { s with conversations := s.conversations.map (s.afterRefresh c.id model time) } user) := by
    refine List.filter_congr fun m _ => ?_
    unfold isOf
    rw [owner?_refresh]
  simp only [Except.map]
  congr 1
  rw [hrows, hmessages]
  rfl

end Tables

end InferenceGate.Store
