import InferenceGate.Messaging.Fanout
import InferenceGate.Proofs.Ids.Order
import InferenceGate.Proofs.Messaging.Payloads
import InferenceGate.Proofs.Messaging.Subscriptions
import InferenceGate.Proofs.Store.Steps
import Mathlib.Data.List.Forall2
import Std.Data.String.ToInt

/-!
# Messages and their record

What is handed out, what is returned and what is stored agree, over all that is dispatched to a switchboard that stores messages, by
whomever and in whatever order, on a clock that never runs back (`fanout_agrees_with_record`). A frame that is no proper message does
nothing. The rows between two users are their messages in the order in which these were returned: the times of rows may be equal, and
then the ids, which only go up, tell them apart.
-/

namespace InferenceGate.Messaging

/-- The message of a frame that is handed out: it can be read and is proper. -/
def frame? (raw : Bytes) : Option Inbound := ((Json.read? raw).bind Inbound.read?).filter Inbound.isProper

/-- A row of the store that records a message. -/
structure Records (row : Store.Chat) (m : Outbound) : Prop where
  id : m.id = some row.id
  sender : m.sender = row.sender
  recipient : m.recipient = row.recipient
  type : m.type = row.type
  media : m.media = row.media
  content : m.content = row.content

/-- The message is one of two users to the other. -/
def Outbound.isBetween (a b : Int) (m : Outbound) : Bool := (m.sender == a && m.recipient == b) || (m.sender == b && m.recipient == a)

/-- What is published of a message: its payload to each of its readers. -/
def Switchboard.publishing (b : Switchboard) (m : Outbound) : List Request :=
  (Switchboard.readers m).map fun user => .publish (b.channel user) m.payload

/-- A message that came in was handed out: it is the answer, with an id and under its sender; one row records it and nothing else is
written; its payload is published and reads as it does. -/
structure HandedOut (before : Switchboard) (sender : Int) (m : Inbound) (sent : Dispatched) (out : Outbound) : Prop where
  answer : sent.answer = .ok out
  sender : out.sender = sender
  recipient : out.recipient = m.recipient
  type : out.type = m.type.filter (· != 0)
  media : out.media = m.media.filter (· != 0)
  content : out.content = m.content
  stored : ∃ row, Records row out ∧
    sent.board.world.tables = { before.world.tables with chats := before.world.tables.chats ++ [row] }
  published : ∀ broker, before.exchange = .serving broker →
    sent.board.exchange = .serving ((before.publishing out).foldl Broker.take broker)
  legible : (Json.read? (Bytes.ofText out.payload)).bind Outbound.read? = some out

/-- A switchboard at work: how it stands, what is left of its clock and of the clock of the ids, and the messages it has returned. -/
structure Session where
  board : Switchboard
  clock : Ids.Clock
  idClock : Ids.Clock
  log : List Outbound := []

/-- What a user sends dispatched. -/
def Session.dispatch (s : Session) (sender : Int) (raw : Bytes) : Session :=
  let sent := s.board.dispatchOn s.clock s.idClock sender raw
  ⟨sent.board, sent.clock, sent.idClock, s.log ++ sent.answer.toOption.toList⟩

/-- Sessions of a switchboard that stores messages where none are stored yet, with a broker and a store in order and a clock that never
runs back. Between what is dispatched, others may use the broker, draw ids and write to the other tables, and time goes on. -/
inductive Session.Reached : Session → Prop where
  | start {s : Session} {broker : Broker} (storing : s.board.isStoring = true) (serving : s.board.exchange = .serving broker)
      (reachable : s.board.world.reachable = true) (empty : s.board.world.tables.chats = []) (ids : s.board.world.ids.WellFormed)
      (clock : s.clock.Steady) (log : s.log = []) : Reached s
  | dispatch {s : Session} (h : Reached s) (sender : Int) (raw : Bytes) : Reached (s.dispatch sender raw)
  | meanwhile {s : Session} (h : Reached s) (broker : Broker) {world : Store.World} (reachable : world.reachable = true)
      (chats : world.tables.chats = s.board.world.tables.chats) (ids : s.board.world.ids.Ahead world.ids) (taken : Nat)
      (idClock : Ids.Clock) :
      Reached { s with board := { s.board with world, exchange := .serving broker }, clock := s.clock.after taken, idClock }

/-- A session stores and publishes what is handed out, and the rows record its messages, in an order that goes up. -/
structure Session.Agrees (s : Session) : Prop where
  storing : s.board.isStoring = true
  serving : ∃ broker, s.board.exchange = .serving broker
  reachable : s.board.world.reachable = true
  clock : s.clock.Steady
  recorded : List.Forall₂ Records s.board.world.tables.chats s.log
  ordered : s.board.world.tables.chats.Pairwise fun x y => x.id < y.id ∧ x.createdAt ≤ y.createdAt
  past : ∀ row ∈ s.board.world.tables.chats, row.id < s.board.world.ids.floor ∧ row.createdAt ≤ Store.stamp (s.clock 0)

/-- A session in order, as long as its ids are in range. -/
structure Session.Sound (s : Session) : Prop where
  ids : s.board.world.ids.WellFormed
  agrees : s.board.world.ids.InRange → s.Agrees

namespace RecordAux

open Switchboard

variable {b : Switchboard} {s : Session} {clock idClock : Ids.Clock} {sender : Int} {raw : Bytes} {m : Inbound} {out : Outbound}
  {broker : Broker}

/-! ## Publishing -/

/-- Users have channels of their own. -/
theorem channel_inj {user user' : Int} (h : b.channel user = b.channel user') : user = user' := by
  unfold Switchboard.channel at h
  rw [String.append_right_inj] at h
  exact Int.repr_inj.1 h

/-- A broker in order publishes everything. -/
theorem publishTo_serving (hserving : b.exchange = .serving broker) (payload : String) (users : List Int) :
    b.publishTo payload users =
      .ok { b with exchange := .serving ((users.map fun user => Request.publish (b.channel user) payload).foldl Broker.take broker) } := by
  induction users generalizing b broker with
  | nil =>
    rw [publishTo, List.map_nil, List.foldl_nil, ← hserving]
  | cons user users ih =>
    rw [publishTo, hserving]
    exact ih rfl

/-- The payload goes once to the recipient, once to the sender if that is another, and to nobody else. -/
theorem published_publishing (b : Switchboard) (out : Outbound) (user : Int) :
    (b.publishing out).filterMap (Request.published? (b.channel user)) =
      if user = out.recipient ∨ user = out.sender then [out.payload] else [] := by
  have hone : ∀ reader, (Request.publish (b.channel reader) out.payload).published? (b.channel user) =
      if user = reader then some out.payload else none := by
    intro reader
    by_cases h : user = reader
    · rw [h, if_pos rfl, Request.published?, if_pos rfl]
    · rw [if_neg h, Request.published?, if_neg fun e => h (channel_inj e).symm]
  unfold publishing readers
  split
  · rename_i hself
    rw [List.map_singleton, List.filterMap_cons, hone, hself]
    by_cases hs : user = out.sender
    · rw [if_pos hs, if_pos (.inl hs)]
      rfl
    · rw [if_neg hs, if_neg (by simpa using hs)]
      rfl
  · rename_i hother
    rw [List.map_cons, List.map_singleton, List.filterMap_cons, List.filterMap_cons, hone, hone]
    by_cases hr : user = out.recipient
    · rw [if_pos hr, if_neg fun hs => hother (hr.symm.trans hs), if_pos (.inl hr)]
      rfl
    · rw [if_neg hr]
      by_cases hs : user = out.sender
      · rw [if_pos hs, if_pos (.inr hs)]
        rfl
      · rw [if_neg hs, if_neg (not_or.2 ⟨hr, hs⟩)]
        rfl

/-! ## Dispatching -/

/-- A frame that is no proper message is refused, and nothing is done. -/
theorem dispatchOn_refused (h : frame? raw = none) (b : Switchboard) (clock idClock : Ids.Clock) (sender : Int) :
    ∃ f, b.dispatchOn clock idClock sender raw = ⟨.error f, b, clock, idClock⟩ := by
  unfold frame? at h
  unfold dispatchOn
  cases hread : (Json.read? raw).bind Inbound.read? with
  | none => exact ⟨_, rfl⟩
  | some m =>
    have himproper : m.isProper = false := by simpa [hread, Option.filter] using h
    exact ⟨.improper, by simp [himproper]⟩

/-- A proper message is handed out. -/
theorem dispatchOn_frame (h : frame? raw = some m) : b.dispatchOn clock idClock sender raw = b.deliverOn clock idClock sender m := by
  obtain ⟨hread, hproper⟩ := Option.filter_eq_some_iff.1 h
  unfold dispatchOn
  rw [hread]
  exact if_pos hproper

/-- The world with one more row, under the next id. -/
def withRow (w : Store.World) (idClock : Ids.Clock) (row : Store.Chat) : Store.World :=
  { w with ids := (w.ids.next idClock).generator, tables := { w.tables with chats := w.tables.chats ++ [row] } }

/-- Under a new id a message is stored. -/
theorem storedOn_eq {w : Store.World} (hw : w.reachable = true)
    (hfresh : ∀ c ∈ w.tables.chats, c.id ≠ (w.ids.next idClock).id) (time : Nat) (out : Outbound) :
    storedOn w time idClock out = ⟨{ out with id := some (w.ids.next idClock).id },
      withRow w idClock (row (w.ids.next idClock).id (Store.stamp time) out), idClock.after (w.ids.next idClock).readings⟩ := by
  have hinsert : w.tables.insertChat (row (w.ids.next idClock).id (Store.stamp time) out) =
      .ok { w.tables with chats := w.tables.chats ++ [row (w.ids.next idClock).id (Store.stamp time) out] } := by
    have hnew : w.tables.chats.any (·.id == (w.ids.next idClock).id) = false := by simpa using hfresh
    exact if_neg (Bool.eq_false_iff.1 hnew)
  have hupdate := Store.World.update_of_ok (w := (w.nextIdOn idClock).world) (f := fun t => t.insertChat
    (row (w.ids.next idClock).id (Store.stamp time) out)) hw hinsert
  unfold storedOn
  dsimp only
  rw [show (w.nextIdOn idClock).answer = (w.ids.next idClock).id from rfl, hupdate]
  rfl

/-- What is stored and can be published is handed out. -/
theorem deliverOn_of_published (hstoring : b.isStoring = true) {o : Store.Outcome Outbound}
    (ho : storedOn b.world (clock 1) idClock (outbound sender (clock 0) m) = o) {b' : Switchboard}
    (hpublished : publishTo { b with world := o.world } o.answer.payload (readers o.answer) = .ok b') :
    b.deliverOn clock idClock sender m = ⟨.ok o.answer, b', clock.after 2, o.clock⟩ := by
  unfold deliverOn
  dsimp only
  rw [if_pos hstoring, if_pos hstoring, ho, hpublished]

/-- The message that is returned for one that is stored. -/
def told (s : Session) (sender : Int) (m : Inbound) : Outbound :=
  { outbound sender (s.clock 0) m with id := some (s.board.world.ids.next s.idClock).id }

/-- The row of a message that is stored. -/
def noted (s : Session) (sender : Int) (m : Inbound) : Store.Chat :=
  row (s.board.world.ids.next s.idClock).id (Store.stamp (s.clock 1)) (outbound sender (s.clock 0) m)

/-- The switchboard after a message is stored and handed out. -/
def handing (s : Session) (broker : Broker) (sender : Int) (m : Inbound) : Switchboard :=
  { s.board with
    world := withRow s.board.world s.idClock (noted s sender m)
    exchange := .serving ((s.board.publishing (told s sender m)).foldl Broker.take broker) }

/-- Under a new id a message is stored and handed out. -/
theorem deliverOn_eq (h : s.Agrees) (hserving : s.board.exchange = .serving broker)
    (hfresh : ∀ c ∈ s.board.world.tables.chats, c.id ≠ (s.board.world.ids.next s.idClock).id) (sender : Int) (m : Inbound) :
    s.board.deliverOn s.clock s.idClock sender m = ⟨.ok (told s sender m), handing s broker sender m, s.clock.after 2,
      s.idClock.after (s.board.world.ids.next s.idClock).readings⟩ := by
  have hpublished := publishTo_serving (b := { s.board with world := withRow s.board.world s.idClock (noted s sender m) })
    hserving (told s sender m).payload (readers (told s sender m))
  exact deliverOn_of_published h.storing (storedOn_eq h.reachable hfresh (s.clock 1) (outbound sender (s.clock 0) m)) hpublished

/-! ## Ids -/

/-- Publishing leaves the world as it is. -/
theorem world_publishTo {b' : Switchboard} {payload : String} {users : List Int} (h : b.publishTo payload users = .ok b') :
    b'.world = b.world := by
  induction users generalizing b with
  | nil =>
    obtain rfl := Except.ok.inj h
    rfl
  | cons user users ih =>
    unfold publishTo at h
    split at h
    · have hworld := ih h
      exact hworld
    · exact nomatch h

/-- Whatever comes of storing a message, one id is drawn. -/
theorem ids_storedOn (w : Store.World) (idClock : Ids.Clock) (time : Nat) (out : Outbound) :
    (storedOn w time idClock out).world.ids = (w.ids.next idClock).generator := by
  unfold storedOn
  dsimp only
  rcases (w.nextIdOn idClock).world.update_cases (·.insertChat (row (w.nextIdOn idClock).answer (Store.stamp time) out)) with
    ⟨t, -, hmade⟩ | ⟨e, hfailed⟩
  · rw [hmade]
    rfl
  · rw [hfailed]
    rfl

/-- Handing out a message draws one id, if messages are stored. -/
theorem ids_deliverOn (b : Switchboard) (clock idClock : Ids.Clock) (sender : Int) (m : Inbound) :
    (b.deliverOn clock idClock sender m).board.world.ids =
      if b.isStoring then (b.world.ids.next idClock).generator else b.world.ids := by
  have hstored : (if b.isStoring then storedOn b.world (clock 1) idClock (outbound sender (clock 0) m) else
      ⟨outbound sender (clock 0) m, b.world, idClock⟩ : Store.Outcome Outbound).world.ids =
        if b.isStoring then (b.world.ids.next idClock).generator else b.world.ids := by
    split
    · exact ids_storedOn ..
    · rfl
  unfold deliverOn
  dsimp only
  split
  · rename_i hpublished
    rw [world_publishTo hpublished]
    exact hstored
  · exact hstored

/-- Whatever is dispatched, the ids go on from where they were. -/
theorem ahead_dispatch (h : s.board.world.ids.WellFormed) (sender : Int) (raw : Bytes) :
    s.board.world.ids.Ahead (s.dispatch sender raw).board.world.ids := by
  show s.board.world.ids.Ahead (s.board.dispatchOn s.clock s.idClock sender raw).board.world.ids
  cases hframe : frame? raw with
  | none =>
    obtain ⟨f, hf⟩ := dispatchOn_refused hframe s.board s.clock s.idClock sender
    rw [hf]
    exact .refl h
  | some m =>
    rw [dispatchOn_frame hframe, ids_deliverOn]
    split
    · exact .next h s.idClock
    · exact .refl h

/-- A new id is no row's. -/
theorem id_fresh (h : s.Sound) (hr : (s.board.world.ids.next s.idClock).generator.InRange) :
    ∀ c ∈ s.board.world.tables.chats, c.id ≠ (s.board.world.ids.next s.idClock).id := by
  intro c hc
  have hpast := ((h.agrees (h.ids.inRange_of_next hr)).past c hc).1
  have hfloor := h.ids.floor_le_id hr
  omega

/-! ## Sessions -/

/-- A frame that is refused leaves the session as it was. -/
theorem dispatch_refused (h : frame? raw = none) (s : Session) (sender : Int) :
    (∃ f, (s.board.dispatchOn s.clock s.idClock sender raw).answer = .error f) ∧ s.dispatch sender raw = s := by
  obtain ⟨f, hf⟩ := dispatchOn_refused h s.board s.clock s.idClock sender
  refine ⟨⟨f, by rw [hf]⟩, ?_⟩
  unfold Session.dispatch
  rw [hf]
  show Session.mk s.board s.clock s.idClock (s.log ++ []) = s
  rw [List.append_nil]

/-- The session after a message is handed out under a new id. -/
theorem dispatch_frame (h : s.Sound) (hr : (s.dispatch sender raw).board.world.ids.InRange) (hframe : frame? raw = some m)
    (hserving : s.board.exchange = .serving broker) :
    s.board.dispatchOn s.clock s.idClock sender raw = ⟨.ok (told s sender m), handing s broker sender m, s.clock.after 2,
      s.idClock.after (s.board.world.ids.next s.idClock).readings⟩ := by
  have hagrees := h.agrees ((ahead_dispatch h.ids sender raw).inRange hr)
  have hids : (s.dispatch sender raw).board.world.ids = (s.board.world.ids.next s.idClock).generator := by
    show (s.board.dispatchOn s.clock s.idClock sender raw).board.world.ids = _
    rw [dispatchOn_frame hframe, ids_deliverOn, if_pos hagrees.storing]
  rw [hids] at hr
  rw [dispatchOn_frame hframe, deliverOn_eq hagrees hserving (id_fresh h hr)]

/-- An id is a word. -/
theorem inI64_compose (ms node sequence : Nat) : inI64 (Ids.compose ms node sequence) := by
  have hlt := Nat.mod_lt (((ms - Ids.epoch) * (Ids.maxNode + 1) + node) * Ids.perMillisecond + sequence) (by decide : Ids.range > 0)
  unfold Ids.compose inI64 minI64 maxI64
  unfold Ids.range at hlt ⊢
  simp only [Bool.and_eq_true, decide_eq_true_eq]
  omega

/-- What is returned for a proper message of a user can be written and read. -/
theorem inRange_told (h : s.Sound) (hframe : frame? raw = some m) (hsender : inI64 sender) : (told s sender m).InRange := by
  obtain ⟨hread, -⟩ := Option.filter_eq_some_iff.1 hframe
  obtain ⟨tree, -, hread⟩ := Option.bind_eq_some_iff.1 hread
  obtain ⟨hrecipient, htype, hmedia⟩ := inI64_of_read? hread
  have hid : inI64 (s.board.world.ids.next s.idClock).id := (Ids.OrderAux.issued_next h.ids s.idClock).id ▸ inI64_compose ..
  exact
    { id := fun n hn => Option.some.inj hn ▸ hid
      sender := hsender
      recipient := hrecipient
      type := fun n hn => htype n (Option.filter_eq_some_iff.1 hn).1
      media := fun n hn => hmedia n (Option.filter_eq_some_iff.1 hn).1 }

/-- A proper message is handed out. -/
theorem handedOut (h : s.Sound) (hr : (s.dispatch sender raw).board.world.ids.InRange) (hframe : frame? raw = some m)
    (hsender : inI64 sender) :
    HandedOut s.board sender m (s.board.dispatchOn s.clock s.idClock sender raw) (told s sender m) := by
  obtain ⟨broker, hserving⟩ := (h.agrees ((ahead_dispatch h.ids sender raw).inRange hr)).serving
  rw [dispatch_frame h hr hframe hserving]
  exact
    { answer := rfl
      sender := rfl
      recipient := rfl
      type := rfl
      media := rfl
      content := rfl
      stored := ⟨noted s sender m, ⟨rfl, rfl, rfl, rfl, rfl, rfl⟩, rfl⟩
      published := fun broker' hserving' => by
        obtain rfl : broker = broker' := Exchange.serving.inj (hserving.symm.trans hserving')
        rfl
      legible := Outbound.read?_payload (inRange_told h hframe hsender) }

/-- Under a new id a session stays one whose rows record its messages. -/
theorem agrees_dispatch (h : s.Sound) (hr : (s.dispatch sender raw).board.world.ids.InRange) (hframe : frame? raw = some m) :
    (s.dispatch sender raw).Agrees := by
  have hagrees := h.agrees ((ahead_dispatch h.ids sender raw).inRange hr)
  obtain ⟨broker, hserving⟩ := hagrees.serving
  have hsent := dispatch_frame h hr hframe hserving
  have hafter : s.dispatch sender raw = ⟨handing s broker sender m, s.clock.after 2,
      s.idClock.after (s.board.world.ids.next s.idClock).readings, s.log ++ [told s sender m]⟩ := by
    unfold Session.dispatch
    rw [hsent]
    rfl
  rw [hafter] at hr ⊢
  have hr : (s.board.world.ids.next s.idClock).generator.InRange := hr
  have hfloor := h.ids.floor_le_id hr
  have hid := h.ids.id_lt_floor hr
  exact
    { storing := hagrees.storing
      serving := ⟨_, rfl⟩
      reachable := hagrees.reachable
      clock := hagrees.clock.after 2
      recorded := List.rel_append hagrees.recorded (.cons ⟨rfl, rfl, rfl, rfl, rfl, rfl⟩ .nil)
      ordered := by
        show (s.board.world.tables.chats ++ [noted s sender m]).Pairwise _
        rw [List.pairwise_append]
        refine ⟨hagrees.ordered, List.pairwise_singleton _ _, fun row hrow row' hrow' => ?_⟩
        obtain rfl := List.mem_singleton.1 hrow'
        obtain ⟨hlt, hle⟩ := hagrees.past row hrow
        have hsecond : Store.stamp (s.clock 0) ≤ Store.stamp (s.clock 1) := Store.stamp_le (hagrees.clock 0 1 (by omega))
        exact ⟨Int.lt_of_lt_of_le hlt hfloor, Int.le_trans hle hsecond⟩
      past := by
        intro row hrow
        rcases List.mem_append.1 hrow with hrow | hrow
        · obtain ⟨hlt, hle⟩ := hagrees.past row hrow
          exact ⟨by show row.id < (s.board.world.ids.next s.idClock).generator.floor; omega,
            Int.le_trans hle (Store.stamp_le (hagrees.clock 0 2 (by omega)))⟩
        · obtain rfl := List.mem_singleton.1 hrow
          exact ⟨hid, Store.stamp_le (hagrees.clock 1 2 (by omega))⟩ }

/-- Whatever is dispatched, a session stays sound. -/
theorem sound_dispatch (h : s.Sound) (sender : Int) (raw : Bytes) : (s.dispatch sender raw).Sound where
  ids := (ahead_dispatch h.ids sender raw).wellFormed
  agrees hr := by
    cases hframe : frame? raw with
    | none =>
      rw [(dispatch_refused hframe s sender).2] at hr ⊢
      exact h.agrees hr
    | some m => exact agrees_dispatch h hr hframe

/-- Every session that is reached is in order. -/
theorem sound_of_reached (h : s.Reached) : s.Sound := by
  induction h with
  | start storing serving reachable empty ids clock log =>
    refine ⟨ids, fun _ => ⟨storing, ⟨_, serving⟩, reachable, clock, ?_, ?_, ?_⟩⟩
    · rw [empty, log]
      exact .nil
    · rw [empty]
      exact .nil
    · rw [empty]
      exact nofun
  | dispatch _ sender raw ih => exact sound_dispatch ih sender raw
  | @meanwhile s _ broker world reachable chats ids taken idClock ih =>
    refine ⟨ids.wellFormed, fun hr => ?_⟩
    have hagrees := ih.agrees (ids.inRange hr)
    refine ⟨hagrees.storing, ⟨broker, rfl⟩, reachable, hagrees.clock.after taken, ?_, ?_, ?_⟩
    · exact chats ▸ hagrees.recorded
    · exact chats ▸ hagrees.ordered
    · intro row hrow
      have hrow : row ∈ s.board.world.tables.chats := chats ▸ hrow
      obtain ⟨hlt, hle⟩ := hagrees.past row hrow
      exact ⟨Int.lt_of_lt_of_le hlt (ids.floor_le hr), Int.le_trans hle (Store.stamp_le (hagrees.clock.le_after taken))⟩

/-! ## Listing -/

theorem isBetween_comm (a b : Int) (c : Store.Chat) : Store.Tables.isBetween a b c = Store.Tables.isBetween b a c := Bool.or_comm _ _

theorem chatsBetween_comm (t : Store.Tables) (a b : Int) : t.chatsBetween a b = t.chatsBetween b a := by
  unfold Store.Tables.chatsBetween
  rw [show Store.Tables.isBetween a b = Store.Tables.isBetween b a from funext (isBetween_comm a b)]

/-- Rows in order are listed as they stand. -/
theorem chatsBetween_eq {t : Store.Tables} (h : t.chats.Pairwise fun x y => x.id < y.id ∧ x.createdAt ≤ y.createdAt) (a b : Int) :
    t.chatsBetween a b = t.chats.filter (Store.Tables.isBetween a b) := by
  refine List.mergeSort_of_pairwise ((h.filter _).imp fun {x y} hxy => ?_)
  simp only [Bool.or_eq_true, Bool.and_eq_true, decide_eq_true_eq, beq_iff_eq]
  omega

/-- A row is between two users when its message is. -/
theorem isBetween_of_records {row : Store.Chat} {m : Outbound} (h : Records row m) (a b : Int) :
    Store.Tables.isBetween a b row = m.isBetween a b := by
  unfold Store.Tables.isBetween Outbound.isBetween
  rw [h.sender, h.recipient]

end RecordAux

open RecordAux

/-- Of every session that is reached. A frame that is no proper message is answered with a fault, and nothing is stored, published or
returned. A proper message of a user, while ids are in range, is handed out: it is returned, recorded in one row, and published, once
on the channel of its recipient and once on that of its sender if that is another, with a payload that reads as it does. And as long
as ids are in range, the messages stored between two users are the same whichever is named first: they are the rows of the messages
returned between them, in the order in which these were returned. -/
theorem fanout_agrees_with_record {s : Session} (h : s.Reached) :
    (∀ sender raw, frame? raw = none →
      (∃ f, (s.board.dispatchOn s.clock s.idClock sender raw).answer = .error f) ∧ s.dispatch sender raw = s) ∧
    (∀ sender raw m, frame? raw = some m → inI64 sender → (s.dispatch sender raw).board.world.ids.InRange →
      ∃ out, HandedOut s.board sender m (s.board.dispatchOn s.clock s.idClock sender raw) out ∧
        (s.dispatch sender raw).log = s.log ++ [out] ∧
        ∀ user, (s.board.publishing out).filterMap (Request.published? (s.board.channel user)) =
          if user = out.recipient ∨ user = out.sender then [out.payload] else []) ∧
    (s.board.world.ids.InRange → ∀ a b,
      s.board.world.tables.chatsBetween a b = s.board.world.tables.chatsBetween b a ∧
        List.Forall₂ Records (s.board.world.tables.chatsBetween a b) (s.log.filter (Outbound.isBetween a b))) := by
  have hsound := sound_of_reached h
  refine ⟨fun sender raw hframe => dispatch_refused hframe s sender, fun sender raw m hframe hsender hr => ?_, fun hr a b => ?_⟩
  · have hout := handedOut hsound hr hframe hsender
    refine ⟨_, hout, ?_, published_publishing s.board _⟩
    show s.log ++ (s.board.dispatchOn s.clock s.idClock sender raw).answer.toOption.toList = _
    rw [hout.answer]
    rfl
  · have hagrees := hsound.agrees hr
    refine ⟨chatsBetween_comm _ a b, ?_⟩
    rw [chatsBetween_eq hagrees.ordered]
    exact List.rel_filter (R := Records) (fun row m hrow => Bool.eq_iff_iff.1 (isBetween_of_records hrow a b)) hagrees.recorded

/-- Two messages of one time between two users, one each way; then one that is blank, and one of a user to himself. -/
theorem fanout_agrees_with_record_one_time :
    let start : Session :=
      { board := { world := { ids := .ofNode 1, clock := 0 }, exchange := .serving {}, isStoring := true, key := "ditto:chat" }
        clock := .standing 1700000000123
        idClock := .standing 1700000000123 }
    let hello := Bytes.ofText "\x7b\"to_id\":2,\"content\":\"hi\",\"message_type\":1\x7d"
    let answer := Bytes.ofText "\x7b\"to_id\":1,\"content\":\"hello\",\"message_media\":0\x7d"
    let blank := Bytes.ofText "\x7b\"to_id\":1,\"content\":\" \"\x7d"
    let note := Bytes.ofText "\x7b\"to_id\":2,\"content\":\"note\"\x7d"
    let s := (start.dispatch 1 hello).dispatch 2 answer
    s.dispatch 2 blank = s ∧
      (∃ out, HandedOut s.board 2 { recipient := 2, content := "note" } (s.board.dispatchOn s.clock s.idClock 2 note) out ∧
        (s.board.publishing out).filterMap (Request.published? (s.board.channel 2)) = [out.payload]) ∧
      List.Forall₂ Records (s.board.world.tables.chatsBetween 2 1) (s.log.filter (Outbound.isBetween 2 1)) ∧
      (s.log.filter (Outbound.isBetween 2 1)).map Outbound.content = ["hi", "hello"] := by
  intro start hello answer blank note s
  have hsteady : (Ids.Clock.standing 1700000000123).Steady := fun _ _ _ => Nat.le_refl _
  have hstart : start.Reached := .start rfl rfl rfl rfl (Ids.Generator.wellFormed_ofNode 1) hsteady rfl
  have hreached : s.Reached := (hstart.dispatch 1 hello).dispatch 2 answer
  obtain ⟨hrefused, hproper, hlisted⟩ := fanout_agrees_with_record hreached
  have hnoted : (s.dispatch 2 note).board.world.ids.InRange := by
    unfold Ids.Generator.InRange
    decide +kernel
  obtain ⟨out, hout, -, hpublished⟩ := hproper 2 note { recipient := 2, content := "note" } (by decide +kernel) (by decide) hnoted
  have hself : (2 : Int) = out.recipient ∨ 2 = out.sender := .inl hout.recipient.symm
  have hrange : s.board.world.ids.InRange := by
    unfold Ids.Generator.InRange
    decide +kernel
  exact ⟨(hrefused 2 blank (by decide +kernel)).2, ⟨out, hout, (hpublished 2).trans (if_pos hself)⟩, (hlisted hrange 2 1).2,
    by decide +kernel⟩

end InferenceGate.Messaging
