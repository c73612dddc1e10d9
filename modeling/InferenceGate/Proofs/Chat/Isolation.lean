import InferenceGate.Proofs.Chat.Gateway

/-!
# Users are isolated

A user's calls are compared on the tables that a gateway has reached and on his rows alone. What he reads is the same (`SameReads`).
Preparing or finishing a turn leaves all rows of the others as they are, and while the ids last it is answered the same and leaves
his rows the same (`Isolated`). Once the milliseconds have run out of the bits of an id, a new id can be one that another user's
row has, and then the user is refused what he would get on his own.
-/

namespace InferenceGate.Chat

open Json Store Ids

/-- What a user reads of his rows is the same in two stores: his conversations, each of them and its messages, and his usage. -/
structure SameReads (user : Int) (t t' : Tables) : Prop where
  conversations : ∀ offset limit, t'.listConversations user offset limit = t.listConversations user offset limit
  conversation : ∀ id, t'.findConversation id user = t.findConversation id user
  messages : ∀ id, (t.findConversation id user).isSome → ∀ offset limit,
    t'.listMessages id offset limit = t.listMessages id offset limit
  totals : ∀ span, t'.usageTotals user span = t.usageTotals user span
  endpoints : ∀ start stop, t'.usageByEndpoint user start stop = t.usageByEndpoint user start stop

/-- A user's call leaves the rows of all others as they are, and while ids last it is answered on his rows alone as on all, his rows
being the same afterwards. -/
structure Isolated {α : Type} (user : Int) (r : Routine α) (clock : Clock) (w : World) : Prop where
  others : (r.runOn clock w).world.tables.without user = w.tables.without user
  own : (r.runOn clock w).world.ids.InRange →
    r.runOn clock (w.restrict user) =
      ⟨(r.runOn clock w).answer, (r.runOn clock w).world.restrict user, (r.runOn clock w).clock⟩

namespace IsolationAux

variable {user : Int} {t : Tables} {w : World}

/-- The rows of usage that a user has are all in his part. -/
theorem usageOf_restrict (t : Tables) (user : Int) : (t.restrict user).usageOf user = t.usageOf user := by
  unfold Tables.usageOf Tables.restrict
  rw [List.filter_filter]
  simp only [Bool.and_self]

/-- A user's rows within a span are among what is left to the user. -/
theorem usageWithin_restrict (t : Tables) (user start stop : Int) :
    (t.restrict user).usageWithin user start stop = t.usageWithin user start stop := by
  unfold Tables.usageWithin
  rw [usageOf_restrict]

/-- A user's conversations are among what is left to the user. -/
theorem conversationsOf_restrict (t : Tables) (user : Int) : (t.restrict user).conversationsOf user = t.conversationsOf user := by
  unfold Tables.conversationsOf Tables.restrict
  rw [List.filter_filter]
  simp only [Bool.and_self]

/-- What a user reads of tidy tables he reads of his part. -/
theorem sameReads_restrict (h : t.Tidy) (user : Int) : SameReads user t (t.restrict user) where
  conversations offset limit := by
    unfold Tables.listConversations
    rw [conversationsOf_restrict]
  conversation id := t.findConversation_restrict id user
  messages id hid offset limit := by
    obtain ⟨c, hc⟩ := Option.isSome_iff_exists.1 hid
    unfold Tables.listMessages Tables.listing
    rw [Tables.messagesOf_restrict (Tables.owner?_of_find h hc)]
  totals span := by
    unfold Tables.usageTotals
    simp only [usageWithin_restrict]
  endpoints start stop := by
    unfold Tables.usageByEndpoint
    simp only [usageWithin_restrict]

/-- A lawful call that has drawn no id yet is isolated. -/
theorem isolated_of_lawful {α : Type} {r : Routine α} {p : Permit} {post : Permit → α → Prop} (hs : w.Sound)
    (hl : Routine.Lawful user p r post) (hp : p.Holds user w) (hd : p.drawn = []) (clock : Clock) : Isolated user r clock w := by
  obtain ⟨hm, -⟩ := hl.moves clock hs hp
  refine ⟨hm.touches.others, fun hr => ?_⟩
  refine hl.runOn_restrict hs hp (hs.below (hm.ids.inRange hr)).foreign (Int.le_refl _) ?_ hr
  rw [hd]
  exact nofun

end IsolationAux

open IsolationAux GatewayAux

/-- Isolation: in every state that a gateway reaches, each message is of the owner of its conversation. Each user reads of his rows
what he reads of all, and each turn that he prepares, or finishes in a conversation that a turn of his was prepared in, leaves the
rows of the others as they are and is answered as on his rows alone, while ids last. -/
theorem calls_isolated {maxHistory : Nat} {g : Gateway} (h : Reached maxHistory g) :
    (∀ m ∈ g.world.tables.messages, g.world.tables.owner? m.conversation = some m.user) ∧
      ∀ user, SameReads user g.world.tables (g.world.tables.restrict user) ∧
        (∀ payload clock, Isolated user (prepare maxHistory user payload).run clock g.world) ∧
        ∀ conversation model text clock, (user, conversation) ∈ g.returned →
          Isolated user (finish conversation user model text).run clock g.world := by
  have hs := h.sound
  refine ⟨hs.world.tidy.owned, fun user => ⟨sameReads_restrict hs.world.tidy user, fun payload clock => ?_, ?_⟩⟩
  · exact isolated_of_lawful hs.world (lawful_prepare maxHistory payload) (holds_empty user _) rfl clock
  · intro conversation model text clock hr
    have hp : Permit.Holds { owned := [conversation] } user g.world := holds_owned (hs.returned _ hr)
    exact isolated_of_lawful hs.world (lawful_finish (List.mem_singleton_self _) model text) hp rfl clock

namespace IsolationAux

/-- A turn that greets. -/
def greeting : Members := [("messages", .array [messageObject "user" "hi"]), ("model", .string "m")]

/-- A clock that stands at a millisecond. -/
def present : Clock := .standing 1700000000123

/-- A clock that stands at the millisecond whose ids are those of the first again. -/
def recurrence : Clock := .standing (1700000000123 + span)

/-- A gateway in which one user has greeted. -/
def greeted : Gateway := (Gateway.fresh 1 0).prepared 20 1 greeting present

/-- A second user's turn, run on a clock and a world. -/
def greetedToo (clock : Clock) (w : World) : Outcome (Except TurnFault Prepared) := (prepare 20 2 greeting).run.runOn clock w

/-- The first user's turn finished in a world. -/
def replied (w : World) : Outcome (Except TurnFault Unit) :=
  (finish 512389598928703488 1 "m" (some "hello")).run.runOn present w

end IsolationAux

/-- After one user's turn, that of a second is answered and stored as if he were alone, and so is the reply to the first. -/
theorem calls_isolated_second_user :
    (greetedToo present greeted.world).world.tables.messages.length = 2 ∧
      greetedToo present (greeted.world.restrict 2) =
        ⟨(greetedToo present greeted.world).answer, (greetedToo present greeted.world).world.restrict 2,
          (greetedToo present greeted.world).clock⟩ ∧
      (replied greeted.world).world.tables.messages.length = 2 ∧
      replied (greeted.world.restrict 1) =
        ⟨(replied greeted.world).answer, (replied greeted.world).world.restrict 1, (replied greeted.world).clock⟩ := by
  have h : Reached 20 greeted := (Reached.fresh 1 0).prepared 1 greeting present
  have hr : (greetedToo present greeted.world).world.ids.InRange := by
    unfold Generator.InRange
    decide +kernel
  have hr' : (replied greeted.world).world.ids.InRange := by
    unfold Generator.InRange
    decide +kernel
  have hc : (1, 512389598928703488) ∈ greeted.returned := by decide +kernel
  refine ⟨by decide +kernel, ?_, by decide +kernel, ?_⟩
  · exact (((calls_isolated h).2 2).2.1 greeting present).own hr
  · exact (((calls_isolated h).2 1).2.2 _ "m" (some "hello") present hc).own hr'

/-- When the milliseconds have run out of the bits of an id, a second user can be refused for the rows of the first. -/
theorem not_isolated_past_span :
    Reached 20 greeted ∧ (greetedToo recurrence greeted.world).answer.isOk = false ∧
      (greetedToo recurrence (greeted.world.restrict 2)).answer.isOk = true := by
  refine ⟨(Reached.fresh 1 0).prepared 1 greeting present, ?_, ?_⟩
  · decide +kernel
  · decide +kernel

end InferenceGate.Chat
