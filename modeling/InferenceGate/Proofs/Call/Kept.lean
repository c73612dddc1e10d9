import InferenceGate.Call.Pipeline
import InferenceGate.Proofs.Chat.Abandoned
import InferenceGate.Proofs.Store.Waits

/-!
# What is kept of an answer

Whatever follows an answer, the messages in the store after it are those that were there and the text that is read of what the caller was
given (`Sequel.mem_messages_follow`), also where the store fails on the way or the caller goes away.
-/

namespace InferenceGate

open Store

namespace Chat

open AbandonedAux

variable {conversation user now : Int} {model : String} {text : Option String} {t t' : Tables}

/-- Storing a reply adds no message but one with its text. -/
theorem mem_messages_storeReply {saved : Except Store.Fault Unit}
    (h : Routine.MayEnd t (storeReply conversation user model now text) saved t') :
    ∀ m ∈ t'.messages, m ∈ t.messages ∨ text = some m.content := by
  unfold storeReply at h
  split at h
  · obtain ⟨-, rfl⟩ := Routine.mayEnd_done h
    exact fun m hm => .inl hm
  · rename_i said hsaid
    obtain ⟨id, t₁, h₁, h₂⟩ := Routine.mayEnd_bind h
    obtain rfl := Routine.mayEnd_read (s := .nextId) (fun h => h) h₁
    rcases Routine.mayEnd_take h₂ with ⟨-, hmade⟩ | ⟨e, -, -, rfl⟩
    · obtain ⟨-, rfl⟩ := Tables.insertMessages_ok hmade
      intro m hm
      rcases List.mem_append.1 hm with hm | hm
      · exact .inl hm
      · obtain rfl := List.mem_singleton.1 hm
        exact .inr (Option.filter_eq_some_iff.1 hsaid).1
    · exact fun m hm => .inl hm

/-- Bringing figures up to date changes no message. -/
theorem messages_refresh {answer : Except TurnFault Unit}
    (h : Comes t (stored (Routine.refresh conversation (some model) now)) answer t') : t'.messages = t.messages := by
  obtain ⟨b, hb, -⟩ := comes_stored h
  rcases Routine.mayEnd_take hb with ⟨-, hmade⟩ | ⟨e, -, -, rfl⟩
  · rw [(Tables.refresh_ok hmade).2]
  · rfl

/-- Finishing a turn adds no message but one with the text of its reply. -/
theorem mem_messages_finish {answer : Except TurnFault Unit} (h : Comes t (finish conversation user model text) answer t') :
    ∀ m ∈ t'.messages, m ∈ t.messages ∨ text = some m.content := by
  obtain ⟨now, -, h⟩ := comes_past h (comes_idle (Routine.mayEnd_read fun h => h))
  rcases comes_bind h with ⟨e, h₁, -⟩ | ⟨saved, t₁, h₁, h₂⟩
  · obtain ⟨a, ha, -⟩ := comes_always h₁
    nomatch ha
  · obtain ⟨a, -, hsaved⟩ := comes_always h₁
    have hrefresh : t'.messages = t₁.messages := by
      rcases comes_bind h₂ with ⟨e, h₂, -⟩ | ⟨u, t₂, h₂, h₃⟩
      · exact messages_refresh h₂
      · obtain ⟨b, hb, -⟩ := comes_stored h₃
        obtain ⟨-, rfl⟩ := Routine.mayEnd_done hb
        exact messages_refresh h₂
    rw [hrefresh]
    exact mem_messages_storeReply hsaved

end Chat

namespace Call

variable {c : Call} {g : Given} {s : State}

/-- However what finishes a turn ends, it adds no message but one with the text that is read of what the caller was given. -/
theorem mem_messages_finishing {turn : Chat.TurnRoutine Unit} {answer : Except Chat.TurnFault Unit} {t t' : Tables}
    (hturn : c.finishing? g = some turn) (h : Routine.MayEnd t turn.run answer t') :
    ∀ m ∈ t'.messages, m ∈ t.messages ∨ m.content = (Reply.assistantText g.body).1 := by
  intro m hm
  unfold finishing? at hturn
  generalize Reply.assistantText g.body = read at hturn ⊢
  split at hturn
  · obtain rfl := Option.some.inj hturn
    rcases Chat.mem_messages_finish h m hm with hm | htext
    · exact .inl hm
    · split at htext
      · exact .inr (Option.some.inj htext).symm
      · nomatch htext
  · nomatch hturn

/-- Keeping the reply of a turn adds no message but one with the text that is read of what the caller was given. -/
theorem mem_messages_keepReply (c : Call) (g : Given) (s : State) :
    ∀ m ∈ (c.keepReply g s).world.tables.messages,
      m ∈ s.world.tables.messages ∨ m.content = (Reply.assistantText g.body).1 := by
  unfold keepReply
  split
  · exact mem_messages_finishing ‹_› (Routine.mayEnd_runOn _ _ s.world)
  · exact fun m hm => .inl hm

/-- So does keeping it for a caller that goes away. -/
theorem mem_messages_keepReplyWithin (c : Call) (g : Given) (waits : Nat) (s : State) :
    ∀ m ∈ (c.keepReplyWithin g waits s).2.world.tables.messages,
      m ∈ s.world.tables.messages ∨ m.content = (Reply.assistantText g.body).1 := by
  unfold keepReplyWithin
  split
  · rename_i turn hturn
    obtain ⟨answer, hend⟩ := Routine.mayEnd_runWithin turn.run waits (.standing s.world.clock) s.world
    exact mem_messages_finishing hturn hend
  · exact fun m hm => .inl hm

/-- Recording a call changes no message. -/
theorem messages_record (c : Call) (g : Given) (s : State) : (c.record g s).world.tables.messages = s.world.tables.messages :=
  ((c.nextUsage g s.world).2.insertUsage_books (c.nextUsage g s.world).1).2.messages

end Call

namespace Sequel

variable (c : Call) (g : Given)

/-- What follows an answer adds no message but ones with the text that is read of what the caller was given. -/
theorem mem_messages_runAll (s : State) (sequels : List Sequel) :
    ∀ m ∈ (runAll c g s sequels).world.tables.messages,
      m ∈ s.world.tables.messages ∨ m.content = (Reply.assistantText g.body).1 := by
  induction sequels generalizing s with
  | nil => exact fun m hm => .inl hm
  | cons q sequels ih =>
    intro m hm
    rcases ih (q.run c g s) m hm with hm | htext
    · cases q with
      | context => exact c.mem_messages_keepReply g s m hm
      | usage => exact .inl (c.messages_record g s ▸ hm)
    · exact .inr htext

/-- One thing that follows, as far as a caller waits for it. -/
theorem mem_messages_runWithin (waits : Nat) (s : State) (q : Sequel) :
    ∀ m ∈ (q.runWithin c g waits s).2.world.tables.messages,
      m ∈ s.world.tables.messages ∨ m.content = (Reply.assistantText g.body).1 := by
  cases q with
  | context => exact c.mem_messages_keepReplyWithin g waits s
  | usage => exact fun m hm => .inl (c.messages_record g s ▸ hm)

/-- All that follows, as far as a caller waits for it. -/
theorem mem_messages_runAllWithin (waits : Nat) (s : State) (sequels : List Sequel) :
    ∀ m ∈ (runAllWithin c g waits s sequels).2.world.tables.messages,
      m ∈ s.world.tables.messages ∨ m.content = (Reply.assistantText g.body).1 := by
  induction sequels generalizing waits s with
  | nil => exact fun m hm => .inl hm
  | cons q sequels ih =>
    intro m hm
    have hfirst := mem_messages_runWithin c g waits s q
    unfold runAllWithin at hm
    split at hm
    · rename_i waits' s' hq
      rw [hq] at hfirst
      exact (ih waits' s' m hm).elim (hfirst m) .inr
    · rename_i s' hq
      rw [hq] at hfirst
      exact hfirst m hm

/-- Whatever follows an answer, and however long the caller waits for it, adds no message but ones with the text that is read of what the
caller was given. -/
theorem mem_messages_follow (s : State) (sequels : List Sequel) (waits : Option Nat) :
    ∀ m ∈ (follow c g s sequels waits).2.world.tables.messages,
      m ∈ s.world.tables.messages ∨ m.content = (Reply.assistantText g.body).1 := by
  cases waits with
  | none => exact mem_messages_runAll c g s sequels
  | some waits => exact mem_messages_runAllWithin c g waits s sequels

end Sequel

end InferenceGate
