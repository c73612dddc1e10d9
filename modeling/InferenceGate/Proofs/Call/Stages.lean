import InferenceGate.Call.Pipeline
import InferenceGate.Proofs.Chat.Abandoned
import InferenceGate.Proofs.Quota.Counters
import InferenceGate.Proofs.Store.Books

/-!
# What each stage does

Each stage of a call, and what follows the answer, in terms of what it changes. Telling who calls changes nothing
(`Call.identify_ok`), the quota stage makes one charge at most (`Call.Charged`), the context stage touches conversations and messages
alone, and not even them when the turn itself is at fault (`Call.Contextualized`); what follows adds the row of usage (`Booked`).
-/

namespace InferenceGate

open Http Store Quota

namespace Quota.CounterStore

/-- Every key stands once among counters that are in order. -/
def Distinct : CounterStore → Prop
  | .counting cs => cs.Distinct
  | .faulty _ => True

variable {store : CounterStore} {settings : Settings} {now : Nat} {user : Int} {requestCost tokenCost : Nat}

/-- Counters in order are charged, unless nothing is counted. -/
theorem consume_counting (cs : Counters) :
    Quota.consume settings (.counting cs) now user requestCost tokenCost =
      if settings.anyEnabled = true then
        ((cs.charge now (chargeFor settings now user requestCost tokenCost)).1.elim .allowed .denied,
          .counting (cs.charge now (chargeFor settings now user requestCost tokenCost)).2)
      else (.allowed, .counting cs) := by
  unfold Quota.consume consumeAt
  cases settings.anyEnabled with
  | false => rfl
  | true =>
    rcases hc : cs.charge now (chargeFor settings now user requestCost tokenCost) with ⟨d, cs'⟩
    cases d <;> simp [charge, hc]

/-- Counters out of reach stay as they are. -/
theorem consume_faulty (f : CounterFault) :
    (Quota.consume settings (.faulty f) now user requestCost tokenCost).2 = .faulty f := by
  unfold Quota.consume consumeAt
  split <;> rfl

theorem Distinct.consume (h : store.Distinct) (settings : Settings) (now : Nat) (user : Int) (requestCost tokenCost : Nat) :
    (Quota.consume settings store now user requestCost tokenCost).2.Distinct := by
  cases store with
  | faulty f =>
    rw [consume_faulty]
    exact h
  | counting cs =>
    rw [consume_counting]
    split
    · exact Counters.Distinct.charge h _ _
    · exact h

end Quota.CounterStore

namespace Call

variable {p : Policy} {s : State} {c : Call}

end Call

/-! ## What follows the answer -/

end InferenceGate
