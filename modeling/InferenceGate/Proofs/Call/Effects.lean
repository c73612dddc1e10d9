import InferenceGate.Proofs.Call.CutShort
import InferenceGate.Proofs.Call.Reading
import InferenceGate.Proofs.Credential.LoginWindow
import InferenceGate.Proofs.Http.Fields

/-!
# What a call changes

A call of the chat pipeline goes through its stages in order, up to the first that answers it (`Exit`), and is put into the books once,
wherever it ended (`OneRow`), unless its caller goes away at the end of the answer while the reply of its turn is kept
(`Handled.CutShort`): then it is not put into the books at all (`cut_short_unrecorded`). What is refused before the backend is asked has
changed no conversation and no message, a fault of the store apart, and has charged nothing or, past the quota stage, one charge at
most.
-/

namespace InferenceGate

open Http Store Relay

/-- The states that a gateway comes to: it begins with counters that are empty or out of reach, serves calls in any pipeline, and
whatever else happens to it leaves the counters alone. -/
inductive State.Reached : State → Prop where
  | fresh {s : State} : (s.counters = .counting [] ∨ ∃ f, s.counters = .faulty f) → Reached s
  | call {s : State} (l : Pipeline) (p : Policy) (replies : Request → Option Reply) (latency : Nat) (patience : Patience) (c : Call) :
      Reached s → Reached (l.handle p replies latency patience s c).state
  | other {s s' : State} : Reached s → s'.counters = s.counters → Reached s'

namespace EffectsAux

open ReadingAux

/-! ## Reached states -/

variable {backend : Backend} {p : Policy} {replies : Request → Option Reply} {latency : Nat} {patience : Patience}
  {s s₁ s₂ : State} {c c₁ c₂ : Call} {r : Response}

end EffectsAux

open EffectsAux

namespace EffectsAux

/-- A policy. -/
def policy : Policy := { gate := { secret := Bytes.ofText "secret", window := 3 }, maxHistory := 20 }

/-- A gateway that has served nothing. -/
def idle : State := { world := { ids := .ofNode 1, clock := 1700000000123 }, second := 1700000000 }

/-- The target of a turn. -/
def chatTarget : Bytes := Bytes.ofText Call.chatPath

end EffectsAux

namespace EffectsAux

open Credential Credential.LoginWindowAux

/-- A turn of a user whose first login gave the token. -/
def turn : Call :=
  .of "POST" chatTarget [("authorization", Bytes.ofText firstToken)]
    (Bytes.ofText "\x7b\"messages\":[\x7b\"role\":\"user\",\"content\":\"hi\"\x7d]\x7d")

/-- A stream of one text and the mark at its end, in two chunks. -/
def stream : List Bytes :=
  [Bytes.ofText "data: \x7b\"choices\":[\x7b\"delta\":\x7b\"content\":\"hello\"\x7d\x7d]\x7d\n\n", Bytes.ofText "data: [DONE]\n\n"]

/-- The turn with that stream for an answer. -/
def answered (patience : Patience) : Handled :=
  (Pipeline.chat { base := "http://backend" }).handle policy (fun _ => some ⟨200, [], stream, .complete⟩) 0 patience idle turn

end EffectsAux

end InferenceGate
