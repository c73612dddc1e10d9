import InferenceGate.Call.Sequel
import InferenceGate.Relay.Backend

/-!
# A call from end to end

The stages in order, up to the first that answers; then the backend, whose answer is handed through; then what follows the answer,
when the caller has it or has gone away. What follows an answer of the backend that is read to its end belongs to the body: it goes
no further than the caller waits for it. The backend is a function from the request to its reply, or to none where it cannot be
reached.
-/

namespace InferenceGate

open Http Relay

/-- A way that calls take through the gateway. -/
structure Pipeline where
  stages : List Stage
  sequels : List Sequel
  mode : Mode
  backend : Backend

/-- What became of a call: what the caller got, what the backend got, the call after its last stage, and what the books were told. -/
structure Handled where
  status : Nat
  fields : Fields
  reading : Reading
  sent : Option Request
  call : Call
  given : Given
  state : State

namespace Pipeline

/-- The chat pipeline. -/
def chat (backend : Backend) : Pipeline := ⟨[.auth, .quota, .context], [.context, .usage], .chat, backend⟩

/-- The pipeline of all other calls. -/
def proxy (backend : Backend) : Pipeline := ⟨[.auth], [.usage], .passthrough, backend⟩

/-- A call through stages: the call as it leaves the last of them, or as it was at the stage that answered and that answer. -/
def enter (p : Policy) (s : State) (c : Call) : List Stage → (Call × Option Response) × State
  | [] => ((c, none), s)
  | stage :: stages =>
    match stage.run p s c with
    | (.ok c, s) => enter p s c stages
    | (.error r, s) => ((c, some r), s)

/-- The body of an answer of the gateway, as the caller reads it. -/
def ownTee (body : Bytes) : Tee := { chunks := [body], ending := .complete, isOwed := false }

/-- An answer of the gateway itself. -/
def answerOwn (l : Pipeline) (latency : Nat) (patience : Patience) (c : Call) (sent : Option Request) (r : Response) (s : State) :
    Handled :=
  let given : Given := { status := r.status, body := r.body, latency, isOwn := true }
  { status := r.status
    fields := r.fields.insertAll c.replyFields
    reading := (ownTee r.body).read patience
    sent
    call := c
    given
    state := Sequel.runAll c given s l.sequels }

/-- An answer of the backend handed through. The books are told what the caller read, and a caller that goes away at the end of the body,
while it waits for what follows, is told of no fault. -/
def answerRelayed (l : Pipeline) (latency : Nat) (patience : Patience) (c : Call) (q : Request) (r : Reply) (s : State) : Handled :=
  let reading := r.tee.read patience
  let given : Given := { status := r.status, body := reading.tee.told.flatten, latency, isOwn := false }
  let followed := Sequel.follow c given s l.sequels (reading.waits? patience)
  { status := r.status
    fields := (callerFields l.mode r.fields).insertAll c.replyFields
    reading := { reading with failed := reading.failed && followed.1 }
    sent := some q
    call := c
    given
    state := followed.2 }

/-- The request that a call becomes. -/
def request (l : Pipeline) (c : Call) : Request := l.backend.request l.mode c.method c.target c.fields c.user c.body

/-- A call from end to end, for a caller with some patience. -/
def handle (l : Pipeline) (p : Policy) (replies : Request → Option Reply) (latency : Nat) (patience : Patience) (s : State)
    (c : Call) : Handled :=
  match enter p s c l.stages with
  | ((c, some r), s) => l.answerOwn latency patience c none r s
  | ((c, none), s) =>
    let q := l.request c
    match replies q with
    | some r => l.answerRelayed latency patience c q r s
    | none => l.answerOwn latency patience c (some q) badGateway s

end Pipeline

end InferenceGate
