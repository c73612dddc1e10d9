import InferenceGate.Server.Basic
import InferenceGate.Server.Endpoint
import InferenceGate.Server.Handshake
import InferenceGate.Server.Statement

/-!
# Requests served

Each request goes to the endpoint of its path. Calls to the backend go through a pipeline and carry an id; the gateway answers all
others itself, to the users they come from.
-/

namespace InferenceGate.Server

open Http
open Json (Value)

/-! ## Calls through a pipeline -/

/-- The field that carries the id of a request. -/
def idField : String := "x-request-id"

/-- The id that a request brings. -/
def Request.id? (q : Request) : Option String := (q.fields.text? idField).bind Text.trimmed?

/-- A request as a call. -/
def Request.call (q : Request) : Call := .of q.method q.target.bytes q.fields q.body

/-- The answer to a body that is too large. -/
def tooLarge : Response :=
  ((ApiError.of .invalidParam "failed to read request body").withDetails "length limit exceeded").response

/-- A request through a pipeline, its id in the answer; one with too large a body does not get that far. -/
def through (v : Server) (l : Pipeline) (x : Circumstances) (s : State) (q : Request) : Answer × State :=
  let id := Bytes.ofText (q.id?.getD x.freshId)
  if v.maxBody < q.body.length then
    (.ofResponse { tooLarge with fields := tooLarge.fields.insert idField id }, s)
  else
    let h := l.handle v.policy x.replies x.latency x.patience s q.call
    ({ status := h.status
       fields := h.fields.insert idField id
       body := h.reading.frames.flatten
       failed := h.reading.failed
       sent := h.sent }, h.state)

/-! ## Calls that the gateway answers -/

/-- The user that a request comes from. -/
def caller (v : Server) (s : State) (q : Request) : Except ApiError Int :=
  match v.policy.gate.authenticate s.versions s.second q.fields q.target.query with
  | .ok claims => .ok claims.user
  | .error f => .error f.apiError

/-- The answer with what `answer` has for the user that a request comes from. -/
def answerUser (v : Server) (s : State) (q : Request) (answer : Int → Except ApiError Value) : Response :=
  match (v.caller s q).bind answer with
  | .ok data => success data
  | .error e => e.response

/-- The query of a request; an absent one is empty. -/
def Request.query (q : Request) : Bytes := q.target.query.getD []

/-- The answer to an id that spells no text. -/
def illegibleId : Response := textResponse 400 "Invalid URL: Invalid UTF-8 in `conversation_id`"

/-- The answer to a body too large to be read as a whole. -/
def unbuffered : Response := textResponse 413 "Failed to buffer the request body: length limit exceeded"

/-- A page of the messages of a conversation, whose id may be escaped. -/
def messages (v : Server) (s : State) (q : Request) (id : Bytes) : Response :=
  match Bytes.text? (unescape id) with
  | none => illegibleId
  | some id => v.answerUser s q fun user => Listing.messages v.sizes s.world user id q.query

/-- A statement of a day. -/
def statement (v : Server) (s : State) (q : Request) : Response :=
  if Statement.maxBody < q.body.length then unbuffered
  else v.answerUser s q fun user => Statement.daily s.world user q.body

/-- A connection opened for a user, or the reason why not. -/
def messaging (v : Server) (x : Circumstances) (s : State) (q : Request) : Answer :=
  match v.caller s q with
  | .error e => .ofResponse e.response
  | .ok user =>
    match Handshake.fault? q.method q.fields x.staysOpen with
    | some f => .ofResponse f.response
    | none => { status := 101, fields := [], body := [], opened := some user }

/-- What the gateway answers to a request at an endpoint whose method is right. -/
def atEndpoint (v : Server) (x : Circumstances) (s : State) (q : Request) : Endpoint → Answer × State
  | .chat => v.through v.chat x s q
  | .backend => v.through v.proxy x s q
  | .conversations =>
    (.ofResponse (v.answerUser s q fun user => Listing.conversations v.sizes s.world user q.query), s)
  | .messages id => (.ofResponse (v.messages s q id), s)
  | .usageTotal => (.ofResponse (v.answerUser s q (Statement.total s.world)), s)
  | .usageStats => (.ofResponse (v.statement s q), s)
  | .messaging => (v.messaging x s q, s)

/-! ## All requests -/

/-- The answer at a path that leads nowhere. -/
def noEndpoint : Response := ⟨404, [], []⟩

/-- The answer to a method that an endpoint does not take. -/
def wrongMethod (methods : List String) : Response := ⟨405, [("allow", Bytes.ofText (",".intercalate methods))], []⟩

/-- The answer to a request, and what it changes. Where the gateway itself answers a request for the head alone, it leaves out the
body. -/
def serve (v : Server) (x : Circumstances) (s : State) (q : Request) : Answer × State :=
  match Endpoint.ofPath? q.target.path with
  | none => (.ofResponse noEndpoint, s)
  | some e =>
    match e.methods? with
    | none => v.atEndpoint x s q e
    | some methods =>
      if methods.contains q.method then
        let (a, s) := v.atEndpoint x s q e
        (if q.method == "HEAD" then a.headOnly else a, s)
      else (.ofResponse (wrongMethod methods), s)

end InferenceGate.Server
