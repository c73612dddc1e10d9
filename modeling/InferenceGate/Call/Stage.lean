import InferenceGate.Call.Basic
import InferenceGate.Chat.Turn
import InferenceGate.Credential.Gate
import InferenceGate.Quota.Ledger

/-!
# Stages before a call is relayed

A stage lets a call pass, with what it has found out about it, or answers it. There are three: who calls (`identify`), whether the
quota allows it (`charge`), and the conversation that a turn belongs to (`contextualize`).
-/

namespace InferenceGate

open Http

/-- What is the same for all calls: how callers are told apart, where the limits are read from, and how much of a conversation is
sent again. -/
structure Policy where
  gate : Credential.Gate
  limits : Option Quota.RateLimits := some {}
  maxHistory : Nat

/-- What calls change. -/
structure State where
  world : Store.World
  counters : Quota.CounterStore := .counting []
  settings : Quota.SettingsCache := {}
  versions : Credential.Versions := {}
  /-- The time by which tokens are judged, in seconds. -/
  second : Nat

namespace Call

/-- The error of a caller without a user. -/
def noUser : ApiError := .of .unauthorized "token is invalid or expired"

/-- The user of a call, if it has one with a positive id. -/
def knownUser? (c : Call) : Option Int := c.user.filter (0 < ·)

/-! ## Who calls -/

/-- The call with its user and role, if it carries a good token. -/
def identify (p : Policy) (s : State) (c : Call) : Except Response Call :=
  let target := (Target.parse? c.target).getD .root
  match p.gate.authenticate s.versions s.second c.fields target.query with
  | .ok claims => .ok { c with user := some claims.user, role := some claims.role }
  | .error f => .error f.apiError.response

/-! ## The quota -/

/-- The token cost of a call; a call without a body is charged for the reply alone. -/
def tokenCost (settings : Quota.Settings) (c : Call) : Except ApiError Nat :=
  if !settings.tokenEnabled then .ok 0
  else if c.body.isEmpty then .ok (Quota.payloadCost settings [])
  else c.payload.map (Quota.payloadCost settings)

/-- The error of a call beyond its quota. -/
def overQuota (d : Quota.Dimension) : ApiError :=
  (ApiError.of .tooManyRequests "rate limit exceeded").withDetails ("dimension=" ++ d.name)

/-- A call of a user charged by settings that count something. A ledger that cannot be reached lets it pass. -/
def chargeUser (settings : Quota.Settings) (user : Int) (s : State) (c : Call) : Except Response Call × State :=
  match c.tokenCost settings with
  | .error e => (.error e.response, s)
  | .ok cost =>
    match Quota.consume settings s.counters s.world.clock user 1 cost with
    | (.denied d, counters) => (.error (overQuota d).response, { s with counters })
    | (_, counters) => (.ok c, { s with counters })

/-- The call charged to its user. -/
def charge (p : Policy) (s : State) (c : Call) : Except Response Call × State :=
  match c.knownUser? with
  | none => (.error noUser.response, s)
  | some user =>
    let (settings, cache) := s.settings.get p.limits
    let s := { s with settings := cache }
    if settings.anyEnabled then c.chargeUser settings user s else (.ok c, s)

/-! ## The conversation -/

/-- The field that tells the caller of the conversation. -/
def conversationField : String := "x-conversation-id"

/-- The call with what was prepared for its turn. -/
def withPrepared (t : Chat.Prepared) (c : Call) : Call :=
  { c.withPayload t.payload with
    conversation := some t.conversation
    isNew := t.isNew
    model := if t.model.isEmpty then c.model else some t.model
    replyFields := c.replyFields.insert conversationField (Bytes.ofText (toString t.conversation)) }

/-- A turn of a user prepared. -/
def prepareTurn (p : Policy) (user : Int) (payload : Json.Members) (s : State) (c : Call) : Except Response Call × State :=
  match (Chat.prepare p.maxHistory user payload).run.run s.world with
  | (.ok t, world) => (.ok (c.withPrepared t), { s with world })
  | (.error f, world) => (.error f.apiError.response, { s with world })

/-- The call put into its conversation, if it is a turn. -/
def contextualize (p : Policy) (s : State) (c : Call) : Except Response Call × State :=
  if !c.isTurn then (.ok c, s)
  else
    match c.knownUser? with
    | none => (.error noUser.response, s)
    | some user =>
      match c.payload with
      | .error e => (.error e.response, s)
      | .ok payload => c.prepareTurn p user payload s

end Call

/-! ## Stages by name -/

/-- The stages. -/
inductive Stage where
  | auth | quota | context
  deriving DecidableEq

namespace Stage

/-- The name of a stage. -/
def name : Stage → String
  | .auth => "auth"
  | .quota => "quota"
  | .context => "context"

/-- A call at a stage: the call as it passes, or the answer to it. -/
def run (p : Policy) (s : State) (c : Call) : Stage → Except Response Call × State
  | .auth => (c.identify p s, s)
  | .quota => c.charge p s
  | .context => c.contextualize p s

end Stage

end InferenceGate
