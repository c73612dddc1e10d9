import InferenceGate.Credential.Digest
import InferenceGate.Credential.Token
import InferenceGate.Http.Query
import InferenceGate.Http.Uri
import InferenceGate.Text.Blank

/-!
# Who calls

The token of a call stands in its authorization field or else in its query. Each login of a user raises the version of the tokens
issued; a token is good while its version is within the window of the newest ones.
-/

namespace InferenceGate.Credential

/-- The scheme that a token may follow. -/
def scheme : String := "bearer "

/-- A value without the scheme at its beginning, in any case of letters. -/
def withoutScheme (value : String) : String :=
  let cs := value.toList
  if Text.lowerAscii (String.ofList (cs.take scheme.length)) == scheme then Text.trim (String.ofList (cs.drop scheme.length))
  else value

/-- The token of the authorization field. -/
def fieldToken? (fields : Http.Fields) : Option String :=
  ((fields.text? "authorization").map fun v => withoutScheme (Text.trim v)).filter fun t => !t.isEmpty

/-- The token of the query. -/
def queryToken? (query : Option Bytes) : Option String := (Http.formValue? (query.getD []) "token").bind Text.trimmed?

/-- The token of a call: that of the field goes before that of the query. -/
def token? (fields : Http.Fields) (query : Option Bytes) : Option String := (fieldToken? fields).or (queryToken? query)

/-- The version of each user's newest tokens; a user without one has version zero. -/
structure Versions where
  entries : List (Int × Nat) := []
  /-- The versions can be looked up. -/
  reachable : Bool := true

namespace Versions

/-- The newest version of a user. -/
def latest (vs : Versions) (user : Int) : Nat := (vs.entries.lookup user).getD 0

/-- The version of a user set. -/
def set (vs : Versions) (user : Int) (version : Nat) : Versions :=
  { vs with entries := (user, version) :: vs.entries.filter (·.1 != user) }

/-- A login of a user: the version of the token it is given. -/
def login (vs : Versions) (user : Int) : Nat × Versions :=
  let version := addCapped (vs.latest user) 1
  (version, vs.set user version)

/-- The version looked up for a call; zero while versions cannot be looked up. -/
def lookedUp (vs : Versions) (user : Int) : Nat := if vs.reachable then vs.latest user else 0

end Versions

/-- How callers are told apart: the secret that tokens are signed with, and how many logins stay good. -/
structure Gate where
  secret : Bytes
  window : Nat

/-- How far two versions are apart. -/
def distance (a b : Nat) : Nat := (a - b) + (b - a)

/-- The claims of a token whose version is in the window. -/
def Gate.accept (g : Gate) (vs : Versions) (c : Claims) : Except Fault Claims :=
  if g.window ≤ distance (vs.lookedUp c.user) c.version then .error .deviceLimit else .ok c

/-- The claims of a caller at a time in seconds. -/
def Gate.authenticate (g : Gate) (vs : Versions) (now : Nat) (fields : Http.Fields) (query : Option Bytes) :
    Except Fault Claims :=
  match token? fields query with
  | none => .error .missingToken
  | some t =>
    match verify Digest.authenticate g.secret now (Bytes.ofText t) with
    | .error f => .error f
    | .ok c => g.accept vs c

/-- How a gate is shown: its secret is not. -/
def Gate.describe (g : Gate) : String :=
  "AuthGate \x7b secret: \"<redacted>\", login_device_max: " ++ toString g.window ++ ", .. \x7d"

end InferenceGate.Credential
