import InferenceGate.Ids
import InferenceGate.Json.Value
import InferenceGate.Quota.Settings
import InferenceGate.Text.Quoted

/-!
# The configuration

What an operator sets: where the backend is, how callers are told apart, the limits, how much of a conversation is sent again, the
sizes of pages, where things are kept. Every section and every member has a value that stands where none is given.
-/

namespace InferenceGate.Config

open Json (Value)

/-- Where the backend is, and how it is called. -/
structure Backend where
  base : String := ""
  connectTimeout : Nat := 10
  requestTimeout : Option Nat := none
  /-- The fields that every call to it carries, in the order of their names. -/
  fields : List (String × String) := []
  deriving DecidableEq

/-- How callers are told apart. -/
structure Auth where
  secret : Option String := none
  /-- The environment variable that holds the secret where it is not given here. -/
  secretVariable : Option String := none
  deviceWindow : Nat := 3
  deriving DecidableEq

/-- The messages of a conversation that are sent again where none are given. -/
def usualHistory : Nat := 20

/-- The most messages of a conversation that are sent again. -/
def maxHistory : Nat := 200

/-- How much of a conversation is sent again. -/
structure History where
  messages : Nat := usualHistory
  deriving DecidableEq

/-- The messages that are sent again: those given up to the most, or the usual where none are. -/
def History.effective (h : History) : Nat := if h.messages == 0 then usualHistory else min h.messages maxHistory

/-- The sizes of pages. -/
structure Paging where
  conversations : Nat := 20
  maxConversations : Nat := 100
  messages : Nat := 50
  maxMessages : Nat := 200
  deriving DecidableEq

/-- Where things are kept. -/
structure Storage where
  path : Option String := none
  counterAddress : Option String := none
  counterHead : Option String := none
  deriving DecidableEq

end Config

/-- What the channels of users begin with where nothing else is given. -/
def Config.usualChannelKey : String := "ditto:chat"

/-- The configuration of a gateway. -/
structure Config where
  listen : String := "127.0.0.1:8080"
  backend : Config.Backend := {}
  auth : Config.Auth := {}
  limits : Quota.RateLimits := {}
  history : Config.History := {}
  paging : Config.Paging := {}
  storage : Config.Storage := {}
  /-- What the channels of users begin with. -/
  channelKey : String := Config.usualChannelKey
  node : Nat := 1
  /-- The largest body of a request. -/
  maxBody : Nat := 67108864
  deriving DecidableEq

namespace Config

open Json (Value)

/-! ## Checks -/

/-- What is wrong with a configuration. -/
inductive Invalid where
  | noBackend
  | nodeTooGreat
  | noSecret
  | emptyVariable (name : String)
  deriving DecidableEq

/-- The text of what is wrong. -/
def Invalid.message : Invalid → String
  | .noBackend => "invalid config: backend.base_url is required"
  | .nodeTooGreat => "invalid config: node_id must be <= " ++ toString Ids.maxNode
  | .noSecret => "invalid config: auth.jwt_secret is required"
  | .emptyVariable name => "invalid config: env " ++ name ++ " is empty or unset"

/-- What is wrong with a configuration, if anything is. -/
def fault? (c : Config) : Option Invalid :=
  if Text.isBlankText c.backend.base then some .noBackend
  else if Ids.maxNode < c.node then some .nodeTooGreat
  else none

/-- The secret that tokens are signed with: the one given, or else that of the environment. -/
def Auth.resolve (a : Auth) (environment : String → Option String) : Except Invalid String :=
  match a.secret.bind Text.trimmed? with
  | some s => .ok s
  | none =>
    match a.secretVariable with
    | none => .error .noSecret
    | some name =>
      match (environment name).bind Text.trimmed? with
      | some s => .ok s
      | none => .error (.emptyVariable name)

/-! ## How it is shown -/

/-- The configuration as an object. -/
def value (c : Config) : Value :=
  .object [("listen", .string c.listen),
    ("backend", .object [("base_url", .string c.backend.base), ("connect_timeout_secs", .ofNat c.backend.connectTimeout),
      ("request_timeout_secs", .ofInt? (c.backend.requestTimeout.map Int.ofNat)),
      ("headers", .object (c.backend.fields.map fun f => (f.1, .string f.2)))]),
    ("auth", .object [("jwt_secret", .ofText? c.auth.secret), ("jwt_secret_env", .ofText? c.auth.secretVariable),
      ("login_device_max", .ofNat c.auth.deviceWindow)]),
    ("rate_limit", .object [("request_per_min", .ofInt c.limits.requestPerMin), ("token_per_min", .ofInt c.limits.tokenPerMin),
      ("token_k", .ofInt c.limits.tokenUnit), ("default_max_tokens", .ofInt c.limits.defaultMaxTokens),
      ("window_seconds", .ofInt c.limits.windowSeconds), ("redis_prefix", .string c.limits.keyHead)]),
    ("history", .object [("max_messages", .ofNat c.history.messages)]),
    ("conversations", .object [("default_page_size", .ofNat c.paging.conversations),
      ("max_page_size", .ofNat c.paging.maxConversations), ("default_message_page_size", .ofNat c.paging.messages),
      ("max_message_page_size", .ofNat c.paging.maxMessages)]),
    ("store", .object [("sqlite_path", .ofText? c.storage.path), ("redis_url", .ofText? c.storage.counterAddress),
      ("redis_prefix", .ofText? c.storage.counterHead)]),
    ("chat_ws", .object [("publish_key", .string c.channelKey)]), ("node_id", .ofNat c.node),
    ("proxy_max_body_bytes", .ofNat c.maxBody)]

/-- A value that may be absent, as shown. -/
def shownOption (a : Option String) : String :=
  match a with
  | some t => "Some(" ++ t ++ ")"
  | none => "None"

/-- How a backend is shown: its fields are not. -/
def Backend.describe (b : Backend) : String :=
  "BackendConfig \x7b base_url: " ++ Text.quoted b.base ++ ", connect_timeout_secs: " ++ toString b.connectTimeout ++
    ", request_timeout_secs: " ++ shownOption (b.requestTimeout.map toString) ++ ", headers: \"<redacted>\" \x7d"

/-- How the ways to tell callers apart are shown: the secret is not. -/
def Auth.describe (a : Auth) : String :=
  "AuthConfig \x7b jwt_secret: " ++ shownOption (a.secret.map fun _ => "\"<redacted>\"") ++ ", jwt_secret_env: " ++
    shownOption (a.secretVariable.map Text.quoted) ++ ", login_device_max: " ++ toString a.deviceWindow ++ " \x7d"

/-- How settings are shown. -/
def describeSettings (s : Quota.Settings) : String :=
  "RateLimitSettings \x7b request_per_min: " ++ toString s.requestPerMin ++ ", token_per_min: " ++ toString s.tokenPerMin ++
    ", token_k: " ++ toString s.tokenUnit ++ ", default_max_tokens: " ++ toString s.defaultMaxTokens ++ ", window_seconds: " ++
    toString s.windowSeconds ++ ", prefix: " ++ Text.quoted s.keyHead ++ " \x7d"

/-- How a cache of settings is shown. -/
def describeCache (c : Quota.SettingsCache) : String :=
  "RateLimitConfigCache \x7b current: " ++ describeSettings c.current ++ " \x7d"

end Config

end InferenceGate
