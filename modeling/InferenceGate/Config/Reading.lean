import InferenceGate.Config.Basic
import InferenceGate.Json.Reading
import InferenceGate.Toml.Reading
import InferenceGate.Yaml.Reading

/-!
# Reading a configuration

A configuration is a document of one of three formats, known by the extension of its file. Members that no section knows are passed
over; a member of the wrong kind refuses the whole.
-/

namespace InferenceGate.Config

open Document

/-! ## Sections -/

section Sections

variable {α : Type} [Scalar α]

/-- The greatest word of 32 bits. -/
def maxU32 : Nat := 4294967295

/-- The greatest word of 16 bits. -/
def maxU16 : Nat := 65535

/-- A member with a default. -/
def orElse {β : Type} (found : Found α) (name : String) (usual : β) (read : Document.Tree α → Option β) : Option β :=
  found.getD name usual read

/-- A table of texts, the later of two of one name counting, in the order of the names. -/
def texts? : Document.Tree α → Option (List (String × String))
  | .leaf a => if Scalar.isEmptyRecord a then some [] else none
  | .list _ => none
  | .table members => do
    let pairs ← members.mapM fun m => do
      let name ← Scalar.name? m.1
      let text ← m.2.text?
      return (name, text)
    return pairs.foldl put []
where
  /-- A text under a name, in the order of the names. -/
  put (done : List (String × String)) (p : String × String) : List (String × String) :=
    done.filter (·.1 < p.1) ++ p :: done.filter (p.1 < ·.1)

/-- The section of the backend. -/
def backend? (t : Document.Tree α) : Option Backend := do
  let r ← t.record? [{ name := "base_url" }, { name := "connect_timeout_secs" }, { name := "request_timeout_secs" },
    { name := "headers" }]
  let base ← orElse r "base_url" "" Tree.text?
  let connectTimeout ← orElse r "connect_timeout_secs" 10 (Tree.natural? maxU64)
  let requestTimeout ← r.optional? "request_timeout_secs" (Tree.natural? maxU64)
  let fields ← orElse r "headers" [] texts?
  return { base, connectTimeout, requestTimeout, fields }

/-- The section on callers. -/
def auth? (t : Document.Tree α) : Option Auth := do
  let r ← t.record? [{ name := "jwt_secret" }, { name := "jwt_secret_env" }, { name := "login_device_max" }]
  let secret ← r.optional? "jwt_secret" Tree.text?
  let secretVariable ← r.optional? "jwt_secret_env" Tree.text?
  let deviceWindow ← orElse r "login_device_max" 3 (Tree.natural? maxU64)
  return { secret, secretVariable, deviceWindow }

/-- The section of the limits. -/
def limits? (t : Document.Tree α) : Option Quota.RateLimits := do
  let r ← t.record? [{ name := "request_per_min" }, { name := "token_per_min" }, { name := "token_k" },
    { name := "default_max_tokens" }, { name := "window_seconds" }, { name := "redis_prefix" }]
  let requestPerMin ← orElse r "request_per_min" 0 Tree.i64?
  let tokenPerMin ← orElse r "token_per_min" 0 Tree.i64?
  let tokenUnit ← orElse r "token_k" 0 Tree.i64?
  let defaultMaxTokens ← orElse r "default_max_tokens" 0 Tree.i64?
  let windowSeconds ← orElse r "window_seconds" 0 Tree.i64?
  let keyHead ← orElse r "redis_prefix" "" Tree.text?
  return { requestPerMin, tokenPerMin, tokenUnit, defaultMaxTokens, windowSeconds, keyHead }

/-- The section on what is sent again. -/
def history? (t : Document.Tree α) : Option History := do
  let r ← t.record? [{ name := "max_messages" }]
  let messages ← orElse r "max_messages" usualHistory (Tree.natural? maxU64)
  return { messages }

/-- The section of the pages. -/
def paging? (t : Document.Tree α) : Option Paging := do
  let r ← t.record? [{ name := "default_page_size" }, { name := "max_page_size" }, { name := "default_message_page_size" },
    { name := "max_message_page_size" }]
  let conversations ← orElse r "default_page_size" 20 (Tree.natural? maxU32)
  let maxConversations ← orElse r "max_page_size" 100 (Tree.natural? maxU32)
  let messages ← orElse r "default_message_page_size" 50 (Tree.natural? maxU32)
  let maxMessages ← orElse r "max_message_page_size" 200 (Tree.natural? maxU32)
  return { conversations, maxConversations, messages, maxMessages }

/-- The section on where things are kept. -/
def storage? (t : Document.Tree α) : Option Storage := do
  let r ← t.record? [{ name := "sqlite_path" }, { name := "redis_url" }, { name := "redis_prefix" }]
  let path ← r.optional? "sqlite_path" Tree.text?
  let counterAddress ← r.optional? "redis_url" Tree.text?
  let counterHead ← r.optional? "redis_prefix" Tree.text?
  return { path, counterAddress, counterHead }

/-- The section of the connections: what their channels begin with. -/
def channelKey? (t : Document.Tree α) : Option String := do
  let r ← t.record? [{ name := "publish_key" }]
  orElse r "publish_key" usualChannelKey Tree.text?

/-- A configuration from a document. -/
def read? (t : Document.Tree α) : Option Config := do
  let r ← t.record? [{ name := "listen" }, { name := "backend" }, { name := "auth" }, { name := "rate_limit" },
    { name := "history" }, { name := "conversations" }, { name := "store" }, { name := "chat_ws" }, { name := "node_id" },
    { name := "proxy_max_body_bytes" }]
  let listen ← orElse r "listen" "127.0.0.1:8080" Tree.text?
  let backend ← orElse r "backend" {} backend?
  let auth ← orElse r "auth" {} auth?
  let limits ← orElse r "rate_limit" {} limits?
  let history ← orElse r "history" {} history?
  let paging ← orElse r "conversations" {} paging?
  let storage ← orElse r "store" {} storage?
  let channelKey ← orElse r "chat_ws" usualChannelKey channelKey?
  let node ← orElse r "node_id" 1 (Tree.natural? maxU16)
  let maxBody ← orElse r "proxy_max_body_bytes" 67108864 (Tree.natural? maxU64)
  return { listen, backend, auth, limits, history, paging, storage, channelKey, node, maxBody }

end Sections

/-! ## Formats -/

/-- The formats of a configuration. -/
inductive Format where
  | json | yaml | toml
  deriving DecidableEq

/-- The format of a name. -/
def Format.ofName? (name : String) : Option Format :=
  if name == "json" then some .json
  else if name == "yaml" || name == "yml" then some .yaml
  else if name == "toml" then some .toml
  else none

/-- Why there is no configuration. -/
inductive Fault where
  | unreadable
  | malformed (f : Format)
  | unsupported (name : String)
  | invalid (i : Invalid)
  deriving DecidableEq

/-- The text of a fault. -/
def Fault.message : Fault → String
  | .unreadable => "failed to read config"
  | .malformed .json => "json config error"
  | .malformed .yaml => "yaml config error"
  | .malformed .toml => "toml config error"
  | .unsupported name => "unsupported config format: " ++ name
  | .invalid i => i.message

/-- How deep a document is looked at: its sections, their members, and the texts of a member that is a table. -/
def depth : Nat := 4

/-- A configuration from the text of a format, not yet checked. -/
def Format.read? (f : Format) (raw : String) : Option Config :=
  match f with
  | .json => (Json.read? (Bytes.ofText raw)).bind Config.read?
  | .yaml => (Yaml.read? depth raw).bind Config.read?
  | .toml => (Toml.read? raw).bind Config.read?

/-- The configuration that a text of a format spells. -/
def parse (raw format : String) : Except Fault Config :=
  match Format.ofName? format with
  | none => .error (.unsupported format)
  | some f =>
    match f.read? raw with
    | none => .error (.malformed f)
    | some c =>
      match c.fault? with
      | some i => .error (.invalid i)
      | none => .ok c

/-- The extension of a file's name: what follows its last point, unless nothing stands before that. -/
def extension (name : String) : String :=
  let fromLast := name.toList.reverse.takeWhile (· != '.')
  if fromLast.length + 1 < name.length then String.ofList fromLast.reverse else ""

/-- The configuration of a file with a name and the bytes in it, if there is such a file. -/
def ofFile (name : String) (content : Option Bytes) : Except Fault Config :=
  match content.bind Bytes.text? with
  | none => .error .unreadable
  | some raw => parse raw (Text.lowerAscii (extension name))

/-- The limits that a file gives. -/
def limitsOfFile (name : String) (content : Option Bytes) : Option Quota.RateLimits :=
  ((ofFile name content).toOption).map Config.limits

end InferenceGate.Config
