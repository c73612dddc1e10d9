import InferenceGate.Credential.Base64Url
import InferenceGate.Credential.Claims
import InferenceGate.Credential.HeaderKey
import InferenceGate.Http.Api

/-!
# Signed tokens

A token is a header, claims and a signature, each in base64 and joined by points; the signature is the code of the first two
under a secret. What else is asked of a token stands in a `Validation`, and the gateway has one of its own (`Validation.inForce`):
`verify` accepts a token whose header names the one algorithm there is, whose signature is right and whose claims hold now, and says
of any other why not. The code is a parameter: nothing here depends on how it is computed.
-/

namespace InferenceGate.Credential

open Json Document

/-- Why a caller is not let in. -/
inductive Fault where
  | missingToken
  | emptySecret
  | malformed
  | unsupportedAlgorithm
  | invalidSignature
  | expired
  | notYetValid
  | deviceLimit
  deriving DecidableEq

namespace Fault

/-- The text of a fault. -/
def message : Fault → String
  | .missingToken => "token is required"
  | .emptySecret => "signing secret is empty"
  | .malformed => "malformed token"
  | .unsupportedAlgorithm => "unsupported token algorithm"
  | .invalidSignature => "token signature mismatch"
  | .expired => "token expired"
  | .notYetValid => "token not valid yet"
  | .deviceLimit => "login device limit reached"

/-- What the client is told of a fault. -/
def apiError (f : Fault) : Http.ApiError :=
  match f with
  | .missingToken | .deviceLimit => .of .unauthorized f.message
  | _ => .of .unauthorized "token is invalid or expired"

end Fault

/-- A code that authenticates a message under a key. -/
abbrev Code := Bytes → Bytes → Bytes

/-- The point between the parts of a token. -/
def point : UInt8 := 0x2e

/-- The one algorithm that tokens are signed with. -/
def algorithm : String := "HS256"

/-- The algorithms a header may name. -/
def knownAlgorithms : List String :=
  ["HS256", "HS384", "HS512", "ES256", "ES384", "RS256", "RS384", "RS512", "PS256", "PS384", "PS512", "EdDSA"]

/-- The header of the tokens that are signed here. -/
def header : Bytes :=
  Bytes.ofText (Value.object [("typ", .string "JWT"), ("alg", .string algorithm)]).render

/-- The text that a token's signature is the code of. -/
def signedText (payload : Bytes) : Bytes := Base64Url.encode header ++ point :: Base64Url.encode payload

/-- A token with claims, signed under a secret. -/
def sign (code : Code) (secret : Bytes) (c : Claims) : Except Fault Bytes :=
  if secret.isEmpty then .error .emptySecret
  else
    let text := signedText (Bytes.ofText c.value.render)
    .ok (text ++ point :: Base64Url.encode (code secret text))

/-- What stands before the last point and after it. -/
def cutLast? (bs : Bytes) : Option (Bytes × Bytes) :=
  match Bytes.cut point bs.reverse with
  | (_, none) => none
  | (last, some rest) => some (rest.reverse, last.reverse)

/-- The members of a header that are texts where they are present. -/
def headerTexts : List String := ["typ", "cty", "jku", "kid", "x5u", "x5t", "x5t#S256", "enc", "zip", "url", "nonce"]

/-- The members of a header that are lists of texts where they are present. -/
def headerLists : List String := ["crit", "x5c"]

/-- The form of a member of a header. -/
def headerMember (name : String) (t : Json.Tree) : Bool :=
  if headerTexts.contains name then (Tree.optional? Tree.text? t).isSome
  else if headerLists.contains name then (Tree.optional? (Tree.listOf? Tree.text?) t).isSome
  else if name == "jwk" then isNull t || isKey t
  else if name == "alg" then (wordOf? isNull t).any knownAlgorithms.contains
  else t.text?.isSome

/-- The members of a header with their names, each known name at most once. -/
def headerMembers? : Json.Tree → Option (List (String × Json.Tree))
  | .table ms => do
    let named ← namedMembers? ms
    if givenOnce ("alg" :: "jwk" :: headerTexts ++ headerLists) named then some named else none
  | _ => none

/-- The algorithm that a header names. -/
def algorithmOf? (bs : Bytes) : Option String := do
  let decoded ← Base64Url.decode? bs
  let tree ← Json.read? decoded
  let ms ← headerMembers? tree
  let name ← (ms.lookup "alg").bind (wordOf? isNull)
  if ms.all fun m => headerMember m.1 m.2 then some name else none

/-- What is asked of a token beside its signature. -/
structure Validation where
  /-- The algorithms that its header may name. -/
  algorithms : List String
  /-- The members that its payload must have, each in its form. -/
  required : List Rules.Member
  /-- By how many seconds the clocks of two parties may differ. -/
  leeway : Nat
  /-- A token is refused once it has ended. -/
  judgesEnd : Bool
  /-- A token is refused until it begins. -/
  judgesBegin : Bool

namespace Validation

/-- What the gateway asks of a token: the one algorithm, an end, and both times to the second. -/
def inForce : Validation where
  algorithms := [algorithm]
  required := [.expires]
  leeway := 0
  judgesEnd := true
  judgesBegin := true

/-- What is wrong with a payload at a time in seconds, by what the rules find in it. A time that is judged must have its form, and a
token for an audience is not for the gateway. -/
def fault? (v : Validation) (now : Nat) (r : Rules) : Option Fault :=
  if !v.required.all r.has then some .malformed
  else if (v.judgesEnd && r.expires = .improper) || (v.judgesBegin && r.notBefore = .improper) then some .malformed
  else if v.judgesEnd && r.expires.any fun t => t + v.leeway < now then some .expired
  else if v.judgesBegin && r.notBefore.any fun t => now + v.leeway < t then some .notYetValid
  else if r.audience = .proper () then some .malformed
  else none

/-- The claims that a payload spells, unless something is wrong with it at a time in seconds. -/
def judge (v : Validation) (now : Nat) (payload : Bytes) : Except Fault Claims :=
  match (Base64Url.decode? payload).bind Json.read? with
  | none => .error .malformed
  | some tree =>
    match Claims.read? tree, Rules.read? tree with
    | some c, some r => (v.fault? now r).elim (.ok c) .error
    | _, _ => .error .malformed

/-- The claims of a token that is all that is asked of it at a time in seconds. -/
def verify (v : Validation) (code : Code) (secret : Bytes) (now : Nat) (token : Bytes) : Except Fault Claims :=
  if secret.isEmpty then .error .emptySecret
  else
    match cutLast? token with
    | none => .error .malformed
    | some (text, signature) =>
      match cutLast? text with
      | none => .error .malformed
      | some (head, payload) =>
        match algorithmOf? head with
        | none => .error .malformed
        | some name =>
          if !v.algorithms.contains name then .error .unsupportedAlgorithm
          else
            match Base64Url.decode? signature with
            | none => .error .malformed
            | some given => if given != code secret text then .error .invalidSignature else v.judge now payload

end Validation

/-- The claims of a token at a time in seconds. -/
def verify (code : Code) (secret : Bytes) (now : Nat) (token : Bytes) : Except Fault Claims :=
  Validation.inForce.verify code secret now token

end InferenceGate.Credential
