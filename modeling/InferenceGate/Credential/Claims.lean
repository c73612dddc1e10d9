import InferenceGate.Json.Printing
import InferenceGate.Json.Reading

/-!
# Claims

What a token says of its holder, and how that is written and read. A claim that is absent is not written; a role or a version
that is absent is empty or zero.
-/

namespace InferenceGate.Credential

open Json Document

/-- What a token says of its holder; times are in seconds. -/
structure Claims where
  user : Int
  role : String := ""
  version : Nat := 0
  subject : Option String := none
  expires : Option Int := none
  notBefore : Option Int := none
  issued : Option Int := none
  deriving DecidableEq

namespace Claims

/-- Claims of a user that hold from a time for a number of seconds. -/
def lasting (user : Int) (role : String) (version : Nat) (now seconds : Int) : Claims where
  user := user
  role := role
  version := version
  subject := some (toString user)
  expires := some (clampI64 (now + seconds))
  notBefore := some now
  issued := some now

/-- Claims as an object, in the order in which they are written. -/
def value (c : Claims) : Value :=
  .object ([("user_id", Value.ofInt c.user), ("role", .string c.role), ("Version", .ofNat c.version)] ++
    (c.subject.map fun s => ("sub", Value.string s)).toList ++ (c.expires.map fun t => ("exp", Value.ofInt t)).toList ++
    (c.notBefore.map fun t => ("nbf", Value.ofInt t)).toList ++ (c.issued.map fun t => ("iat", Value.ofInt t)).toList)

/-- Claims from a document. -/
def read? (t : Json.Tree) : Option Claims := do
  let r ← t.record? [{ name := "user_id" }, { name := "role" }, { name := "Version" }, { name := "sub" }, { name := "exp" },
    { name := "nbf" }, { name := "iat" }]
  let user ← r.required? "user_id" Tree.i64?
  let role ← r.getD "role" "" Tree.text?
  let version ← r.getD "Version" 0 (Tree.natural? maxU64)
  let subject ← r.optional? "sub" Tree.text?
  let expires ← r.optional? "exp" Tree.i64?
  let notBefore ← r.optional? "nbf" Tree.i64?
  let issued ← r.optional? "iat" Tree.i64?
  return { user, role, version, subject, expires, notBefore, issued }

end Claims

/-- A member that the rules of tokens speak of: absent, of the form they ask for, or of another. -/
inductive Ruled (α : Type) where
  | absent
  | proper (a : α)
  | improper
  deriving DecidableEq

/-- The member has its form, and what it says passes a test. -/
def Ruled.any {α : Type} (r : Ruled α) (p : α → Bool) : Bool :=
  match r with
  | .proper a => p a
  | .absent | .improper => false

/-- The members that the rules of tokens speak of, whatever else the claims are. -/
structure Rules where
  expires : Ruled Nat
  notBefore : Ruled Nat
  audience : Ruled Unit

/-- The members that the rules of tokens speak of, by name. -/
inductive Rules.Member where
  | expires | notBefore | audience
  deriving DecidableEq

/-- A member is there in its form. -/
def Rules.has (r : Rules) : Member → Bool
  | .expires => r.expires.any fun _ => true
  | .notBefore => r.notBefore.any fun _ => true
  | .audience => r.audience.any fun _ => true

/-- A time: an unsigned word. Null is of another form. -/
def timeOf (t : Json.Tree) : Ruled Nat :=
  match t.natural? maxU64 with
  | some n => .proper n
  | none => .improper

/-- An audience: a text or a list of texts. Null is absent. -/
def audienceOf : Json.Tree → Ruled Unit
  | .leaf .null => .absent
  | t => if t.text?.isSome || (Tree.listOf? Tree.text? t).isSome then .proper () else .improper

/-- A member whose form is open can be read to its end: a list or a table has a value, and a scalar is not half of a pair. -/
def isReadable : Json.Tree → Bool
  | .leaf .halved => false
  | .leaf _ => true
  | t => (valueOf? (maxDepth - 1) t).isSome

/-- The members that the rules speak of, from a table. -/
def Rules.read? : Json.Tree → Option Rules
  | .table ms => do
    let r ← fromMembers [{ name := "exp" }, { name := "nbf" }, { name := "sub" }, { name := "iss" }, { name := "aud" }] ms []
    let ruled {α : Type} (name : String) (of : Json.Tree → Ruled α) : Ruled α := (r.get? name).elim .absent of
    if ["iss", "aud"].all fun name => (r.get? name).all isReadable then
      some { expires := ruled "exp" timeOf, notBefore := ruled "nbf" timeOf, audience := ruled "aud" audienceOf }
    else none
  | _ => none

end InferenceGate.Credential
