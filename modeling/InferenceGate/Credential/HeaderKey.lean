import InferenceGate.Json.Reading

/-!
# Keys in headers

A header may carry a key. No token is verified under it, yet a header is refused whose key cannot be read: one that is not a
table, that holds a value that has none, that gives a member of any key twice or in another form, or that is of no kind of key
(`KeyKind`). The members that neither all keys nor its kind speak of are passed over.
-/

namespace InferenceGate.Credential

open Json Document

/-- The members of a table with their names; none when a name is no text. -/
def namedMembers? (ms : List (Atom × Json.Tree)) : Option (List (String × Json.Tree)) :=
  ms.mapM fun m => (Scalar.name? m.1).map (·, m.2)

/-- No name of a list is given more than once. -/
def givenOnce (names : List String) (ms : List (String × Json.Tree)) : Bool :=
  names.all fun n => (ms.filter fun m => m.1 == n).length ≤ 1

/-- The member given under a name, if it is given exactly once. -/
def sole? (ms : List (String × Json.Tree)) (name : String) : Option Json.Tree :=
  match ms.filter fun m => m.1 == name with
  | [m] => some m.2
  | _ => none

/-- Null. -/
def isNull : Json.Tree → Bool
  | .leaf .null => true
  | _ => false

/-- Null or an empty table. -/
def isVoid : Json.Tree → Bool
  | .table [] => true
  | t => isNull t

/-- A word out of a choice: a text, or the name of the only member of a table, which must hold nothing. -/
def wordOf? (holdsNothing : Json.Tree → Bool) : Json.Tree → Option String
  | .table [(name, t)] => if holdsNothing t then Scalar.name? name else none
  | t => t.text?

/-- A kind of key: its word, whether it lies on a curve, and the texts it is made of. -/
structure KeyKind where
  word : String
  onCurve : Bool
  parts : List String

/-- The kinds of keys. -/
def keyKinds : List KeyKind :=
  [⟨"EC", true, ["x", "y"]⟩, ⟨"RSA", false, ["n", "e"]⟩, ⟨"oct", false, ["k"]⟩, ⟨"OKP", true, ["x"]⟩]

/-- The curves that keys lie on. -/
def curves : List String := ["P-256", "P-384", "P-521", "Ed25519"]

/-- The members of a table make up a key of this kind. -/
def KeyKind.fits (k : KeyKind) (ms : List (String × Json.Tree)) : Bool :=
  (sole? ms "kty").bind (wordOf? isNull) == some k.word &&
    (!k.onCurve || ((sole? ms "crv").bind (wordOf? isNull)).any curves.contains) &&
    k.parts.all fun n => ((sole? ms n).bind Tree.text?).isSome

/-- The members of any key that are texts where they are present. -/
def keyTexts : List String := ["use", "kid", "x5u", "x5t", "x5t#S256"]

/-- The members of any key that are lists of texts where they are present. -/
def keyLists : List String := ["key_ops", "x5c"]

/-- The form of a member of any key; its algorithm is a word that may be unknown. -/
def keyMember (name : String) (t : Json.Tree) : Bool :=
  if keyTexts.contains name then (Tree.optional? Tree.text? t).isSome
  else if keyLists.contains name then (Tree.optional? (Tree.listOf? Tree.text?) t).isSome
  else if name == "alg" then isNull t || (wordOf? isVoid t).isSome
  else true

/-- A member of a header that can be read as a key. -/
def isKey (t : Json.Tree) : Bool :=
  match t with
  | .table ms =>
    (valueOf? (maxDepth - 1) t).isSome && (namedMembers? ms).any fun named =>
      givenOnce ("alg" :: keyTexts ++ keyLists) named && named.all (fun m => keyMember m.1 m.2) &&
        keyKinds.any fun k => k.fits named
  | _ => false

end InferenceGate.Credential
