import InferenceGate.Text.Integer

/-!
# Documents and the records they spell

A document of any format is a tree of scalars, lists and tables, with every member of a table kept in the order written and
nothing merged. A record is read from a tree by its field names: a table gives a field the member under its name, members
under other names are passed over whatever they hold, and a field given twice is refused; a list gives the fields in order.
What a scalar means to a record and which lists spell one (`Scalar`) is all that differs between formats.
-/

namespace InferenceGate.Document

/-- A document over scalars `α`. -/
inductive Tree (α : Type) where
  | leaf (a : α)
  | list (items : List (Tree α))
  | table (members : List (α × Tree α))

/-- How a list spells a record: not at all, with all its items, or with its first items whatever follows them. -/
inductive ListForm where
  | refused | whole | front
  deriving DecidableEq

/-- What a scalar of a format means where a record asks for a field name, nothing, a text or a whole number. -/
class Scalar (α : Type) where
  name? : α → Option String
  /-- Whether a scalar stands for nothing; no answer where it is said to and does not. -/
  isNull? : α → Option Bool
  text? : α → Option String
  integer? : α → Option Int
  /-- A whole number where none below zero may stand. -/
  natural? : α → Option Nat
  /-- An absent document stands for a record whose fields are all absent. -/
  isEmptyRecord : α → Bool
  listForm : ListForm

/-- A field of a record: its name and the other names it answers to. -/
structure Field where
  name : String
  aliases : List String := []

/-- The fields found in a tree, each under its first name. -/
abbrev Found (α : Type) := List (String × Tree α)

variable {α : Type} [Scalar α]

/-- The tree found for a field. -/
def Found.get? (found : Found α) (name : String) : Option (Tree α) := found.lookup name

/-- The field that a name belongs to. -/
def fieldNamed? (fields : List Field) (name : String) : Option Field :=
  fields.find? fun f => f.name == name || f.aliases.contains name

/-- The fields that members of a table give: each at most once, and every member name must be a text. -/
def fromMembers (fields : List Field) : List (α × Tree α) → Found α → Option (Found α)
  | [], found => some found
  | (key, tree) :: rest, found =>
    match Scalar.name? key with
    | none => none
    | some name =>
      match fieldNamed? fields name with
      | none => fromMembers fields rest found
      | some f => if (found.get? f.name).isSome then none else fromMembers fields rest ((f.name, tree) :: found)

/-- A tree as a record with the given fields. -/
def Tree.record? (fields : List Field) : Tree α → Option (Found α)
  | .leaf a => if Scalar.isEmptyRecord a then some [] else none
  | .list items =>
    let found := (fields.map Field.name).zip items
    match Scalar.listForm α with
    | .refused => none
    | .whole => if fields.length < items.length then none else some found
    | .front => some found
  | .table members => fromMembers fields members []

/-- A tree as a text. -/
def Tree.text? : Tree α → Option String
  | .leaf a => Scalar.text? a
  | _ => none

/-- A tree as a whole number within bounds. -/
def Tree.integer? (low high : Int) : Tree α → Option Int
  | .leaf a => (Scalar.integer? a).filter fun n => low ≤ n && n ≤ high
  | _ => none

/-- A tree as a natural number up to a bound. -/
def Tree.natural? (high : Nat) : Tree α → Option Nat
  | .leaf a => (Scalar.natural? a).filter (· ≤ high)
  | _ => none

/-- A tree as a signed word. -/
def Tree.i64? (t : Tree α) : Option Int := t.integer? minI64 maxI64

/-- A tree that may be null. -/
def Tree.optional? {β : Type} (read : Tree α → Option β) : Tree α → Option (Option β)
  | .leaf a => (Scalar.isNull? a).bind fun isNull => if isNull then some none else (read (.leaf a)).map some
  | t => (read t).map some

/-- A tree as a list of what `read` gives. -/
def Tree.listOf? {β : Type} (read : Tree α → Option β) : Tree α → Option (List β)
  | .list items => items.mapM read
  | _ => none

/-- A field, or its default where it is absent. -/
def Found.getD {β : Type} (found : Found α) (name : String) (default : β) (read : Tree α → Option β) : Option β :=
  match found.get? name with
  | none => some default
  | some t => read t

/-- A field that must be present. -/
def Found.required? {β : Type} (found : Found α) (name : String) (read : Tree α → Option β) : Option β :=
  (found.get? name).bind read

/-- A field that may be absent or null. -/
def Found.optional? {β : Type} (found : Found α) (name : String) (read : Tree α → Option β) : Option (Option β) :=
  found.getD name none (Tree.optional? read)

end InferenceGate.Document
