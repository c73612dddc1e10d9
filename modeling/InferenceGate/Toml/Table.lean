import InferenceGate.Toml.Scalar

/-!
# Tables of TOML while they are written

A table comes about by a header that names it, by a header that names one inside it, or by a key with points; where it may be
written to later depends on which. A value once written is never written over.
-/

namespace InferenceGate.Toml

/-- How a table has come about. -/
inductive Origin where
  | named | implied | dotted
  deriving DecidableEq

/-- What stands under a key: a value, a table, or a list of tables. -/
inductive Node where
  | value (t : Tree)
  | table (origin : Origin) (members : List (String × Node))
  | tables (items : List (List (String × Node)))

/-- A table: how it has come about, and its members. -/
structure Table where
  origin : Origin
  members : List (String × Node) := []

namespace Table

/-- What stands under a key. -/
def get? (t : Table) (key : String) : Option Node := t.members.lookup key

/-- A table with something under a key, in place of what was there. -/
def put (t : Table) (key : String) (n : Node) : Table :=
  if t.members.any (·.1 == key) then { t with members := t.members.map fun m => if m.1 == key then (key, n) else m }
  else { t with members := t.members ++ [(key, n)] }

/-- A change made in the table at a path, for a header or for a key with points. -/
def within (origin : Origin) : List String → (Table → Option Table) → Table → Option Table
  | [], change, t => change t
  | key :: path, change, t =>
    match t.get? key with
    | none => (within origin path change { origin }).map fun u => t.put key (.table u.origin u.members)
    | some (.table o members) =>
      if origin == .dotted && o == .named then none
      else (within origin path change { origin := o, members }).map fun u => t.put key (.table u.origin u.members)
    | some (.tables items) =>
      match items.getLast? with
      | none => none
      | some members =>
        (within origin path change { origin := .named, members }).map fun u =>
          t.put key (.tables (items.dropLast ++ [u.members]))
    | some (.value _) => none

/-- A table named by a header. -/
def openTable (key : String) (t : Table) : Option Table :=
  match t.get? key with
  | none => some (t.put key (.table .named []))
  | some (.table .implied members) => some (t.put key (.table .named members))
  | _ => none

/-- One more of a list of tables named by a header. -/
def openItem (key : String) (t : Table) : Option Table :=
  match t.get? key with
  | none => some (t.put key (.tables [[]]))
  | some (.tables items) => some (t.put key (.tables (items ++ [[]])))
  | _ => none

/-- A value written under a key. -/
def write (key : String) (value : Tree) (t : Table) : Option Table :=
  match t.get? key with
  | none => some (t.put key (.value value))
  | some _ => none

/-- A value written under a key with points. -/
def writeAt (path : List String) (key : String) (value : Tree) (t : Table) : Option Table :=
  within .dotted path (fun u => if (u.origin == .dotted) == path.isEmpty then none else u.write key value) t

end Table

mutual
/-- What stands under a key, as a document. -/
def Node.tree : Node → Tree
  | .value t => t
  | .table _ members => .table (memberTrees members)
  | .tables items => .list (tableTrees items)

/-- The members of a table, as documents. -/
def memberTrees : List (String × Node) → List (Atom × Tree)
  | [] => []
  | (key, n) :: rest => (.text key, n.tree) :: memberTrees rest

/-- Tables, as documents. -/
def tableTrees : List (List (String × Node)) → List Tree
  | [] => []
  | members :: rest => .table (memberTrees members) :: tableTrees rest
end

/-- A table, as a document. -/
def Table.tree (t : Table) : Tree := .table (memberTrees t.members)

end InferenceGate.Toml
