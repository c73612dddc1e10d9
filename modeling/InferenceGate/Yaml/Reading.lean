import InferenceGate.Yaml.Node

/-!
# Reading YAML

A text of YAML spells a document. An alias stands for the node of its slot wherever it is looked at, so a document may hold itself
and has a tree only down to some depth.
-/

namespace InferenceGate.Yaml

mutual
/-- The nodes that have slots, in the order in which they begin. -/
def Node.slotted : Node → List (Nat × Node)
  | .scalar slot a => (slot.map (·, .scalar slot a)).toList
  | .list slot items => (slot.map (·, .list slot items)).toList ++ slottedItems items
  | .table slot members => (slot.map (·, .table slot members)).toList ++ slottedMembers members
  | .alias _ => []

/-- The nodes with slots in items. -/
def slottedItems : List Node → List (Nat × Node)
  | [] => []
  | n :: ns => n.slotted ++ slottedItems ns

/-- The nodes with slots in members. -/
def slottedMembers : List (Node × Node) → List (Nat × Node)
  | [] => []
  | (k, v) :: ms => k.slotted ++ v.slotted ++ slottedMembers ms
end

/-- What a node stands for: an alias for the node of its slot, which of two nodes is the later. -/
def Node.target (slots : List (Nat × Node)) : Node → Node
  | .alias slot => (slots.reverse.lookup slot).getD .absent
  | n => n

/-- The name that a node is as a key. -/
def Node.name (slots : List (Nat × Node)) (n : Node) : Atom :=
  match n.target slots with
  | .scalar _ a => a
  | _ => .nameless

/-- The tree of a node down to a depth; what lies deeper is absent. -/
def Node.tree (slots : List (Nat × Node)) : Nat → Node → Tree
  | 0, _ => .leaf .absent
  | depth + 1, n =>
    match n.target slots with
    | .scalar _ a => .leaf a
    | .list _ items => .list (items.map (tree slots depth))
    | .table _ members => .table (members.map fun m => (m.1.name slots, tree slots depth m.2))
    | .alias _ => .leaf .absent

/-- The document that a text spells, down to a depth. -/
def read? (depth : Nat) (s : String) : Option Tree :=
  ((tokens? s.toList).bind document?).map fun n => n.tree n.slotted depth

end InferenceGate.Yaml
