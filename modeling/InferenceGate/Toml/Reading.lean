import InferenceGate.Toml.Moment
import InferenceGate.Toml.Table

/-!
# Reading TOML

A document is lines: headers that name a table, and keys with values for the table named last. Lists and tables may also be
written as values.
-/

namespace InferenceGate.Toml

/-- The last key of a path and those before it. -/
def splitPath (path : List String) : List String × String := (path.dropLast, path.getLastD "")

mutual
/-- A value, at most `fuel` steps of it, whose lists and tables nest at most `room` deep. -/
def value? : Nat → Nat → List Char → Read Tree
  | 0, _, _ => none
  | fuel + 1, room, cs =>
    match cs, room with
    | '[' :: rest, room + 1 => (items? fuel room rest).map fun (items, rest) => (.list items, rest)
    | '\x7b' :: rest, room + 1 =>
      match skipSpaces rest with
      | '\x7d' :: rest => some (.table [], rest)
      | rest => (members? fuel room { origin := .named } rest).map fun (t, rest) => (t.tree, rest)
    | _, _ =>
      match moment? cs with
      | some (text, rest) => some (momentTree text, rest)
      | none => (scalar? cs).map fun (a, rest) => (.leaf a, rest)

/-- The items of a list up to its bracket. -/
def items? : Nat → Nat → List Char → Read (List Tree)
  | 0, _, _ => none
  | fuel + 1, room, cs =>
    match skipLines cs with
    | ']' :: rest => some ([], rest)
    | cs =>
      (value? fuel room cs).bind fun (v, rest) =>
        match skipLines rest with
        | ',' :: rest => (items? fuel room rest).map fun (vs, rest) => (v :: vs, rest)
        | ']' :: rest => some ([v], rest)
        | _ => none

/-- The members of a table written as a value, up to its brace. -/
def members? : Nat → Nat → Table → List Char → Read Table
  | 0, _, _, _ => none
  | fuel + 1, room, t, cs =>
    (keyPath? cs).bind fun (path, rest) =>
      match skipSpaces rest with
      | '=' :: rest =>
        (value? fuel room (skipSpaces rest)).bind fun (v, rest) =>
          (t.writeAt (splitPath path).1 (splitPath path).2 v).bind fun t =>
            match skipSpaces rest with
            | ',' :: rest => members? fuel room t rest
            | '\x7d' :: rest => some (t, rest)
            | _ => none
      | _ => none
end

/-- The path of a header, which ends in so many brackets. -/
def headerPath? (brackets : Nat) (cs : List Char) : Read (List String) :=
  (keyPath? cs).bind fun (path, rest) =>
    if (skipSpaces rest).take brackets == List.replicate brackets ']' then
      (restOfLine? ((skipSpaces rest).drop brackets)).map (path, ·)
    else none

/-- A document under way: the whole of it, and the path of the table named last. -/
structure Draft where
  root : Table := { origin := .named }
  path : List String := []

/-- A draft after a header. -/
def Draft.header (d : Draft) (path : List String) (enter : String → Table → Option Table) : Option Draft :=
  (Table.within .implied (splitPath path).1 (enter (splitPath path).2) d.root).map fun root => { root, path }

/-- A draft after a key and its value. -/
def Draft.write (d : Draft) (path : List String) (v : Tree) : Option Draft :=
  (Table.within .implied d.path (Table.writeAt (splitPath path).1 (splitPath path).2 v) d.root).map fun root => { d with root }

/-- One line of a document at the front of a text, and what follows it, where a value is read in at most `fuel` steps. -/
def line? (fuel : Nat) (d : Draft) (cs : List Char) : Read Draft :=
  match cs with
  | '[' :: '[' :: rest => (headerPath? 2 rest).bind fun (path, rest) => (d.header path Table.openItem).map (·, rest)
  | '[' :: rest => (headerPath? 1 rest).bind fun (path, rest) => (d.header path Table.openTable).map (·, rest)
  | _ =>
    (keyPath? cs).bind fun (path, rest) =>
      match skipSpaces rest with
      | '=' :: rest =>
        (value? fuel maxDepth (skipSpaces rest)).bind fun (v, rest) =>
          (restOfLine? rest).bind fun rest => (d.write path v).map (·, rest)
      | _ => none

/-- All lines of a document, at most `fuel` of them. -/
def lines? : Nat → Draft → List Char → Option Draft
  | 0, _, _ => none
  | fuel + 1, d, cs =>
    match skipLines cs with
    | [] => some d
    | cs => (line? fuel d cs).bind fun (d, rest) => lines? fuel d rest

/-- A text without the mark that may stand before its first character. -/
def withoutMark : List Char → List Char
  | c :: cs => if c == Char.ofNat 0xfeff then cs else c :: cs
  | [] => []

/-- The document that a text spells. -/
def read? (s : String) : Option Tree := (lines? (s.length + 1) {} (withoutMark s.toList)).map fun d => d.root.tree

end InferenceGate.Toml
