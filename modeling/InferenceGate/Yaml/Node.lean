import InferenceGate.Yaml.Token

/-!
# The structure of YAML

The tokens of a text make one document: a scalar, a list or a table, or another name for something that stands before. A node that
is left out is the scalar that stands for nothing. An anchor gives its node a slot, and an alias names the slot that its anchor had
when the alias was read.
-/

namespace InferenceGate.Yaml

/-- A part of a document, with its slot if an anchor gives it one. -/
inductive Node where
  | scalar (slot : Option Nat) (a : Atom)
  | list (slot : Option Nat) (items : List Node)
  | table (slot : Option Nat) (members : List (Node × Node))
  | alias (slot : Nat)

/-- The node that is left out. -/
def Node.absent : Node := .scalar none .absent

/-- The tokens to come, and the slots of the anchors so far. -/
structure Feed where
  tokens : List Token
  slots : List (List Char × Nat) := []

/-- The feed after its first token. -/
def Feed.rest (f : Feed) : Feed := { f with tokens := f.tokens.drop 1 }

/-- A slot for an anchor: it is numbered by how many names there are, so a name given again takes the slot of the next new one. -/
def Feed.slot (f : Feed) : Option (List Char) → Option Nat × Feed
  | none => (none, f)
  | some name =>
    let slot := f.slots.length
    (some slot, { f with slots := (name, slot) :: f.slots.filter (·.1 != name) })

/-! ## Properties -/

/-- The handles that need no directive, and what they are short for. -/
def usualHandles : List (List Char × List Char) := [(['!'], ['!']), (['!', '!'], coreTag "")]

/-- What stands before a node: an anchor and a tag. -/
structure Properties where
  anchor : Option (List Char) := none
  tag : Option (List Char) := none

/-- A tag written out. -/
def fullTag? (handles : List (List Char × List Char)) (handle suffix : List Char) : Option (List Char) :=
  if handle.isEmpty then some suffix else (handles.lookup handle).map (· ++ suffix)

/-- The properties at the front of tokens, in either order, and the tokens after them. -/
def properties? (handles : List (List Char × List Char)) : List Token → Option (Properties × List Token)
  | .anchor a :: .tag h s :: ts | .tag h s :: .anchor a :: ts =>
    (fullTag? handles h s).map fun tag => ({ anchor := some a, tag := some tag }, ts)
  | .anchor a :: ts => some ({ anchor := some a }, ts)
  | .tag h s :: ts => (fullTag? handles h s).map fun tag => ({ tag := some tag }, ts)
  | ts => some ({}, ts)

/-- A scalar with its tag; the exclamation mark alone is none. -/
def Atom.tagged (tag : Option (List Char)) : Atom → Atom
  | .scalar text style _ => .scalar text style (tag.filter (· != ['!']))
  | .nameless => .nameless

/-! ## Nodes -/

/-- Where a node stands: in a block, in a block as a key or a value, or in brackets. -/
inductive Setting where
  | block | member | flow
  deriving DecidableEq

/-- The next token is one of those before which a node is left out. -/
def Feed.leftOut (f : Feed) (ends : Token → Bool) : Bool := f.tokens.head?.any ends

/-- An item ends. -/
def Token.endsItem : Token → Bool
  | .item | .blockEnd => true
  | _ => false

/-- A key or a value of a block ends. -/
def Token.endsMember : Token → Bool
  | .key | .value | .blockEnd => true
  | _ => false

/-- An item of a list that is not indented ends. -/
def Token.endsLooseItem (t : Token) : Bool := t.endsMember || t.endsItem

/-- An item of a list in brackets ends. -/
def Token.endsFlowItem : Token → Bool
  | .comma | .closeList => true
  | _ => false

/-- A value of a table in braces ends. -/
def Token.endsFlowMember : Token → Bool
  | .comma | .closeTable => true
  | _ => false

/-- A value follows. -/
def Token.isValue : Token → Bool
  | .value => true
  | _ => false

mutual
/-- A node, at most `fuel` steps of it. -/
def node? (handles : List (List Char × List Char)) : Nat → Setting → Feed → Option (Node × Feed)
  | 0, _, _ => none
  | fuel + 1, setting, f =>
    match f.tokens with
    | .alias name :: ts => (f.slots.lookup name).map fun slot => (.alias slot, { f with tokens := ts })
    | _ =>
      (properties? handles f.tokens).bind fun (p, ts) =>
        let (slot, f) := { f with tokens := ts }.slot p.anchor
        let asList := Option.map fun (r : List Node × Feed) => (Node.list slot r.1, r.2)
        let asTable := Option.map fun (r : List (Node × Node) × Feed) => (Node.table slot r.1, r.2)
        match f.tokens, setting with
        | .item :: _, .member => asList (looseItems? handles fuel f)
        | .scalar a :: _, _ => some (.scalar slot (a.tagged p.tag), f.rest)
        | .openList :: _, _ => asList (flowItems? handles fuel true f.rest)
        | .openTable :: _, _ => asTable (flowMembers? handles fuel true f.rest)
        | .blockList :: _, .block | .blockList :: _, .member => asList (items? handles fuel f.rest)
        | .blockTable :: _, .block | .blockTable :: _, .member => asTable (members? handles fuel f.rest)
        | _, _ =>
          if p.anchor.isSome || p.tag.isSome then some (.scalar slot (.scalar "" .plain p.tag), f) else none

/-- A node, or the absent one before a token that ends it. -/
def nodeUnless? (handles : List (List Char × List Char)) :
    Nat → (Token → Bool) → Setting → Feed → Option (Node × Feed)
  | 0, _, _, _ => none
  | fuel + 1, ends, setting, f => if f.leftOut ends then some (.absent, f) else node? handles fuel setting f

/-- The value after a key, which may be left out with its colon. -/
def valueUnless? (handles : List (List Char × List Char)) :
    Nat → (Token → Bool) → Setting → Feed → Option (Node × Feed)
  | 0, _, _, _ => none
  | fuel + 1, ends, setting, f =>
    if f.leftOut Token.isValue then nodeUnless? handles fuel ends setting f.rest else some (.absent, f)

/-- The items of an indented list. -/
def items? (handles : List (List Char × List Char)) : Nat → Feed → Option (List Node × Feed)
  | 0, _ => none
  | fuel + 1, f =>
    match f.tokens with
    | .item :: _ =>
      (nodeUnless? handles fuel Token.endsItem .block f.rest).bind fun (v, f) =>
        (items? handles fuel f).map fun (vs, f) => (v :: vs, f)
    | .blockEnd :: _ => some ([], f.rest)
    | _ => none

/-- The items of a list indented as its key is. -/
def looseItems? (handles : List (List Char × List Char)) : Nat → Feed → Option (List Node × Feed)
  | 0, _ => none
  | fuel + 1, f =>
    match f.tokens with
    | .item :: _ =>
      (nodeUnless? handles fuel Token.endsLooseItem .block f.rest).bind fun (v, f) =>
        (looseItems? handles fuel f).map fun (vs, f) => (v :: vs, f)
    | _ => some ([], f)

/-- The members of an indented table. -/
def members? (handles : List (List Char × List Char)) : Nat → Feed → Option (List (Node × Node) × Feed)
  | 0, _ => none
  | fuel + 1, f =>
    match f.tokens with
    | .key :: _ =>
      (nodeUnless? handles fuel Token.endsMember .member f.rest).bind fun (k, f) =>
        (valueUnless? handles fuel Token.endsMember .member f).bind fun (v, f) =>
          (members? handles fuel f).map fun (ms, f) => ((k, v) :: ms, f)
    | .blockEnd :: _ => some ([], f.rest)
    | _ => none

/-- The items of a list in brackets; all but the first come after a comma. -/
def flowItems? (handles : List (List Char × List Char)) : Nat → Bool → Feed → Option (List Node × Feed)
  | 0, _, _ => none
  | fuel + 1, isFirst, f =>
    match f.tokens, isFirst with
    | .closeList :: _, _ => some ([], f.rest)
    | .comma :: .closeList :: _, false => some ([], f.rest.rest)
    | .comma :: _, false => flowItem? handles fuel f.rest
    | _, true => flowItem? handles fuel f
    | _, false => none

/-- An item in brackets and those after it; a key makes a table of one member. -/
def flowItem? (handles : List (List Char × List Char)) : Nat → Feed → Option (List Node × Feed)
  | 0, _ => none
  | fuel + 1, f =>
    let first : Option (Node × Feed) := match f.tokens with
      | .key :: _ =>
        (pairKey? handles fuel f.rest).bind fun (k, f) =>
          (valueUnless? handles fuel Token.endsFlowItem .flow f).map fun (v, f) => (Node.table none [(k, v)], f)
      | _ => node? handles fuel .flow f
    first.bind fun (v, f) => (flowItems? handles fuel false f).map fun (vs, f) => (v :: vs, f)

/-- The key of a member that stands alone in a list; where it is left out, the token after it is passed over too. -/
def pairKey? (handles : List (List Char × List Char)) : Nat → Feed → Option (Node × Feed)
  | 0, _ => none
  | fuel + 1, f =>
    if f.leftOut fun t => t.isValue || t.endsFlowItem then some (.absent, f.rest) else node? handles fuel .flow f

/-- The members of a table in braces; all but the first come after a comma. -/
def flowMembers? (handles : List (List Char × List Char)) :
    Nat → Bool → Feed → Option (List (Node × Node) × Feed)
  | 0, _, _ => none
  | fuel + 1, isFirst, f =>
    match f.tokens, isFirst with
    | .closeTable :: _, _ => some ([], f.rest)
    | .comma :: .closeTable :: _, false => some ([], f.rest.rest)
    | .comma :: _, false => flowMember? handles fuel f.rest
    | _, true => flowMember? handles fuel f
    | _, false => none

/-- A member in braces and those after it; without a key mark it has no value. -/
def flowMember? (handles : List (List Char × List Char)) : Nat → Feed → Option (List (Node × Node) × Feed)
  | 0, _ => none
  | fuel + 1, f =>
    let first : Option ((Node × Node) × Feed) := match f.tokens with
      | .key :: _ =>
        (nodeUnless? handles fuel (fun t => t.isValue || t.endsFlowMember) .flow f.rest).bind fun (k, f) =>
          (valueUnless? handles fuel Token.endsFlowMember .flow f).map fun (v, f) => ((k, v), f)
      | _ => (node? handles fuel .flow f).map fun (k, f) => ((k, .absent), f)
    first.bind fun (m, f) => (flowMembers? handles fuel false f).map fun (ms, f) => (m :: ms, f)
end

/-! ## Documents -/

/-- The directives at the front of tokens and the handles with them: one version at most, which must be one of the two that are
known, and each handle at most once. -/
def directives? (version : Bool) (handles : List (List Char × List Char)) :
    List Token → Option (List (List Char × List Char) × List Token)
  | .directive (.version major minor) :: ts =>
    if version || major != 1 || !(minor == 1 || minor == 2) then none else directives? true handles ts
  | .directive (.handle h address) :: ts =>
    if (handles.lookup h).isSome then none else directives? version ((h, address) :: handles) ts
  | ts => some (handles, ts)

/-- The only document of a text ends here: any number of marks and then nothing. -/
def isEnd : List Token → Bool
  | .documentEnd :: ts => isEnd ts
  | [.streamEnd] => true
  | _ => false

/-- The node of a document, after which no other follows. -/
def root? (handles : List (List Char × List Char)) (ts : List Token) : Option Node :=
  (node? handles (4 * ts.length + 4) .block { tokens := ts }).bind fun (n, f) => if isEnd f.tokens then some n else none

/-- The document that tokens spell; where nothing stands, or nothing after a mark, it is the absent node. -/
def document? (ts : List Token) : Option Node :=
  match ts with
  | .streamEnd :: _ => some .absent
  | .directive _ :: _ | .documentStart :: _ =>
    (directives? false [] ts).bind fun (handles, ts) =>
      match ts with
      | .documentStart :: ts =>
        match ts with
        | .documentEnd :: _ | .streamEnd :: _ => if isEnd ts then some .absent else none
        | .directive _ :: _ | .documentStart :: _ => none
        | _ => root? (handles ++ usualHandles) ts
      | _ => none
  | _ => root? usualHandles ts

end InferenceGate.Yaml
