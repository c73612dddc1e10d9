import InferenceGate.Yaml.Block
import InferenceGate.Yaml.Plain
import InferenceGate.Yaml.Quoted
import InferenceGate.Yaml.Tag

/-!
# Tokens of YAML

A text is a row of tokens. Outside brackets the indentation of lines becomes tokens too: a list or a table begins where its first
mark stands further right than what it belongs to, and ends before a line that does not. A key is known by the colon after it, so a
place where a key may have begun is kept (`KeySpot`) until a colon comes or can come no more: a key stands on one line and is at
most `maxKey` characters long.
-/

namespace InferenceGate.Yaml

/-- A token. -/
inductive Token where
  | directive (d : Directive)
  | documentStart
  | documentEnd
  | blockList
  | blockTable
  | blockEnd
  | openList
  | closeList
  | openTable
  | closeTable
  | item
  | comma
  | key
  | value
  | alias (name : List Char)
  | anchor (name : List Char)
  | tag (handle suffix : List Char)
  | scalar (a : Atom)
  | streamEnd

/-- The longest key that no question mark stands before. -/
def maxKey : Nat := 1024

/-- A place where a key may have begun: the number of its first token, where it stands, and whether nothing else may stand there. -/
structure KeySpot where
  number : Nat
  required : Bool
  left : Nat
  line : Nat
  column : Nat

/-- No colon can make a key of what began here once the cursor is there. -/
def KeySpot.isPast (s : KeySpot) (c : Cursor) : Bool := s.line < c.line || c.left + maxKey < s.left

/-- A text under way: the cursor, the columns of the open blocks, innermost first, the place of a key in the innermost brackets and
in those around them, whether a key may begin at the cursor, and the tokens so far, last first, with their number. -/
structure Lexer where
  cursor : Cursor
  columns : List Nat := []
  spot : Option KeySpot := none
  around : List (Option KeySpot) := []
  keyAllowed : Bool := true
  tokens : List Token := []
  count : Nat := 0

namespace Lexer

/-- The cursor stands within brackets. -/
def inFlow (l : Lexer) : Bool := !l.around.isEmpty

/-- The least column of what belongs to the innermost block. -/
def floor (l : Lexer) : Nat :=
  match l.columns with
  | [] => 0
  | column :: _ => column + 1

/-- One more token. -/
def emit (t : Token) (l : Lexer) : Lexer := { l with tokens := t :: l.tokens, count := l.count + 1 }

/-- One more token, and the cursor after so many characters. -/
def take (n : Nat) (t : Token) (l : Lexer) : Lexer := { l with cursor := l.cursor.skip n }.emit t

/-- A token put in before the one of a number. -/
def insert (number : Nat) (t : Token) (l : Lexer) : Lexer :=
  let after := l.count - number
  { l with tokens := l.tokens.take after ++ t :: l.tokens.drop after, count := l.count + 1 }

/-! ## Blocks -/

/-- A block begins at a column before the token of a number, unless one goes on there; there are none in brackets. -/
def openBlock (column number : Nat) (t : Token) (l : Lexer) : Lexer :=
  if l.inFlow || column < l.floor then l else { l with columns := column :: l.columns }.insert number t

/-- The blocks end whose columns are not kept; none ends in brackets. -/
def closeBlocks (keep : Nat → Bool) (l : Lexer) : Lexer :=
  if l.inFlow then l
  else
    let ended := (l.columns.takeWhile fun column => !keep column).length
    { l with
      columns := l.columns.drop ended
      tokens := List.replicate ended .blockEnd ++ l.tokens
      count := l.count + ended }

/-! ## Keys -/

/-- A spot unless it is past; none where something else stands in the place of a key. -/
def live? (c : Cursor) : Option KeySpot → Option (Option KeySpot)
  | none => some none
  | some s => if !s.isPast c then some (some s) else if s.required then none else some none

/-- The spots that are not past. -/
def dropPast? (l : Lexer) : Option Lexer := do
  let spot ← live? l.cursor l.spot
  let around ← l.around.mapM (live? l.cursor)
  return { l with spot, around }

/-- No key has begun in the innermost brackets; none where one must have. -/
def dropSpot? (l : Lexer) : Option Lexer := if l.spot.any (·.required) then none else some { l with spot := none }

/-- A key may have begun at the cursor, if one may. -/
def markSpot? (l : Lexer) : Option Lexer :=
  if !l.keyAllowed then some l
  else
    l.dropSpot?.map fun l =>
      let c := l.cursor
      let required := !l.inFlow && l.columns.head? == some c.column
      { l with spot := some { number := l.count, required, left := c.left, line := c.line, column := c.column } }

/-! ## Steps -/

/-- The blocks end and no key goes on over the beginning or the end of a document. -/
def endBlocks? (l : Lexer) : Option Lexer :=
  (l.closeBlocks fun _ => false).dropSpot?.map fun l => { l with keyAllowed := false }

/-- A mark outside brackets that begins a block where none goes on, as far as one may begin there. -/
def blockMark? (block mark : Token) (l : Lexer) : Option Lexer :=
  if !l.inFlow && !l.keyAllowed then none
  else (l.openBlock l.cursor.column l.count block).dropSpot?.map (take 1 mark)

/-- A hyphen before an item. -/
def item? (l : Lexer) : Option Lexer := (l.blockMark? .blockList .item).map fun l => { l with keyAllowed := true }

/-- A question mark before a key. -/
def key? (l : Lexer) : Option Lexer := (l.blockMark? .blockTable .key).map fun l => { l with keyAllowed := !l.inFlow }

/-- A colon before a value: it makes a key of what began at the spot, or follows one after a question mark. -/
def value? (l : Lexer) : Option Lexer :=
  match l.spot with
  | some s =>
    let l := (l.insert s.number .key).openBlock s.column s.number .blockTable
    some ({ l with spot := none, keyAllowed := false }.take 1 .value)
  | none =>
    if l.inFlow then some ({ l with keyAllowed := false }.take 1 .value)
    else if !l.keyAllowed then none
    else some ((l.openBlock l.cursor.column l.count .blockTable).take 1 .value)

/-- A bracket or a brace that opens. -/
def open? (t : Token) (l : Lexer) : Option Lexer :=
  l.markSpot?.map fun l => { l with spot := none, around := l.spot :: l.around, keyAllowed := true }.take 1 t

/-- A bracket or a brace that closes. -/
def close? (t : Token) (l : Lexer) : Option Lexer :=
  l.dropSpot?.map fun l =>
    let l := match l.around with
      | [] => l
      | spot :: around => { l with spot, around }
    { l with keyAllowed := false }.take 1 t

/-- A comma. -/
def comma? (l : Lexer) : Option Lexer := l.dropSpot?.map fun l => { l with keyAllowed := true }.take 1 .comma

/-- A token that may be a key or stand before one, which `read` reads at the cursor. -/
def word? {α : Type} (read : Cursor → Option (α × Cursor)) (token : α → Token) (l : Lexer) : Option Lexer := do
  let l ← l.markSpot?
  let (a, cursor) ← read l.cursor
  return { l with cursor, keyAllowed := false }.emit (token a)

/-- A block of lines as a scalar. -/
def block? (l : Lexer) : Option Lexer := do
  let l ← l.dropSpot?
  let (a, cursor) ← Yaml.block? l.floor l.cursor
  return { l with cursor, keyAllowed := true }.emit (.scalar a)

/-- A plain scalar; a key may begin on the line after it. -/
def plain? (l : Lexer) : Option Lexer := do
  let l ← l.markSpot?
  let (a, keyAllowed, cursor) ← Yaml.plain? l.inFlow l.floor l.cursor
  return { l with cursor, keyAllowed }.emit (.scalar a)

/-- The token at the cursor, where no blank stands. -/
def token? (ch : Char) (l : Lexer) : Option Lexer :=
  let c := l.cursor
  if c.column == 0 && ch == '%' then do
    let l ← l.endBlocks?
    let (d, cursor) ← directive? (c.skip 1)
    return { l with cursor }.emit (.directive d)
  else if c.isStartMark then l.endBlocks?.map (take 3 .documentStart)
  else if c.isEndMark then l.endBlocks?.map (take 3 .documentEnd)
  else if ch == '[' then l.open? .openList
  else if ch == '\x7b' then l.open? .openTable
  else if ch == ']' then l.close? .closeList
  else if ch == '\x7d' then l.close? .closeTable
  else if ch == ',' then l.comma?
  else if ch == '-' && endsWord c.second? then l.item?
  else if ch == '?' && (l.inFlow || endsWord c.second?) then l.key?
  else if ch == ':' && (l.inFlow || endsWord c.second?) then l.value?
  else if ch == '*' then l.word? (fun c => anchorName? (c.skip 1)) .alias
  else if ch == '&' then l.word? (fun c => anchorName? (c.skip 1)) .anchor
  else if ch == '!' then l.word? (tag? l.inFlow) fun t => .tag t.1 t.2
  else if (ch == '|' || ch == '>') && !l.inFlow then l.block?
  else if ch == '\x27' || ch == '"' then l.word? (quoted? ch) .scalar
  else if beginsPlain l.inFlow c then l.plain?
  else none

/-- The cursor moved to the next token, over at most `fuel` lines. A tab may not stand where a key may begin, and on a new line
outside brackets one may. -/
def skipBlanks : Nat → Lexer → Lexer
  | 0, l => l
  | fuel + 1, l =>
    let c := if l.cursor.isFront && l.cursor.sees byteOrderMark then l.cursor.skip 1 else l.cursor
    let c := c.skipWhile fun ch => ch == ' ' || (ch == '\t' && (l.inFlow || !l.keyAllowed))
    let c := if c.sees '#' then c.skipWhile fun ch => !isBreak ch else c
    if c.seesAny isBreak then skipBlanks fuel { l with cursor := c.skipBreak, keyAllowed := l.keyAllowed || !l.inFlow }
    else { l with cursor := c }

/-- All tokens, at most `fuel` of the text. -/
def run? : Nat → Lexer → Option (List Token)
  | 0, _ => none
  | fuel + 1, l =>
    let l := l.skipBlanks (l.cursor.left + 1)
    l.dropPast?.bind fun l =>
      let l := l.closeBlocks (· ≤ l.cursor.column)
      match l.cursor.next? with
      | none => l.endBlocks?.map fun l => (l.emit .streamEnd).tokens.reverse
      | some ch => (l.token? ch).bind (run? fuel)

end Lexer

/-- The tokens of a text. -/
def tokens? (cs : List Char) : Option (List Token) :=
  if cs.all isAllowed then Lexer.run? (cs.length + 1) { cursor := .front cs } else none

end InferenceGate.Yaml
