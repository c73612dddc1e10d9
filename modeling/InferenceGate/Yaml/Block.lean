import InferenceGate.Text.Integer
import InferenceGate.Yaml.Scalar

/-!
# Blocks of lines as scalars of YAML

A scalar may be the lines indented under a mark: with `|` each line is kept, with `>` lines of words are folded into one. What
becomes of the line breaks at the end, and how far the lines are indented, may stand after the mark.
-/

namespace InferenceGate.Yaml

/-- What becomes of the line breaks at the end of a block: one is left, none, or all. -/
inductive Ending where
  | clip | strip | keep
  deriving DecidableEq

/-- The ending that a character asks for. -/
def Ending.ofChar? (c : Char) : Option Ending := if c == '+' then some .keep else if c == '-' then some .strip else none

/-- How far a digit says that lines are indented; no digit is zero, and the digit zero is refused. -/
def indentDigit? (c : Cursor) : Option (Nat × Cursor) :=
  match c.next? with
  | some '0' => none
  | some d => if Text.isDigit d then some (d.toNat - 48, c.skip 1) else some (0, c)
  | none => some (0, c)

/-- The ending at a cursor, if one stands there. -/
def ending (c : Cursor) : Ending × Cursor :=
  match c.next?.bind Ending.ofChar? with
  | some e => (e, c.skip 1)
  | none => (.clip, c)

/-- The ending and the indentation after the mark of a block, in either order, and the line after. -/
def blockHead? (c : Cursor) : Option (Ending × Nat × Cursor) := do
  let (first, c) := ending c
  let (indent, c) ← indentDigit? c
  let (e, c) := if first == .clip then ending c else (first, c)
  let c := c.skipComment
  if c.next?.all isBreak then some (e, indent, c.skipBreak) else none

/-- The empty lines at a cursor, after the breaks of some, last first, and the indentation before the next other line, at most
`fuel` lines: where no indentation is known (it is zero), the widest before any of them, but at least `least`. None where a tab
stands in the indentation. -/
def emptyLines? (least : Nat) : Nat → Nat → Nat → List Char → Cursor → Option (Nat × List Char × Cursor)
  | 0, _, _, _, _ => none
  | fuel + 1, indent, widest, breaks, c =>
    let spaces := (c.rest.takeWhile (· == ' ')).length
    let c := c.skip (if indent == 0 then spaces else min spaces (indent - c.column))
    let widest := max widest c.column
    if (indent == 0 || c.column < indent) && c.sees '\t' then none
    else if c.seesAny isBreak then emptyLines? least fuel indent widest (c.breakText ++ breaks) c.skipBreak
    else some (if indent == 0 then max widest least else indent, breaks.reverse, c)

/-- The lines of a block under way: the text so far, last character first, the break after the last line, the breaks of the empty
lines after it, and whether that line began with a blank. -/
structure Lines where
  text : List Char := []
  last : List Char := []
  empty : List Char := []
  wasIndented : Bool := false

/-- The text before one more line, last character first: where lines are folded, a single break between two that begin with words is a space. -/
def Lines.joined (ls : Lines) (fold : Bool) (isIndented : Bool) : List Char :=
  if fold && ls.last == ['\n'] && !ls.wasIndented && !isIndented then
    (if ls.empty.isEmpty then [' '] else ls.empty.reverse) ++ ls.text
  else (ls.last ++ ls.empty).reverse ++ ls.text

/-- The text of a block at its end. -/
def Lines.ended (ls : Lines) : Ending → List Char
  | .strip => ls.text.reverse
  | .clip => ls.text.reverse ++ ls.last
  | .keep => ls.text.reverse ++ ls.last ++ ls.empty

/-- The lines of a block that are indented as far as its first, at most `fuel` of them. -/
def blockLines? (fold : Bool) (indent : Nat) : Nat → Lines → Cursor → Option (Lines × Cursor)
  | 0, _, _ => none
  | fuel + 1, ls, c =>
    if c.column != indent || c.rest.isEmpty then some (ls, c)
    else
      let isIndented := c.seesAny isSpace
      let line := c.rest.takeWhile fun ch => !isBreak ch
      let c' := c.skip line.length
      (emptyLines? indent (c'.left + 1) indent 0 [] c'.skipBreak).bind fun (_, empty, after) =>
        blockLines? fold indent fuel
          { text := line.reverse ++ ls.joined fold isIndented, last := c'.breakText, empty, wasIndented := isIndented } after

/-- The block at a cursor that stands on its mark, inside something whose members are indented less than `floor`. -/
def block? (floor : Nat) (c : Cursor) : Option (Atom × Cursor) := do
  let fold := c.sees '>'
  let (e, given, c) ← blockHead? (c.skip 1)
  let indent := if given == 0 then 0 else (floor - 1) + given
  let (indent, empty, c) ← emptyLines? (max floor 1) (c.left + 1) indent 0 [] c
  let (ls, c) ← blockLines? fold indent (c.left + 1) { empty } c
  return (.scalar (String.ofList (ls.ended e)) (if fold then .folded else .kept) none, c)

end InferenceGate.Yaml
