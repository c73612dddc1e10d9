/-!
# Places in a text of YAML

The characters that end words and lines, a cursor that knows its line and column, and what stands between two words. A line break
inside a scalar is written out by `Gap.text`: one break between words is a space, and of more than one the first is dropped.
-/

namespace InferenceGate.Yaml

/-! ## Characters -/

/-- The break of one control character that means a new line. -/
def nextLine : Char := Char.ofNat 0x85

/-- The break that separates lines and stays in a text. -/
def lineSeparator : Char := Char.ofNat 0x2028

/-- The break that separates paragraphs and stays in a text. -/
def paragraphSeparator : Char := Char.ofNat 0x2029

/-- The mark that may stand before the first character of a text. -/
def byteOrderMark : Char := Char.ofNat 0xfeff

/-- A character that may stand in a text: no control but tab and line breaks, and no character that is none. -/
def isAllowed (c : Char) : Bool :=
  c == '\t' || c == '\n' || c == '\r' || (0x20 ≤ c.toNat && c.toNat ≤ 0x7e) || c == nextLine ||
    (0xa0 ≤ c.toNat && c.toNat ≤ 0xfffd) || 0x10000 ≤ c.toNat

/-- A space or a tab. -/
def isSpace (c : Char) : Bool := c == ' ' || c == '\t'

/-- A character that breaks a line. -/
def isBreak (c : Char) : Bool :=
  c == '\n' || c == '\r' || c == nextLine || c == lineSeparator || c == paragraphSeparator

/-- A character between words. -/
def isBlank (c : Char) : Bool := isSpace c || isBreak c

/-- No word goes on here: a blank or the end of the text comes next. -/
def endsWord (next : Option Char) : Bool := next.all isBlank

/-- A character of the names of anchors, handles and directives. -/
def isNameChar (c : Char) : Bool := c.isAlphanum || c == '_' || c == '-'

/-- A character that begins, ends or divides lists and tables in brackets. -/
def isFlowMark (c : Char) : Bool := c == ',' || c == '[' || c == ']' || c == '\x7b' || c == '\x7d'

/-! ## Cursors -/

/-- A place in a text: what follows, how many characters that is, and the line and the column, each counted from zero. -/
structure Cursor where
  rest : List Char
  left : Nat
  line : Nat := 0
  column : Nat := 0

namespace Cursor

/-- The front of a text. -/
def front (cs : List Char) : Cursor := { rest := cs, left := cs.length }

/-- Nothing of the text comes before. -/
def isFront (c : Cursor) : Bool := c.line == 0 && c.column == 0

/-- The next character. -/
def next? (c : Cursor) : Option Char := c.rest.head?

/-- The next character is the given one. -/
def sees (c : Cursor) (ch : Char) : Bool := c.next? == some ch

/-- The next character satisfies a test. -/
def seesAny (c : Cursor) (p : Char → Bool) : Bool := c.next?.any p

/-- The character after the next. -/
def second? (c : Cursor) : Option Char := c.rest[1]?

/-- The cursor after so many characters of its line. -/
def skip (n : Nat) (c : Cursor) : Cursor :=
  { c with rest := c.rest.drop n, left := c.left - n, column := c.column + n }

/-- The cursor after the characters of its line that satisfy a test. -/
def skipWhile (p : Char → Bool) (c : Cursor) : Cursor := c.skip (c.rest.takeWhile p).length

/-- The cursor after a line break, which a carriage return and a line feed are together. -/
def skipBreak (c : Cursor) : Cursor :=
  match c.rest with
  | '\r' :: '\n' :: rest => { rest, left := c.left - 2, line := c.line + 1 }
  | b :: rest => if isBreak b then { rest, left := c.left - 1, line := c.line + 1 } else c
  | [] => c

/-- The cursor after the blanks of its line and a comment. -/
def skipComment (c : Cursor) : Cursor :=
  let c := c.skipWhile isSpace
  if c.sees '#' then c.skipWhile fun ch => !isBreak ch else c

/-- The line break at a cursor as it stands in a text. -/
def breakText (c : Cursor) : List Char :=
  match c.next? with
  | some b =>
    if b == lineSeparator || b == paragraphSeparator then [b] else if isBreak b then ['\n'] else []
  | none => []

/-- Three characters stand at the front of a line as a word. -/
def isMark (mark : List Char) (c : Cursor) : Bool :=
  c.column == 0 && c.rest.take 3 == mark && endsWord c.rest[3]?

/-- A document begins here. -/
def isStartMark (c : Cursor) : Bool := c.isMark ['-', '-', '-']

/-- A document ends here. -/
def isEndMark (c : Cursor) : Bool := c.isMark ['.', '.', '.']

/-- A document begins or ends here. -/
def isDocumentMark (c : Cursor) : Bool := c.isStartMark || c.isEndMark

end Cursor

/-! ## Between words -/

/-- What stands between two words: the blanks before the first line break, and the line breaks. -/
structure Gap where
  blanks : List Char := []
  breaks : List Char := []

/-- Some line ends in a gap. -/
def Gap.isBroken (g : Gap) : Bool := !g.breaks.isEmpty

/-- What a gap comes to in a scalar. -/
def Gap.text (g : Gap) : List Char :=
  match g.breaks with
  | [] => g.blanks
  | ['\n'] => [' ']
  | '\n' :: more => more
  | breaks => breaks

/-- The blanks and line breaks at a cursor, at most `fuel` of them, each last first and after those of `g`, where `atFront` says that
only blanks stand before on its line. -/
def gapFrom? (column : Nat) : Nat → Bool → Gap → Cursor → Option (Gap × Cursor)
  | 0, _, g, c => some (g, c)
  | fuel + 1, atFront, g, c =>
    match c.next? with
    | none => some (g, c)
    | some ch =>
      if isBreak ch then gapFrom? column fuel true { g with breaks := c.breakText ++ g.breaks } c.skipBreak
      else if !isSpace ch then some (g, c)
      else if !atFront then gapFrom? column fuel false { g with blanks := ch :: g.blanks } (c.skip 1)
      else if ch == '\t' && c.column < column then none
      else gapFrom? column fuel true g (c.skip 1)

/-- The gap at a cursor, which stands at the front of a line or not; none where a tab stands at the front of a line before a
column. -/
def gap? (column : Nat) (atFront : Bool) (c : Cursor) : Option (Gap × Cursor) :=
  (gapFrom? column c.left atFront {} c).map fun (g, c) => ({ blanks := g.blanks.reverse, breaks := g.breaks.reverse }, c)

end InferenceGate.Yaml
