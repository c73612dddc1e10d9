import InferenceGate.Yaml.Scalar

/-!
# Quoted scalars of YAML

Between apostrophes two of them stand for one; between quotes a backslash begins an escape, and at the end of a line it joins that
line with the next. Other line breaks are folded. Both kinds may run over lines, but not over the mark of a document.
-/

namespace InferenceGate.Yaml

/-- The character of so many hexadecimal digits, and what follows. -/
def hexChar? (count : Nat) (c : Cursor) : Option (Char × Cursor) :=
  let digits := c.rest.take count
  if digits.length < count then none
  else (radixValue? 16 digits).bind fun n => if n.isValidChar then some (Char.ofNat n, c.skip count) else none

/-- What the escapes of one letter stand for. -/
def letterEscapes : List (Char × Char) :=
  [('0', '\x00'), ('a', '\x07'), ('b', '\x08'), ('t', '\t'), ('\t', '\t'), ('n', '\n'), ('v', '\x0b'), ('f', '\x0c'),
   ('r', '\r'), ('e', '\x1b'), (' ', ' '), ('"', '"'), ('/', '/'), ('\\', '\\'), ('N', nextLine), ('_', Char.ofNat 0xa0),
   ('L', lineSeparator), ('P', paragraphSeparator)]

/-- What the escape after a backslash stands for, and what follows. -/
def escape? (c : Cursor) : Option (Char × Cursor) :=
  match c.next? with
  | some 'x' => hexChar? 2 (c.skip 1)
  | some 'u' => hexChar? 4 (c.skip 1)
  | some 'U' => hexChar? 8 (c.skip 1)
  | some letter => (letterEscapes.lookup letter).map fun ch => (ch, c.skip 1)
  | none => none

/-- A scalar up to its quote, after the characters `done` of it, last first, at most `fuel` steps. -/
def quotedFrom? (quote : Char) : Nat → List Char → Cursor → Option (List Char × Cursor)
  | 0, _, _ => none
  | fuel + 1, done, c =>
    if c.isDocumentMark then none
    else
      match c.rest with
      | [] => none
      | ch :: rest =>
        if isBlank ch then
          (gap? 0 false c).bind fun (g, c) => quotedFrom? quote fuel (g.text.reverse ++ done) c
        else if quote == '\x27' && ch == quote && rest.head? == some quote then
          quotedFrom? quote fuel (quote :: done) (c.skip 2)
        else if ch == quote then some (done.reverse, c.skip 1)
        else if quote == '"' && ch == '\\' then
          if rest.head?.any isBreak then
            (gap? 0 true (c.skip 1).skipBreak).bind fun (g, c) => quotedFrom? quote fuel (g.breaks.reverse ++ done) c
          else (escape? (c.skip 1)).bind fun (escaped, c) => quotedFrom? quote fuel (escaped :: done) c
        else quotedFrom? quote fuel (ch :: done) (c.skip 1)

/-- The quoted scalar that begins with the quote at a cursor. -/
def quoted? (quote : Char) (c : Cursor) : Option (Atom × Cursor) :=
  (quotedFrom? quote (c.left + 1) [] (c.skip 1)).map fun (text, c) =>
    (.scalar (String.ofList text) .quoted none, c)

end InferenceGate.Yaml
