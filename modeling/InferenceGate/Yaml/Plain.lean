import InferenceGate.Yaml.Scalar

/-!
# Plain scalars of YAML

A plain scalar is words without quotes. It ends before a comment, before a colon that ends a word, in brackets before a mark of
theirs, and where a line is indented no more than what it belongs to.
-/

namespace InferenceGate.Yaml

/-- A character that no plain scalar begins with. -/
def isIndicator (c : Char) : Bool :=
  isFlowMark c || ['-', '?', ':', '#', '&', '*', '!', '|', '>', '\x27', '"', '%', '@', Char.ofNat 0x60].contains c

/-- A plain scalar begins here: a hyphen may begin one before more of a word, and outside brackets so may a question mark and a
colon. -/
def beginsPlain (inFlow : Bool) (c : Cursor) : Bool :=
  match c.next? with
  | none => false
  | some ch =>
    !(isBlank ch || isIndicator ch) || (ch == '-' && !c.second?.any isSpace) ||
      (!inFlow && (ch == '?' || ch == ':') && !endsWord c.second?)

/-- The word of a plain scalar at the front of a text, last character first, after the characters `done` of it; none where a colon
stands before a mark of the brackets. -/
def plainWord? (inFlow : Bool) (done : List Char) : List Char → Option (List Char)
  | [] => some done
  | ch :: rest =>
    if isBlank ch then some done
    else if inFlow && ch == ':' && rest.head?.any (fun d => isFlowMark d || d == '?') then none
    else if (ch == ':' && endsWord rest.head?) || (inFlow && isFlowMark ch) then some done
    else plainWord? inFlow (ch :: done) rest

/-- A plain scalar after the characters `done` of it, last first, and a gap, at most `fuel` words; its lines begin at a column or
after it. With it comes whether the scalar ends in a gap with a line break. -/
def plainFrom? (inFlow : Bool) (column : Nat) : Nat → List Char → Gap → Cursor → Option (List Char × Bool × Cursor)
  | 0, _, _, _ => none
  | fuel + 1, done, g, c =>
    if c.isDocumentMark || c.sees '#' then some (done.reverse, g.isBroken, c)
    else
      (plainWord? inFlow [] c.rest).bind fun word =>
        if word.isEmpty then some (done.reverse, g.isBroken, c)
        else
          let done := word ++ g.text.reverse ++ done
          let c := c.skip word.length
          if !c.seesAny isBlank then some (done.reverse, false, c)
          else
            (gap? column false c).bind fun (g, c) =>
              if !inFlow && c.column < column then some (done.reverse, g.isBroken, c) else plainFrom? inFlow column fuel done g c

/-- The plain scalar at a cursor, and whether a line break follows it. -/
def plain? (inFlow : Bool) (column : Nat) (c : Cursor) : Option (Atom × Bool × Cursor) :=
  (plainFrom? inFlow column (c.left + 1) [] {} c).map fun (text, broken, c) =>
    (.scalar (String.ofList text) .plain none, broken, c)

end InferenceGate.Yaml
