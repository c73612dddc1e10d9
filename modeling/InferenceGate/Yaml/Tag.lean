import InferenceGate.Yaml.Scalar

/-!
# Names and tags of YAML

A tag is a handle between exclamation marks and a suffix, or a whole address between angle brackets; octets may be written after a
percent sign, and stand for themselves as characters. What a handle is short for, a line at the head of a document may say.
-/

namespace InferenceGate.Yaml

/-- The name at a cursor. -/
def name (c : Cursor) : List Char × Cursor := (c.rest.takeWhile isNameChar, c.skipWhile isNameChar)

/-- The name of an anchor after its mark: it is not empty, and a blank or one of some marks ends it. -/
def anchorName? (c : Cursor) : Option (List Char × Cursor) :=
  let (n, c) := name c
  let ends := endsWord c.next? || c.seesAny fun ch => ['?', ':', ',', ']', '\x7d', '%', '@', Char.ofNat 0x60].contains ch
  if n.isEmpty || !ends then none else some (n, c)

/-! ## Tags -/

/-- A character of an address; some may stand only between angle brackets. -/
def isAddressChar (verbatim : Bool) (c : Char) : Bool :=
  isNameChar c || [';', '/', '?', ':', '@', '&', '=', '+', '$', '.', '!', '~', '*', '\x27', '(', ')'].contains c ||
    (verbatim && [',', '[', ']'].contains c)

/-- The octet after a percent sign at a cursor. -/
def octet? (c : Cursor) : Option (Nat × Cursor) :=
  match c.rest with
  | '%' :: high :: low :: _ => (radixValue? 16 [high, low]).map fun n => (n, c.skip 3)
  | _ => none

/-- How many octets follow the first one of a character. -/
def octetsAfter? (octet : Nat) : Option Nat :=
  if octet < 0x80 then some 0
  else if 0xc0 ≤ octet && octet < 0xe0 then some 1
  else if 0xe0 ≤ octet && octet < 0xf0 then some 2
  else if 0xf0 ≤ octet && octet < 0xf8 then some 3
  else none

/-- So many octets that each go on with a character. -/
def moreOctets? : Nat → Cursor → Option (List Char × Cursor)
  | 0, c => some ([], c)
  | n + 1, c =>
    (octet? c).bind fun (octet, c) =>
      if 0x80 ≤ octet && octet < 0xc0 then (moreOctets? n c).map fun (more, c) => (Char.ofNat octet :: more, c) else none

/-- The octets of one character. -/
def octets? (c : Cursor) : Option (List Char × Cursor) :=
  (octet? c).bind fun (octet, c) =>
    (octetsAfter? octet).bind fun n => (moreOctets? n c).map fun (more, c) => (Char.ofNat octet :: more, c)

/-- The address at a cursor, at most `fuel` characters of it. -/
def addressFrom? (verbatim : Bool) : Nat → Cursor → Option (List Char × Cursor)
  | 0, _ => none
  | fuel + 1, c =>
    match c.next? with
    | none => some ([], c)
    | some ch =>
      if ch == '%' then
        (octets? c).bind fun (os, c) => (addressFrom? verbatim fuel c).map fun (more, c) => (os ++ more, c)
      else if isAddressChar verbatim ch then
        (addressFrom? verbatim fuel (c.skip 1)).map fun (more, c) => (ch :: more, c)
      else some ([], c)

/-- The address at a cursor, which goes on with a handle that has turned out to be none; together they may not be empty. -/
def address? (verbatim : Bool) (begun : List Char) (c : Cursor) : Option (List Char × Cursor) :=
  (addressFrom? verbatim (c.left + 1) c).bind fun (more, after) =>
    if begun.isEmpty && after.left == c.left then none else some (begun.drop 1 ++ more, after)

/-- An exclamation mark, a name and perhaps another exclamation mark. -/
def handle? (c : Cursor) : Option (List Char × Cursor) :=
  if !c.sees '!' then none
  else
    let (n, c) := name (c.skip 1)
    some (if c.sees '!' then ('!' :: n ++ ['!'], c.skip 1) else ('!' :: n, c))

/-- The text is a handle and not the beginning of a suffix. -/
def isHandle (h : List Char) : Bool := 1 < h.length && h.getLast? == some '!'

/-- The tag at a cursor as a handle and a suffix; an address of its own has no handle, nor has the exclamation mark alone. -/
def tag? (inFlow : Bool) (c : Cursor) : Option ((List Char × List Char) × Cursor) := do
  let (parts, c) ←
    if c.second? == some '<' then do
      let (address, c) ← address? true [] (c.skip 2)
      if c.sees '>' then some (([], address), c.skip 1) else none
    else do
      let (h, c) ← handle? c
      let (suffix, c) ← address? false (if isHandle h then [] else h) c
      some (if isHandle h then (h, suffix) else if suffix.isEmpty then ([], ['!']) else (['!'], suffix), c)
  if endsWord c.next? || (inFlow && c.sees ',') then some (parts, c) else none

/-! ## Directives -/

/-- A line at the head of a document: the version of the language, or what a handle is short for. -/
inductive Directive where
  | version (major minor : Nat)
  | handle (name : List Char) (address : List Char)

/-- A number of a version, of at most nine digits. -/
def versionNumber? (c : Cursor) : Option (Nat × Cursor) :=
  let digits := c.rest.takeWhile fun ch => '0' ≤ ch && ch ≤ '9'
  if digits.length ≤ 9 then (radixValue? 10 digits).map fun n => (n, c.skip digits.length) else none

/-- A version after its name. -/
def version? (c : Cursor) : Option (Directive × Cursor) := do
  let (major, c) ← versionNumber? (c.skipWhile isSpace)
  if !c.sees '.' then none
  else
    let (minor, c) ← versionNumber? (c.skip 1)
    return (.version major minor, c)

/-- A handle and its address after the name of the directive. -/
def shorthand? (c : Cursor) : Option (Directive × Cursor) := do
  let (h, c) ← handle? (c.skipWhile isSpace)
  if !(isHandle h || h == ['!']) || !c.seesAny isSpace then none
  else
    let (address, c) ← address? true [] (c.skipWhile isSpace)
    if endsWord c.next? then some (.handle h address, c) else none

/-- The directive after its percent sign, and the line after. -/
def directive? (c : Cursor) : Option (Directive × Cursor) := do
  let (n, c) := name c
  if !endsWord c.next? then none
  else
    let (d, c) ←
      if n == "YAML".toList then version? c
      else if n == "TAG".toList then shorthand? c
      else none
    let c := c.skipComment
    if c.next?.all isBreak then some (d, c.skipBreak) else none

end InferenceGate.Yaml
