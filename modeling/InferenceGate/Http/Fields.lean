import InferenceGate.Text.Bytes

/-!
# Header fields

The fields of a message in order, names in lower case and repeated names allowed. `insert` puts one value in place of all that a
name has; `append` adds to them. A value is text to the gateway when it is printable ASCII (`printable?`).
-/

namespace InferenceGate.Http

/-- Header fields: names in lower case, each with a value. -/
abbrev Fields := List (String × Bytes)

namespace Fields

/-- The first value of a name. -/
def get? (fs : Fields) (name : String) : Option Bytes := fs.lookup name

/-- All values of a name in order. -/
def getAll (fs : Fields) (name : String) : List Bytes := (fs.filter (·.1 == name)).map (·.2)

/-- The name occurs. -/
def contains (fs : Fields) (name : String) : Bool := fs.any (·.1 == name)

/-- The fields without those of a name. -/
def erase (fs : Fields) (name : String) : Fields := fs.filter (·.1 != name)

/-- The fields without those of some names. -/
def eraseAll (fs : Fields) (names : List String) : Fields := fs.filter fun f => !names.contains f.1

/-- The fields with one more value of a name. -/
def append (fs : Fields) (name : String) (value : Bytes) : Fields := fs ++ [(name, value)]

/-- The fields with one value of a name in place of those it had. -/
def insert (fs : Fields) (name : String) (value : Bytes) : Fields := (fs.erase name).append name value

/-- The fields with each of some values inserted. -/
def insertAll (fs : Fields) (more : Fields) : Fields := more.foldl (fun fs f => fs.insert f.1 f.2) fs

end Fields

/-- The text of a value of printable ASCII, space and tab among it. -/
def printable? (value : Bytes) : Option String :=
  if value.all fun b => (0x20 ≤ b && b < 0x7f) || b == 0x09 then Bytes.text? value else none

/-- The first value of a name, as text. -/
def Fields.text? (fs : Fields) (name : String) : Option String := (fs.get? name).bind printable?

/-- A byte that may stand in a field name. -/
def isNameByte (b : UInt8) : Bool :=
  Bytes.isDigit b || (0x41 ≤ b && b ≤ 0x5a) || (0x61 ≤ b && b ≤ 0x7a) ||
    (Bytes.ofText "!#$%&'*+-.^_`|~").contains b

/-- A field name from its text, in lower case. -/
def fieldName? (s : String) : Option String :=
  let bs := Bytes.ofText s
  if bs.isEmpty || !bs.all isNameByte then none else Bytes.text? (bs.map Bytes.lower)

/-- A byte that may stand in a field value: no control but the tab. -/
def isValueByte (b : UInt8) : Bool := (0x20 ≤ b && b != 0x7f) || b == 0x09

end InferenceGate.Http
