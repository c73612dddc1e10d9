import InferenceGate.Document.Tree
import InferenceGate.Text.Bytes
import InferenceGate.Yaml.Cursor

/-!
# Scalars of YAML

What a scalar means depends on where it stands: where a text is asked for it is its text, and where a number is asked for it must be
plain and spell one. A tag may say that a scalar is a number or nothing.
-/

namespace InferenceGate.Yaml

/-- How a scalar is written: plainly, between quotes, or as a block of lines that are kept or folded. -/
inductive Style where
  | plain | quoted | kept | folded
  deriving DecidableEq

/-- A scalar with its tag, or a name that is none because a list or a table stands for it. -/
inductive Atom where
  | scalar (text : String) (style : Style) (tag : Option (List Char))
  | nameless
  deriving DecidableEq

/-- A document of YAML. -/
abbrev Tree := Document.Tree Atom

/-- The scalar that stands for nothing. -/
def Atom.absent : Atom := .scalar "" .plain none

/-! ## Numbers -/

/-- The number of digits of a base. -/
def radixValue? (base : Nat) (cs : List Char) : Option Nat :=
  if cs.isEmpty then none
  else cs.foldlM (fun n c =>
    if c.toNat < 0x80 then ((Bytes.hexDigit? (UInt8.ofNat c.toNat)).filter (· < base)).map fun d => base * n + d else none) 0

/-- A number without a sign; digits after a leading zero are none. -/
def unsigned? : List Char → Option Nat
  | '0' :: 'x' :: ds => radixValue? 16 ds
  | '0' :: 'o' :: ds => radixValue? 8 ds
  | '0' :: 'b' :: ds => radixValue? 2 ds
  | '0' :: _ :: _ => none
  | ds => radixValue? 10 ds

/-- A natural number, which a plus may stand before. -/
def natural? : List Char → Option Nat
  | '+' :: ds => unsigned? ds
  | ds => unsigned? ds

/-- A whole number after at most one sign. -/
def integer? : List Char → Option Int
  | '-' :: ds => (unsigned? ds).map fun n => -(n : Int)
  | ds => (natural? ds).map Int.ofNat

/-! ## Meaning -/

/-- The words for nothing. -/
def nullWords : List String := ["null", "Null", "NULL", "~"]

/-- The beginning of the tags that the language defines. -/
def coreTag (name : String) : List Char := "tag:yaml.org,2002:".toList ++ name.toList

/-- The text that may spell a number: a plain one, or a block of lines tagged as a number. -/
def Atom.numeral? : Atom → Option (List Char)
  | .scalar text .plain _ => some text.toList
  | .scalar text .kept (some tag) => if tag == coreTag "int" then some text.toList else none
  | _ => none

/-- Whether a scalar stands for nothing; one tagged so must be one of the words. -/
def Atom.isNull? : Atom → Option Bool
  | .scalar text .plain none => some (text.isEmpty || nullWords.contains text)
  | .scalar text .plain (some tag) =>
    if tag != coreTag "null" then some false else if nullWords.contains text then some true else none
  | _ => some false

/-- The text of a scalar. -/
def Atom.text? : Atom → Option String
  | .scalar text _ _ => some text
  | .nameless => none

/-- No list spells a record, and the plain scalar of no characters is a record without fields. -/
instance : Document.Scalar Atom where
  name? := Atom.text?
  isNull? := Atom.isNull?
  text? := Atom.text?
  integer? a := a.numeral?.bind integer?
  natural? a := a.numeral?.bind natural?
  isEmptyRecord a := match a with | .scalar text .plain _ => text.isEmpty | _ => false
  listForm := .refused

end InferenceGate.Yaml
