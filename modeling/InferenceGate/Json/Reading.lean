import InferenceGate.Decimal.Reading
import InferenceGate.Document.Tree
import InferenceGate.Json.Value
import InferenceGate.Text.Bytes

/-!
# Reading JSON

A document is read byte by byte: `Scan` stands within a token, `Builder` among the open lists and tables, and `Reader.step`
moves both, so that what has been read of a longer document is what is read of its beginning. The tree keeps every member. A
string that spells no text (half of a surrogate pair, bytes that are not UTF-8) and a number that overflows are leaves without
a meaning: they are refused where a value is asked for and pass where a member is passed over. Half of a pair is a leaf of its
own, for it ends a string early where its text is asked for.

`Tree.value?` gives the value of a tree whose lists and tables nest within a bound.
-/

namespace InferenceGate.Json

/-- A scalar of a document; a number or a string may have no meaning, and a string with half of a surrogate pair has none. -/
inductive Atom where
  | null
  | bool (b : Bool)
  | number (n : Option Number)
  | text (s : Option String)
  | halved

/-- A JSON document as written. -/
abbrev Tree := Document.Tree Atom

/-- A record field asks for a string where it asks for a name or a text, and for a whole number as written. -/
instance : Document.Scalar Atom where
  name? a := match a with | .text s => s | _ => none
  isNull? a := match a with | .null => some true | _ => some false
  text? a := match a with | .text s => s | _ => none
  integer? a := match a with | .number (some (.integer n)) => some n | _ => none
  natural? a := match a with | .number (some (.integer n)) => if n < 0 then none else some n.toNat | _ => none
  isEmptyRecord _ := false
  listForm := .whole

/-- The white space of the format. -/
def isSpace (b : UInt8) : Bool := b == 0x20 || b == 0x0a || b == 0x0d || b == 0x09

/-! ## Numbers -/

/-- The parts of a number literal, the digits of each last digit first. -/
structure Literal where
  negative : Bool := false
  whole : List Nat := []
  fraction : List Nat := []
  powerNegative : Bool := false
  power : List Nat := []

/-- What a number literal has come to. -/
inductive Phase where
  | minus | leadingZero | whole | point | fraction | mark | powerSign | power
  deriving DecidableEq

/-- A literal may end in this phase. -/
def Phase.complete : Phase → Bool
  | .leadingZero | .whole | .fraction | .power => true
  | _ => false

/-- What the next byte does to a literal. -/
inductive Progress where
  | more (l : Literal) (p : Phase)
  | ended
  | refused

/-- A literal after one more byte. -/
def Literal.step (l : Literal) (p : Phase) (b : UInt8) : Progress :=
  let d := Bytes.digitValue b
  let isMark := b == 0x65 || b == 0x45
  match p with
  | .minus =>
    if b == 0x30 then .more { l with whole := [0] } .leadingZero
    else if Bytes.isDigit b then .more { l with whole := [d] } .whole
    else .refused
  | .leadingZero =>
    if Bytes.isDigit b then .refused
    else if b == 0x2e then .more l .point
    else if isMark then .more l .mark
    else .ended
  | .whole =>
    if Bytes.isDigit b then .more { l with whole := d :: l.whole } .whole
    else if b == 0x2e then .more l .point
    else if isMark then .more l .mark
    else .ended
  | .point => if Bytes.isDigit b then .more { l with fraction := [d] } .fraction else .refused
  | .fraction =>
    if Bytes.isDigit b then .more { l with fraction := d :: l.fraction } .fraction
    else if isMark then .more l .mark
    else .ended
  | .mark =>
    if b == 0x2b then .more l .powerSign
    else if b == 0x2d then .more { l with powerNegative := true } .powerSign
    else if Bytes.isDigit b then .more { l with power := [d] } .power
    else .refused
  | .powerSign => if Bytes.isDigit b then .more { l with power := [d] } .power else .refused
  | .power => if Bytes.isDigit b then .more { l with power := d :: l.power } .power else .ended

/-- The number of a whole literal: a word if one holds it, except that minus zero is a real number. -/
def integerOf (negative : Bool) (word : Nat) : Number :=
  if !negative then .integer word
  else if word == 0 || 9223372036854775808 < word then .real { Binary64.ofNat word with negative := true }
  else .integer (-(word : Int))

/-- The number that a literal means; none when it overflows. -/
def Literal.number? (l : Literal) : Option Number :=
  let (word, _, excess) := Binary64.gather 0 0 l.whole.reverse
  let exponent : Nat := l.power.foldr (fun d n => 10 * n + d) 0
  let power : Int := if l.powerNegative then -(exponent : Int) else exponent
  if excess.isEmpty && l.fraction.isEmpty && l.power.isEmpty then some (integerOf l.negative word)
  else
    let (word, taken, _) := Binary64.gather word 0 l.fraction.reverse
    (Binary64.fromWord? l.negative word (excess.length - taken + power)).map .real

/-! ## Strings -/

/-- The inside of a string so far: its bytes, last first, unless half of a surrogate pair stands in it, and the first half of
a pair that waits for the second. -/
structure Quoted where
  content : Option Bytes := some []
  high : Option Nat := none

namespace Quoted

/-- One more byte of the text. -/
def push (q : Quoted) (b : UInt8) : Quoted :=
  match q.high with
  | some _ => { content := none }
  | none => { q with content := q.content.map (b :: ·) }

/-- One more escaped code unit: a character, or half of a surrogate pair. -/
def pushUnit (q : Quoted) (code : Nat) : Quoted :=
  let add (n : Nat) : Quoted :=
    { content := q.content.map ((Bytes.ofText (String.singleton (Char.ofNat n))).reverse ++ ·) }
  let isLow := 0xdc00 ≤ code && code ≤ 0xdfff
  match q.high with
  | some h => if isLow then add (0x10000 + (h - 0xd800) * 0x400 + (code - 0xdc00)) else { content := none }
  | none =>
    if 0xd800 ≤ code && code ≤ 0xdbff then { q with high := some code }
    else if isLow then { content := none }
    else add code

/-- A finished string. -/
def atom (q : Quoted) : Atom :=
  match q.high, q.content with
  | none, some bs => .text (Bytes.text? bs.reverse)
  | _, _ => .halved

/-- The byte that a letter after a backslash stands for. -/
def escaped? (b : UInt8) : Option UInt8 :=
  if b == 0x22 || b == 0x5c || b == 0x2f then some b
  else if b == 0x62 then some 0x08
  else if b == 0x66 then some 0x0c
  else if b == 0x6e then some 0x0a
  else if b == 0x72 then some 0x0d
  else if b == 0x74 then some 0x09
  else none

end Quoted

/-! ## Structure -/

/-- An open list or table: what is done of it, last first, and the name of the member to come. -/
inductive Frame where
  | items (done : List Tree)
  | members (done : List (Atom × Tree)) (name : Atom)

/-- What may come next. -/
inductive Expect where
  | value | firstItem | firstName | name | colon | separator | nothing
  deriving DecidableEq

/-- The open lists and tables, innermost first, and the whole tree once it is read. -/
structure Builder where
  frames : List Frame := []
  expect : Expect := .value
  result : Option Tree := none

namespace Builder

/-- A tree put where it belongs: it is the whole document, or joins the innermost list or table. -/
def put (b : Builder) (t : Tree) : Builder :=
  match b.frames with
  | [] => { frames := [], expect := .nothing, result := some t }
  | .items done :: fs => { b with frames := .items (t :: done) :: fs, expect := .separator }
  | .members done name :: fs => { b with frames := .members ((name, t) :: done) .null :: fs, expect := .separator }

/-- A scalar: a value, or the name of a member when it is a string. -/
def atom (b : Builder) (a : Atom) : Option Builder :=
  match b.expect with
  | .value | .firstItem => some (b.put (.leaf a))
  | .firstName | .name =>
    match a, b.frames with
    | .text _, .members done _ :: fs | .halved, .members done _ :: fs =>
      some { b with frames := .members done a :: fs, expect := .colon }
    | _, _ => none
  | _ => none

/-- A list or a table begins. -/
def openWith (b : Builder) (f : Frame) (e : Expect) : Option Builder :=
  match b.expect with
  | .value | .firstItem => some { b with frames := f :: b.frames, expect := e }
  | _ => none

/-- A list ends. -/
def closeList (b : Builder) : Option Builder :=
  match b.frames, b.expect with
  | .items done :: fs, .separator | .items done :: fs, .firstItem => some ({ b with frames := fs }.put (.list done.reverse))
  | _, _ => none

/-- A table ends. -/
def closeTable (b : Builder) : Option Builder :=
  match b.frames, b.expect with
  | .members done _ :: fs, .separator | .members done _ :: fs, .firstName =>
    some ({ b with frames := fs }.put (.table done.reverse))
  | _, _ => none

/-- A comma: another item or member follows. -/
def comma (b : Builder) : Option Builder :=
  match b.frames, b.expect with
  | .items _ :: _, .separator => some { b with expect := .value }
  | .members _ _ :: _, .separator => some { b with expect := .name }
  | _, _ => none

/-- A colon: the value of a member follows. -/
def colon (b : Builder) : Option Builder :=
  match b.expect with
  | .colon => some { b with expect := .value }
  | _ => none

end Builder

/-! ## The reader -/

/-- Where the reader stands in the bytes. -/
inductive Scan where
  | between
  | word (left : Bytes) (a : Atom)
  | number (l : Literal) (p : Phase)
  | text (q : Quoted)
  | escape (q : Quoted)
  | unit (q : Quoted) (digits : Nat) (code : Nat)

/-- A document read so far. -/
structure Reader where
  scan : Scan := .between
  builder : Builder := {}

namespace Reader

/-- The reader between tokens, with what has been built. -/
def resume (b : Option Builder) : Option Reader := b.map fun b => { scan := .between, builder := b }

/-- A byte between tokens. -/
def start (b : Builder) (c : UInt8) : Option Reader :=
  if isSpace c then some { builder := b }
  else if c == 0x7b then resume (b.openWith (.members [] .null) .firstName)
  else if c == 0x7d then resume b.closeTable
  else if c == 0x5b then resume (b.openWith (.items []) .firstItem)
  else if c == 0x5d then resume b.closeList
  else if c == 0x2c then resume b.comma
  else if c == 0x3a then resume b.colon
  else if c == 0x22 then some { scan := .text {}, builder := b }
  else if c == 0x2d then some { scan := .number { negative := true } .minus, builder := b }
  else if c == 0x30 then some { scan := .number { whole := [0] } .leadingZero, builder := b }
  else if Bytes.isDigit c then some { scan := .number { whole := [Bytes.digitValue c] } .whole, builder := b }
  else if c == 0x74 then some { scan := .word (Bytes.ofText "rue") (.bool true), builder := b }
  else if c == 0x66 then some { scan := .word (Bytes.ofText "alse") (.bool false), builder := b }
  else if c == 0x6e then some { scan := .word (Bytes.ofText "ull") .null, builder := b }
  else none

/-- The reader after one more byte; none when no document begins so. -/
def step (r : Reader) (c : UInt8) : Option Reader :=
  match r.scan with
  | .between => start r.builder c
  | .word [] _ => none
  | .word [l] a => if c == l then resume (r.builder.atom a) else none
  | .word (l :: ls) a => if c == l then some { r with scan := .word ls a } else none
  | .number l p =>
    match l.step p c with
    | .more l p => some { r with scan := .number l p }
    | .ended => (r.builder.atom (.number l.number?)).bind fun b => start b c
    | .refused => none
  | .text q =>
    if c == 0x22 then resume (r.builder.atom q.atom)
    else if c == 0x5c then some { r with scan := .escape q }
    else if c < 0x20 then none
    else some { r with scan := .text (q.push c) }
  | .escape q =>
    if c == 0x75 then some { r with scan := .unit q 4 0 }
    else (Quoted.escaped? c).map fun b => { r with scan := .text (q.push b) }
  | .unit q digits code =>
    (Bytes.hexDigit? c).map fun d =>
      let code := 16 * code + d
      if digits ≤ 1 then { r with scan := .text (q.pushUnit code) } else { r with scan := .unit q (digits - 1) code }

/-- The reader after more bytes. -/
def feed : Reader → Bytes → Option Reader
  | r, [] => some r
  | r, c :: cs =>
    match r.step c with
    | none => none
    | some r => feed r cs

/-- The document, if it is complete. -/
def finish (r : Reader) : Option Tree :=
  match r.scan with
  | .between => r.builder.result
  | .number l p => if p.complete then (r.builder.atom (.number l.number?)).bind Builder.result else none
  | _ => none

end Reader

/-- The document that bytes spell. -/
def read? (bs : Bytes) : Option Tree := (Reader.feed {} bs).bind Reader.finish

/-! ## Values -/

/-- Lists and tables nest at most this deep in a value. -/
def maxDepth : Nat := 127

/-- The value of a scalar. -/
def Atom.value? : Atom → Option Value
  | .null => some .null
  | .bool b => some (.bool b)
  | .number n => n.map .number
  | .text s => s.map .string
  | .halved => none

mutual
/-- The value of a tree whose lists and tables nest at most `room` deep. -/
def valueOf? (room : Nat) : Tree → Option Value
  | .leaf a => a.value?
  | .list items =>
    match room with
    | 0 => none
    | room + 1 => (valuesOf? room items).map .array
  | .table members =>
    match room with
    | 0 => none
    | room + 1 => (membersOf? room members).map fun l => .object (Members.ofList l)

/-- The values of the items of a list. -/
def valuesOf? (room : Nat) : List Tree → Option (List Value)
  | [] => some []
  | t :: ts => (valueOf? room t).bind fun v => (valuesOf? room ts).map (v :: ·)

/-- The names and values of the members of a table, in the order written. -/
def membersOf? (room : Nat) : List (Atom × Tree) → Option (List (String × Value))
  | [] => some []
  | (name, t) :: ms =>
    match name with
    | .text (some n) => (valueOf? room t).bind fun v => (membersOf? room ms).map ((n, v) :: ·)
    | _ => none
end

/-- The value that bytes spell. -/
def parse? (bs : Bytes) : Option Value := (read? bs).bind (valueOf? maxDepth)

/-- The value that a text spells. -/
def parseText? (s : String) : Option Value := parse? (Bytes.ofText s)

/-- A member of a record that may be absent or null and is otherwise any value. -/
def optionalValue? (found : Document.Found Atom) (name : String) (room : Nat) : Option (Option Value) :=
  found.optional? name (valueOf? room)

end InferenceGate.Json
