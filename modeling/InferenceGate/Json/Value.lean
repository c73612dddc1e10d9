import InferenceGate.Decimal.Binary64
import InferenceGate.Text.Integer

/-!
# JSON values

A number is a whole number of sixty-four bits or a binary64 number. The members of an object stand in the order of their names
(by code point, which is the order of their UTF-8 bytes), each name once: `Members.insert` keeps them so, and of two members of
one name the later wins.
-/

namespace InferenceGate.Json

/-- A number: a whole number in the range of signed or unsigned words, or a binary64 number. -/
inductive Number where
  | integer (n : Int)
  | real (x : Binary64)
  deriving DecidableEq

/-- A JSON value. -/
inductive Value where
  | null
  | bool (b : Bool)
  | number (n : Number)
  | string (s : String)
  | array (items : List Value)
  | object (members : List (String × Value))

/-- The members of an object, in the order of their names. -/
abbrev Members := List (String × Value)

namespace Members

/-- The value under a name. -/
def get? (ms : Members) (name : String) : Option Value := ms.lookup name

/-- The members with a value put under a name, in place of the one it had. -/
def insert (name : String) (value : Value) : Members → Members
  | [] => [(name, value)]
  | (n, v) :: ms =>
    if name = n then (name, value) :: ms
    else if name < n then (name, value) :: (n, v) :: ms
    else (n, v) :: insert name value ms

/-- The members without those under a name. -/
def erase (name : String) (ms : Members) : Members := ms.filter fun m => m.1 != name

/-- Members put in one after the other. -/
def ofList (l : List (String × Value)) : Members := l.foldl (fun ms m => insert m.1 m.2 ms) []

end Members

namespace Number

/-- A number as a signed word: a whole number in range. -/
def i64? : Number → Option Int
  | .integer n => if inI64 n then some n else none
  | .real _ => none

/-- The binary64 number nearest to a number. -/
def toReal : Number → Binary64
  | .integer n => .ofInt n
  | .real x => x

end Number

namespace Value

/-- The text of a string. -/
def text? : Value → Option String
  | .string s => some s
  | _ => none

/-- The members of an object. -/
def members? : Value → Option Members
  | .object ms => some ms
  | _ => none

/-- The items of an array. -/
def items? : Value → Option (List Value)
  | .array items => some items
  | _ => none

/-- A natural number. -/
def ofNat (n : Nat) : Value := .number (.integer n)

/-- A whole number. -/
def ofInt (n : Int) : Value := .number (.integer n)

/-- A text, or null. -/
def ofText? : Option String → Value
  | some s => .string s
  | none => .null

/-- A whole number, or null. -/
def ofInt? : Option Int → Value
  | some n => .ofInt n
  | none => .null

end Value

end InferenceGate.Json
