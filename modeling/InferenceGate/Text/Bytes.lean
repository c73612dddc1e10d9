/-!
# Bytes and the text they spell

A body, a header value or a token is a list of bytes. Bytes that are well-formed UTF-8 spell a text, and a text has one
spelling; hexadecimal is how other bytes are shown.
-/

namespace InferenceGate

/-- A string of bytes. -/
abbrev Bytes := List UInt8

namespace Bytes

/-- The UTF-8 spelling of a text. -/
def ofText (s : String) : Bytes := s.toUTF8.data.toList

/-- The text that bytes spell, when they are well-formed UTF-8. -/
def text? (bs : Bytes) : Option String := String.fromUTF8? ⟨bs.toArray⟩

/-- The value of a hexadecimal digit of either case. -/
def hexDigit? (b : UInt8) : Option Nat :=
  if 0x30 ≤ b && b ≤ 0x39 then some (b.toNat - 0x30)
  else if 0x61 ≤ b && b ≤ 0x66 then some (b.toNat - 0x61 + 10)
  else if 0x41 ≤ b && b ≤ 0x46 then some (b.toNat - 0x41 + 10)
  else none

/-- The lower-case hexadecimal digit of a value below sixteen. -/
def hexChar (n : Nat) : Char := if n < 10 then Char.ofNat (0x30 + n) else Char.ofNat (0x61 + (n - 10))

/-- Two lower-case hexadecimal digits for each byte. -/
def hex (bs : Bytes) : String :=
  String.ofList (bs.flatMap fun b => [hexChar (b.toNat / 16), hexChar (b.toNat % 16)])

/-- The bytes that pairs of hexadecimal digits name. -/
def ofHex? (bs : Bytes) : Option Bytes := go bs []
where
  go : Bytes → Bytes → Option Bytes
  | [], done => some done.reverse
  | [_], _ => none
  | a :: b :: rest, done =>
    match hexDigit? a, hexDigit? b with
    | some x, some y => go rest (UInt8.ofNat (16 * x + y) :: done)
    | _, _ => none

/-- A digit of ASCII. -/
def isDigit (b : UInt8) : Bool := 0x30 ≤ b && b ≤ 0x39

/-- The value of a digit of ASCII. -/
def digitValue (b : UInt8) : Nat := b.toNat - 0x30

/-- A byte with the letters `A` to `Z` in lower case. -/
def lower (b : UInt8) : UInt8 := if 0x41 ≤ b && b ≤ 0x5a then b + 0x20 else b

/-- The rest of a string of bytes after a given beginning. -/
def afterHead? : Bytes → Bytes → Option Bytes
  | [], bs => some bs
  | _ :: _, [] => none
  | h :: hs, b :: bs => if h == b then afterHead? hs bs else none

/-- The maximal pieces that hold no separator, as many as there are separators and one more. -/
def splitOn (sep : UInt8) (bs : Bytes) : List Bytes := go bs [] []
where
  go : Bytes → Bytes → List Bytes → List Bytes
  | [], piece, done => (piece.reverse :: done).reverse
  | b :: bs, piece, done => if b == sep then go bs [] (piece.reverse :: done) else go bs (b :: piece) done

/-- The bytes before the first separator, and those after it if there is one. -/
def cut (sep : UInt8) (bs : Bytes) : Bytes × Option Bytes := go bs []
where
  go : Bytes → Bytes → Bytes × Option Bytes
  | [], done => (done.reverse, none)
  | b :: bs, done => if b == sep then (done.reverse, some bs) else go bs (b :: done)

end Bytes

end InferenceGate
