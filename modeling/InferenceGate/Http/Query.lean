import InferenceGate.Text.Lossy

/-!
# Query strings of forms

A query is pairs between ampersands, empty ones passed over, each a name and a value about its first equals sign. A plus sign
stands for a space and a percent sign before two hexadecimal digits for a byte. Of two pairs of one name the later counts.
-/

namespace InferenceGate.Http

/-- Bytes with percent escapes resolved; an incomplete escape stands for itself. -/
def unescape : Bytes → Bytes
  | [] => []
  | 0x25 :: a :: b :: bs =>
    match Bytes.hexDigit? a, Bytes.hexDigit? b with
    | some x, some y => UInt8.ofNat (16 * x + y) :: unescape bs
    | _, _ => 0x25 :: unescape (a :: b :: bs)
  | c :: bs => c :: unescape bs
termination_by bs => bs.length

/-- A byte of a form: a plus sign stands for a space. -/
def formByte (b : UInt8) : UInt8 := if b == 0x2b then 0x20 else b

/-- The decoded text of a name or a value. -/
def decodeForm (bs : Bytes) : String := Bytes.lossyText (unescape (bs.map formByte))

/-- The pairs of a query, decoded. -/
def formPairs (query : Bytes) : List (String × String) :=
  ((Bytes.splitOn 0x26 query).filter fun piece => !piece.isEmpty).map fun piece =>
    let (name, value) := Bytes.cut 0x3d piece
    (decodeForm name, decodeForm (value.getD []))

/-- The value of a name in a query: the last there is. -/
def formValue? (query : Bytes) (name : String) : Option String :=
  ((formPairs query).filter (·.1 == name)).getLast?.map (·.2)

end InferenceGate.Http
