import InferenceGate.Text.Bytes

/-!
# Text from bytes that may not be UTF-8

Bytes are read as UTF-8 with the replacement character in place of each maximal piece that begins no character or is cut short.
-/

namespace InferenceGate.Bytes

/-- How many bytes follow a first byte, and the bounds of the one that comes next; none where no character begins so. -/
def leadOf? (b : UInt8) : Option (Nat × UInt8 × UInt8) :=
  if 0xc2 ≤ b && b ≤ 0xdf then some (1, 0x80, 0xbf)
  else if b == 0xe0 then some (2, 0xa0, 0xbf)
  else if b == 0xed then some (2, 0x80, 0x9f)
  else if 0xe1 ≤ b && b ≤ 0xef then some (2, 0x80, 0xbf)
  else if b == 0xf0 then some (3, 0x90, 0xbf)
  else if b == 0xf4 then some (3, 0x80, 0x8f)
  else if 0xf1 ≤ b && b ≤ 0xf3 then some (3, 0x80, 0xbf)
  else none

/-- How much of a character follows: at most `owed` bytes, the first of them within bounds. -/
def tailLength (owed : Nat) (low high : UInt8) : Bytes → Nat
  | [] => 0
  | b :: bs =>
    match owed with
    | 0 => 0
    | owed + 1 => if low ≤ b && b ≤ high then 1 + tailLength owed 0x80 0xbf bs else 0

/-- The text of the bytes of one character, or the replacement character. -/
def pieceText (bs : Bytes) : String := (text? bs).getD "\ufffd"

/-- The text of bytes with what is no text replaced; at most `fuel` pieces. -/
def lossyPieces : Nat → Bytes → List String
  | 0, _ => []
  | _, [] => []
  | fuel + 1, b :: bs =>
    match leadOf? b with
    | none => pieceText [b] :: lossyPieces fuel bs
    | some (owed, low, high) =>
      let n := tailLength owed low high bs
      pieceText (b :: bs.take n) :: lossyPieces fuel (bs.drop n)

/-- The text of bytes with what is no text replaced. -/
def lossyText (bs : Bytes) : String := String.join (lossyPieces bs.length bs)

end InferenceGate.Bytes
