/-!
# Blank characters

The characters that count as white space in text a person wrote (the Unicode property `White_Space`), those that count as
white space between words of ASCII, and what remains of a text when the blanks at its two ends are taken away.
-/

namespace InferenceGate.Text

/-- The characters of the Unicode property `White_Space`. -/
def isBlank (c : Char) : Bool :=
  let n := c.toNat
  (0x09 ≤ n && n ≤ 0x0d) || n == 0x20 || n == 0x85 || n == 0xa0 || n == 0x1680 || (0x2000 ≤ n && n ≤ 0x200a) ||
    n == 0x2028 || n == 0x2029 || n == 0x202f || n == 0x205f || n == 0x3000

/-- The blank bytes of ASCII: tab, line feed, form feed, carriage return and space. -/
def isBlankByte (b : UInt8) : Bool := b == 0x20 || b == 0x09 || b == 0x0a || b == 0x0c || b == 0x0d

/-- A list without the elements at its end that satisfy a test. -/
def dropEnd {α : Type} (p : α → Bool) (l : List α) : List α := (l.reverse.dropWhile p).reverse

/-- A list without the elements at its two ends that satisfy a test. -/
def strip {α : Type} (p : α → Bool) (l : List α) : List α := dropEnd p (l.dropWhile p)

/-- A text without the blanks at its two ends. -/
def trim (s : String) : String := String.ofList (strip isBlank s.toList)

/-- Bytes without the blank bytes at their two ends. -/
def trimBytes (bs : List UInt8) : List UInt8 := strip isBlankByte bs

/-- A text of blanks alone, the empty one included. -/
def isBlankText (s : String) : Bool := s.toList.all isBlank

/-- A text that is not blank, trimmed. -/
def trimmed? (s : String) : Option String :=
  let t := trim s
  if t.isEmpty then none else some t

/-- The first `n` characters of a text. -/
def firstChars (n : Nat) (s : String) : String := String.ofList (s.toList.take n)

/-- A text with the letters `A` to `Z` in lower case and all else as it is. -/
def lowerAscii (s : String) : String := String.ofList (s.toList.map Char.toLower)

end InferenceGate.Text
