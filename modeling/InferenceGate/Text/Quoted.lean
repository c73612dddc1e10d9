import InferenceGate.Text.Bytes
import InferenceGate.Text.Combining
import InferenceGate.Text.Graphic

/-!
# Text between quotes, for people to read

A text is shown between quotes with nothing in it that could not be seen: quotes, backslashes and line ends are escaped by a
letter, and every other character that has no look of its own or joins the one before by its number in hexadecimal.
-/

namespace InferenceGate.Text

/-- A character that is shown as it is: one with a look of its own that stands by itself. -/
def isShown (c : Char) : Bool := isGraphic c && !isJoiner c

/-- A number in lower-case hexadecimal, at most `fuel` digits of it. -/
def hexDigits : Nat → Nat → List Char
  | 0, _ => []
  | fuel + 1, n => if n < 16 then [Bytes.hexChar n] else hexDigits fuel (n / 16) ++ [Bytes.hexChar (n % 16)]

/-- A character between quotes. -/
def shownChar (c : Char) : List Char :=
  if c == '"' then ['\\', '"']
  else if c == '\\' then ['\\', '\\']
  else if c == '\n' then ['\\', 'n']
  else if c == '\r' then ['\\', 'r']
  else if c == '\t' then ['\\', 't']
  else if c.toNat == 0 then ['\\', '0']
  else if isShown c then [c]
  else ['\\', 'u', '\x7b'] ++ hexDigits 6 c.toNat ++ ['\x7d']

/-- A text between quotes. -/
def quoted (s : String) : String := String.ofList ('"' :: s.toList.flatMap shownChar ++ ['"'])

end InferenceGate.Text
