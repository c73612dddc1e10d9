import InferenceGate.Decimal.Reading
import InferenceGate.Document.Tree
import InferenceGate.Text.Bytes

/-!
# Keys and scalars of TOML

What stands between the structure of a TOML document: bare and quoted keys, strings, numbers and truth values. Each reader takes
what it reads from the front of the text and gives the rest.
-/

namespace InferenceGate.Toml

/-- A scalar of TOML. Numbers that are not whole are told apart from strings and nothing more. -/
inductive Atom where
  | text (s : String)
  | integer (n : Int)
  | real
  | bool (b : Bool)
  deriving DecidableEq

/-- The first items of a list spell a record. -/
instance : Document.Scalar Atom where
  name?
    | .text s => some s
    | _ => none
  isNull? _ := some false
  text?
    | .text s => some s
    | _ => none
  integer?
    | .integer n => some n
    | _ => none
  natural?
    | .integer n => if n < 0 then none else some n.toNat
    | _ => none
  isEmptyRecord _ := false
  listForm := .front

/-- A document of TOML. -/
abbrev Tree := Document.Tree Atom

/-- What is read from the front of a text, and the rest. -/
abbrev Read (α : Type) := Option (α × List Char)

/-! ## Blanks -/

/-- A space or a tab. -/
def isSpace (c : Char) : Bool := c == ' ' || c == '\t'

/-- A control that may not stand in a document. -/
def isControl (c : Char) : Bool := (c.toNat < 0x20 && c != '\t') || c.toNat == 0x7f

/-- A text without the spaces at its front. -/
def skipSpaces (cs : List Char) : List Char := cs.dropWhile isSpace

/-- What follows a comment at the front of a text, if there is one. -/
def skipComment (cs : List Char) : List Char :=
  match cs with
  | '#' :: rest => rest.dropWhile fun c => !isControl c
  | _ => cs

/-- What follows a line end, if one stands at the front of a text. -/
def newLine? : List Char → Option (List Char)
  | '\n' :: rest => some rest
  | '\r' :: '\n' :: rest => some rest
  | _ => none

/-- What follows the rest of a line that holds nothing more. -/
def restOfLine? (cs : List Char) : Option (List Char) :=
  let rest := skipComment (skipSpaces cs)
  if rest.isEmpty then some [] else newLine? rest

/-- A line end is taken off the text. -/
theorem length_lt_of_newLine? {cs rest : List Char} (h : newLine? cs = some rest) : rest.length < cs.length := by
  unfold newLine? at h
  split at h
  · cases h
    exact Nat.lt_succ_self _
  · cases h
    exact Nat.lt_succ_of_lt (Nat.lt_succ_self _)
  · cases h

/-- Blanks and a comment are taken off the text. -/
theorem length_skipComment_le (cs : List Char) : (skipComment (skipSpaces cs)).length ≤ cs.length := by
  have spaces : (skipSpaces cs).length ≤ cs.length := (List.dropWhile_suffix _).length_le
  unfold skipComment
  split
  · rename_i rest eq
    have comment : (rest.dropWhile fun c => !isControl c).length ≤ rest.length := (List.dropWhile_suffix _).length_le
    simp only [eq, List.length_cons] at spaces
    omega
  · exact spaces

/-- What follows any blanks, line ends and comments. -/
def skipLines (cs : List Char) : List Char :=
  match _h : newLine? (skipComment (skipSpaces cs)) with
  | some rest => skipLines rest
  | none => skipComment (skipSpaces cs)
termination_by cs.length
decreasing_by exact Nat.lt_of_lt_of_le (length_lt_of_newLine? ‹_›) (length_skipComment_le cs)

/-! ## Strings -/

/-- The character of so many hexadecimal digits. -/
def hexChar? (count : Nat) (cs : List Char) : Read Char :=
  let digits := cs.take count
  if digits.length < count then none
  else
    match digits.foldlM (fun n c => (Bytes.hexDigit? (UInt8.ofNat c.toNat)).map fun d => 16 * n + d) 0 with
    | some n => if n.isValidChar && digits.all (·.toNat < 0x80) then some (Char.ofNat n, cs.drop count) else none
    | none => none

/-- What an escape stands for, after its backslash. -/
def escape? : List Char → Read Char
  | 'b' :: rest => some ('\x08', rest)
  | 't' :: rest => some ('\t', rest)
  | 'n' :: rest => some ('\n', rest)
  | 'f' :: rest => some ('\x0c', rest)
  | 'r' :: rest => some ('\r', rest)
  | '"' :: rest => some ('"', rest)
  | '\\' :: rest => some ('\\', rest)
  | 'u' :: rest => hexChar? 4 rest
  | 'U' :: rest => hexChar? 8 rest
  | _ => none

/-- A string with escapes up to its quote, at most `fuel` characters of it. -/
def basicString? : Nat → List Char → List Char → Read String
  | 0, _, _ => none
  | fuel + 1, done, cs =>
    match cs with
    | '"' :: rest => some (String.ofList done.reverse, rest)
    | '\\' :: rest => (escape? rest).bind fun (c, rest) => basicString? fuel (c :: done) rest
    | c :: rest => if isControl c then none else basicString? fuel (c :: done) rest
    | [] => none

/-- A string without escapes up to its apostrophe. -/
def literalString? (cs : List Char) : Read String :=
  let inner := cs.takeWhile (· != '\x27')
  match cs.drop inner.length with
  | _ :: rest => if inner.any isControl then none else some (String.ofList inner, rest)
  | [] => none

/-- A string on one line, after its opening quote or apostrophe. -/
def lineString? (cs : List Char) : Read String :=
  match cs with
  | '"' :: rest => basicString? (rest.length + 1) [] rest
  | '\x27' :: rest => literalString? rest
  | _ => none

/-- What follows blanks and line ends. -/
def skipBlankLines : List Char → List Char
  | [] => []
  | c :: rest =>
    if isSpace c then skipBlankLines rest
    else
      match _h : newLine? (c :: rest) with
      | some rest => skipBlankLines rest
      | none => c :: rest
termination_by cs => cs.length
decreasing_by
  · exact Nat.lt_succ_self _
  · exact length_lt_of_newLine? ‹_›

/-- A string over lines up to three quotes, with escapes or without, at most `fuel` steps: the last three of a row of quotes close it,
but at most two more may stand before them. -/
def longString? (quote : Char) (escapes : Bool) : Nat → List Char → List Char → Read String
  | 0, _, _ => none
  | fuel + 1, done, cs =>
    let quotes := (cs.takeWhile (· == quote)).length
    if 3 ≤ quotes then
      let more := min (quotes - 3) 2
      some (String.ofList (List.replicate more quote ++ done).reverse, cs.drop (3 + more))
    else
      match newLine? cs with
      | some rest => longString? quote escapes fuel ('\n' :: done) rest
      | none =>
        match cs with
        | [] => none
        | c :: rest =>
          if c == '\\' && escapes then
            match newLine? (skipSpaces rest) with
            | some after => longString? quote escapes fuel done (skipBlankLines after)
            | none => (escape? rest).bind fun (c, rest) => longString? quote escapes fuel (c :: done) rest
          else if isControl c then none
          else longString? quote escapes fuel (c :: done) rest

/-- A string after its opening quotes or apostrophes; a line end right after three of them is no part of it. -/
def string? (cs : List Char) : Read String :=
  match cs with
  | '"' :: '"' :: '"' :: rest => longString? '"' true (rest.length + 1) [] ((newLine? rest).getD rest)
  | '\x27' :: '\x27' :: '\x27' :: rest => longString? '\x27' false (rest.length + 1) [] ((newLine? rest).getD rest)
  | _ => lineString? cs

/-! ## Keys -/

/-- A character of a bare key. -/
def isBare (c : Char) : Bool := c.isAlphanum || c == '_' || c == '-'

/-- One key. -/
def key? (cs : List Char) : Read String :=
  match cs with
  | '"' :: _ | '\x27' :: _ => lineString? cs
  | _ =>
    let bare := cs.takeWhile isBare
    if bare.isEmpty then none else some (String.ofList bare, cs.drop bare.length)

/-- Lists, tables and keys nest at most this deep. -/
def maxDepth : Nat := 79

/-- Keys between points, at most `room` of them. -/
def keysBetween? : Nat → List Char → Read (List String)
  | 0, _ => none
  | room + 1, cs =>
    (key? (skipSpaces cs)).bind fun (key, rest) =>
      match skipSpaces rest with
      | '.' :: rest => (keysBetween? room rest).map fun (keys, rest) => (key :: keys, rest)
      | rest => some ([key], rest)

/-- The keys of a path. -/
def keyPath? (cs : List Char) : Read (List String) := keysBetween? maxDepth cs

/-! ## Numbers -/

/-- Digits with single underscores between them, the underscores taken out. -/
def plainDigits? (isDigit : Char → Bool) : List Char → Option (List Char)
  | [] => none
  | [c] => if isDigit c then some [c] else none
  | c :: '_' :: d :: rest => if isDigit c && isDigit d then (plainDigits? isDigit (d :: rest)).map (c :: ·) else none
  | c :: d :: rest => if isDigit c then (plainDigits? isDigit (d :: rest)).map (c :: ·) else none

/-- The number of digits of a base. -/
def radixValue? (base : Nat) (cs : List Char) : Option Nat :=
  let isDigit (c : Char) : Bool := c.toNat < 0x80 && ((Bytes.hexDigit? (UInt8.ofNat c.toNat)).any (· < base))
  (plainDigits? isDigit cs).map fun ds => ds.foldl (fun n c => base * n + ((Bytes.hexDigit? (UInt8.ofNat c.toNat)).getD 0)) 0

/-- Decimal digits without a leading zero. -/
def decimal? (cs : List Char) : Option Nat :=
  match cs with
  | '0' :: _ :: _ => none
  | _ => radixValue? 10 cs

/-- A whole number. -/
def integer? : List Char → Option Int
  | '0' :: 'x' :: ds => (radixValue? 16 ds).map Int.ofNat
  | '0' :: 'o' :: ds => (radixValue? 8 ds).map Int.ofNat
  | '0' :: 'b' :: ds => (radixValue? 2 ds).map Int.ofNat
  | '+' :: ds => (decimal? ds).map Int.ofNat
  | '-' :: ds => (decimal? ds).map fun n => -(n : Int)
  | ds => (decimal? ds).map Int.ofNat

/-- The digits after a point or a mark are well-formed. -/
def isDigits (cs : List Char) : Bool := (plainDigits? Text.isDigit cs).isSome

/-- What follows the mark of an exponent is well-formed. -/
def isExponent : List Char → Bool
  | '+' :: ds | '-' :: ds => isDigits ds
  | ds => isDigits ds

/-- The text is that of a number that is not whole. -/
def isReal (cs : List Char) : Bool :=
  let cs := match cs with
    | '+' :: ds | '-' :: ds => ds
    | ds => ds
  if cs == "inf".toList || cs == "nan".toList then true
  else
    let isMark (c : Char) : Bool := c == 'e' || c == 'E'
    let whole := cs.takeWhile fun c => c != '.' && !isMark c
    if (decimal? whole).isNone then false
    else
      match cs.drop whole.length with
      | '.' :: rest =>
        let fraction := rest.takeWhile fun c => !isMark c
        isDigits fraction && match rest.drop fraction.length with
          | [] => true
          | _ :: exponent => isExponent exponent
      | _ :: exponent => isExponent exponent
      | [] => false

/-- The text of a number that is not whole does not overflow upwards. -/
def isBounded (cs : List Char) : Bool :=
  cs.head? == some '-' || cs.any (· == 'n') || (Binary64.nearest? (String.ofList (cs.filter (· != '_')))).isSome

/-- A character of a word: a number or a truth value. -/
def isWord (c : Char) : Bool := c.isAlphanum || c == '_' || c == '-' || c == '+' || c == '.' || c == ':'

/-- The scalar of a word. -/
def word? (cs : List Char) : Option Atom :=
  if cs == "true".toList then some (.bool true)
  else if cs == "false".toList then some (.bool false)
  else
    match integer? cs with
    | some n => if inI64 n then some (.integer n) else none
    | none => if isReal cs && isBounded cs then some .real else none

/-- A scalar. -/
def scalar? (cs : List Char) : Read Atom :=
  match cs with
  | '"' :: _ | '\x27' :: _ => (string? cs).map fun (s, rest) => (.text s, rest)
  | _ =>
    let word := cs.takeWhile isWord
    (word? word).map fun a => (a, cs.drop word.length)

end InferenceGate.Toml
