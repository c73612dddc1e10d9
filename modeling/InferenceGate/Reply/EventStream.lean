import InferenceGate.Text.Blank
import InferenceGate.Text.Bytes

/-!
# Event streams

A stream of events is lines of text; a blank line ends an event, and the payload of an event is its `data:` lines, trimmed and
joined by line feeds. Other lines and empty `data:` lines are passed over, and an event without data is none.
-/

namespace InferenceGate.Reply

/-- The line feed. -/
def lineFeed : UInt8 := 0x0a

/-- The lines of a body. -/
def lines (body : Bytes) : List Bytes := Bytes.splitOn lineFeed body

/-- The trimmed data of a trimmed line, if it is a data line with some. -/
def dataOf? (line : Bytes) : Option Bytes :=
  ((Bytes.afterHead? (Bytes.ofText "data:") line).map Text.trimBytes).filter fun rest => !rest.isEmpty

/-- The payload of the events that lines make, after the lines of an event that are `pending`, last first. -/
def blocksOf : List Bytes → List Bytes → List Bytes
  | pending, [] => if pending.isEmpty then [] else [[lineFeed].intercalate pending.reverse]
  | pending, line :: rest =>
    let line := Text.trimBytes line
    if line.isEmpty then
      if pending.isEmpty then blocksOf [] rest else [lineFeed].intercalate pending.reverse :: blocksOf [] rest
    else
      match dataOf? line with
      | some data => blocksOf (data :: pending) rest
      | none => blocksOf pending rest

/-- The payload of each event of a body. -/
def dataBlocks (body : Bytes) : List Bytes := blocksOf [] (lines body)

/-- The payload that ends a stream. -/
def doneMark : Bytes := Bytes.ofText "[DONE]"

end InferenceGate.Reply
