import InferenceGate.Proofs.Text.Blanks
import InferenceGate.Proofs.Text.Pieces
import InferenceGate.Reply.EventStream

/-!
# Event streams as they are written

An event is lines and a blank line after them, each line with one of the two line ends. A data line holds a piece of the event's
payload between blanks; comments and the lines that name an event or its id are asides. What is read of a stream is the payload of
each event that has one, in order (`dataBlocks_streamBytes`).
-/

namespace InferenceGate.Reply

open Text

/-- How a line ends. -/
inductive LineEnd where
  | feed | returnFeed

/-- The bytes of a line end before its line feed. -/
def LineEnd.lead : LineEnd → Bytes
  | .feed => []
  | .returnFeed => [0x0d]

/-- The bytes of a line end. -/
def LineEnd.bytes (e : LineEnd) : Bytes := e.lead ++ [lineFeed]

/-- Blanks within a line. -/
def IsMargin (bs : Bytes) : Prop := ∀ b ∈ bs, b ∈ [(0x20 : UInt8), 0x09, 0x0c, 0x0d]

instance (bs : Bytes) : Decidable (IsMargin bs) := List.decidableBAll _ bs

/-- A piece of a payload: one line, with no blank at either end. -/
structure IsPiece (bs : Bytes) : Prop where
  oneLine : lineFeed ∉ bs
  firm : Firm isBlankByte bs

/-- How the lines begin that are comments, or that name an event or its id. -/
def asideHeads : List Bytes := [Bytes.ofText ":", Bytes.ofText "event:", Bytes.ofText "id:"]

/-- A line of an event other than the blank one. -/
inductive Line where
  | aside (head rest : Bytes) (known : head ∈ asideHeads) (oneLine : lineFeed ∉ rest)
  | data (before piece after : Bytes) (left : IsMargin before) (isPiece : IsPiece piece) (right : IsMargin after)

namespace Line

/-- The bytes of a line without its end. -/
def text : Line → Bytes
  | aside head rest _ _ => head ++ rest
  | data before piece after _ _ _ => Bytes.ofText "data:" ++ (before ++ piece ++ after)

/-- The piece of the payload that a line holds. -/
def piece? : Line → Option Bytes
  | aside _ _ _ _ => none
  | data _ piece _ _ _ _ => some piece

end Line

/-- The payload that pieces make: none without any, and else the pieces with line feeds between them. -/
def payloadOf (pieces : List Bytes) : Option Bytes := if pieces = [] then none else some ([lineFeed].intercalate pieces)

/-- An event: its lines, and the end of the blank line after them. -/
structure Event where
  lines : List (Line × LineEnd)
  closing : LineEnd

namespace Event

/-- The bytes of an event. -/
def bytes (e : Event) : Bytes := (e.lines.flatMap fun l => l.1.text ++ l.2.bytes) ++ e.closing.bytes

/-- The pieces of an event's payload. -/
def pieces (e : Event) : List Bytes := e.lines.filterMap fun l => l.1.piece?

/-- The payload of an event that has one. -/
def payload? (e : Event) : Option Bytes := payloadOf e.pieces

end Event

/-- The bytes of a stream of events. -/
def streamBytes (events : List Event) : Bytes := events.flatMap Event.bytes

namespace EventsAux

variable {rest : Bytes} {pending ls : List Bytes}

/-! ## Single lines -/

theorem isBlankByte_of_mem_margin {bs : Bytes} (h : IsMargin bs) : ∀ b ∈ bs, isBlankByte b = true := by
  intro b hb
  have hm := h b hb
  simp only [List.mem_cons, List.not_mem_nil, or_false] at hm
  rcases hm with rfl | rfl | rfl | rfl <;> rfl

theorem lineFeed_notMem_margin {bs : Bytes} (h : IsMargin bs) : lineFeed ∉ bs :=
  fun hm => absurd (h _ hm) (by decide)

theorem isMargin_lead (e : LineEnd) : IsMargin e.lead := by
  cases e with
  | feed => exact nofun
  | returnFeed =>
    intro b hb
    obtain rfl := List.mem_singleton.1 hb
    decide

/-- A line holds no line feed. -/
theorem lineFeed_notMem_text (l : Line) : lineFeed ∉ l.text := by
  cases l with
  | aside head rest known oneLine =>
    have hhead : ∀ h ∈ asideHeads, lineFeed ∉ h := by decide
    exact fun hm => (List.mem_append.1 hm).elim (hhead head known) oneLine
  | data before piece after left isPiece right =>
    unfold Line.text
    simp only [List.mem_append, not_or]
    exact ⟨by decide, ⟨lineFeed_notMem_margin left, isPiece.oneLine⟩, lineFeed_notMem_margin right⟩

/-- A line with its end is the first line of what it begins. -/
theorem lines_append {text : Bytes} (h : lineFeed ∉ text) (e : LineEnd) (rest : Bytes) :
    lines (text ++ e.bytes ++ rest) = (text ++ e.lead) :: lines rest := by
  have hline : lineFeed ∉ text ++ e.lead :=
    fun hm => (List.mem_append.1 hm).elim h (lineFeed_notMem_margin (isMargin_lead e))
  unfold lines
  rw [← Bytes.splitOn_append_cons hline]
  unfold LineEnd.bytes
  simp only [List.append_assoc, List.singleton_append]

/-- Trimming a data line takes the blanks at its end, the carriage return among them. -/
theorem trimBytes_data (before : Bytes) {piece after : Bytes} (right : IsMargin after) (isPiece : IsPiece piece) (e : LineEnd) :
    trimBytes (Bytes.ofText "data:" ++ (before ++ piece ++ after) ++ e.lead) = Bytes.ofText "data:" ++ (before ++ piece) := by
  have hfirm : Firm isBlankByte (Bytes.ofText "data:" ++ (before ++ piece)) := by
    obtain ⟨y, hy, hpy⟩ := isPiece.firm.last
    refine ⟨⟨0x64, rfl, rfl⟩, y, ?_, hpy⟩
    rw [← List.append_assoc, List.getLast?_append, hy]
    rfl
  have hafter : ∀ b ∈ after ++ e.lead, isBlankByte b = true := by
    intro b hb
    exact (List.mem_append.1 hb).elim (isBlankByte_of_mem_margin right b) (isBlankByte_of_mem_margin (isMargin_lead e) b)
  unfold trimBytes
  rw [← strip_append_right hfirm hafter]
  simp only [List.append_assoc]

/-- The data of a trimmed data line is its piece. -/
theorem dataOf?_data {before piece : Bytes} (left : IsMargin before) (isPiece : IsPiece piece) :
    dataOf? (Bytes.ofText "data:" ++ (before ++ piece)) = some piece := by
  have htrim : trimBytes (before ++ piece) = piece := strip_append_left (isBlankByte_of_mem_margin left) isPiece.firm
  show ((some (before ++ piece)).map trimBytes).filter _ = _
  rw [Option.map_some, htrim, Option.filter_some, if_pos]
  simpa using isPiece.firm.ne_nil

/-- An aside begins with a letter of its own. -/
theorem eq_cons_of_mem_asideHeads {head : Bytes} (h : head ∈ asideHeads) :
    ∃ b bs, head = b :: bs ∧ isBlankByte b = false ∧ b ≠ 0x64 := by
  simp only [asideHeads, List.mem_cons, List.not_mem_nil, or_false] at h
  rcases h with rfl | rfl | rfl <;> exact ⟨_, _, rfl, rfl, by decide⟩

/-- A line that begins with another letter than a data line has no data. -/
theorem dataOf?_trimBytes_cons {b : UInt8} {bs : Bytes} (hb : isBlankByte b = false) (hd : b ≠ 0x64) :
    dataOf? (trimBytes (b :: bs)) = none := by
  have htrim : trimBytes (b :: bs) = b :: dropEnd isBlankByte bs := strip_cons_of_neg hb bs
  have hhead : Bytes.afterHead? (Bytes.ofText "data:") (b :: dropEnd isBlankByte bs) = none :=
    if_neg fun h => hd (eq_of_beq h).symm
  unfold dataOf?
  rw [htrim, hhead]
  rfl

/-- A line that begins with another letter than a data line is passed over. -/
theorem blocksOf_skip {b : UInt8} {bs : Bytes} (hb : isBlankByte b = false) (hd : b ≠ 0x64) :
    blocksOf pending ((b :: bs) :: ls) = blocksOf pending ls := by
  have htrim : trimBytes (b :: bs) = b :: dropEnd isBlankByte bs := strip_cons_of_neg hb bs
  have hnone : dataOf? (trimBytes (b :: bs)) = none := dataOf?_trimBytes_cons hb hd
  rw [htrim] at hnone
  rw [blocksOf]
  simp only [htrim, hnone, List.isEmpty_cons, Bool.false_eq_true, if_false]

/-- A line adds its piece, if it has one, to what is pending. -/
theorem blocksOf_line (l : Line) (e : LineEnd) :
    blocksOf pending ((l.text ++ e.lead) :: ls) = blocksOf (l.piece?.toList ++ pending) ls := by
  cases l with
  | aside head rest known oneLine =>
    obtain ⟨b, bs, rfl, hb, hd⟩ := eq_cons_of_mem_asideHeads known
    exact blocksOf_skip hb hd
  | data before piece after left isPiece right =>
    have hline := trimBytes_data before right isPiece e
    rw [blocksOf]
    simp only [Line.text, hline, dataOf?_data left isPiece]
    rfl

/-! ## Events -/

/-- A blank line ends what is pending. -/
theorem blocksOf_blank (e : LineEnd) :
    blocksOf pending (e.lead :: ls) = (payloadOf pending.reverse).toList ++ blocksOf [] ls := by
  have htrim : trimBytes e.lead = [] := strip_of_all (isBlankByte_of_mem_margin (isMargin_lead e))
  rw [blocksOf]
  unfold payloadOf
  cases pending <;> simp [htrim]

/-- Lines read one after the other leave their pieces pending, the last in front. -/
theorem blocksOf_lines (ls : List (Line × LineEnd)) (pending : List Bytes) (rest : Bytes) :
    blocksOf pending (lines ((ls.flatMap fun l => l.1.text ++ l.2.bytes) ++ rest)) =
      blocksOf ((ls.filterMap fun l => l.1.piece?).reverse ++ pending) (lines rest) := by
  induction ls generalizing pending with
  | nil => rfl
  | cons l ls ih =>
    rw [List.flatMap_cons, List.append_assoc, lines_append (lineFeed_notMem_text l.1), blocksOf_line, ih, List.filterMap_cons]
    cases l.1.piece? <;> simp

/-- What an event adds to what is read of the stream after it. -/
theorem blocksOf_event (e : Event) (rest : Bytes) :
    blocksOf [] (lines (e.bytes ++ rest)) = e.payload?.toList ++ blocksOf [] (lines rest) := by
  unfold Event.bytes
  rw [List.append_assoc, blocksOf_lines, ← List.nil_append e.closing.bytes, lines_append List.not_mem_nil, List.nil_append,
    blocksOf_blank, List.append_nil, List.reverse_reverse]
  rfl

end EventsAux

open EventsAux

/-- What is read of a stream is the payload of each event that has one, in order. -/
theorem dataBlocks_streamBytes (events : List Event) : dataBlocks (streamBytes events) = events.filterMap Event.payload? := by
  induction events with
  | nil => rfl
  | cons e events ih =>
    have hcons : streamBytes (e :: events) = e.bytes ++ streamBytes events := List.flatMap_cons
    unfold dataBlocks at ih ⊢
    rw [hcons, blocksOf_event, ih, List.filterMap_cons]
    cases e.payload? <;> rfl

end InferenceGate.Reply
