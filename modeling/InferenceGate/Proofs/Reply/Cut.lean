import InferenceGate.Proofs.Call.Kept
import InferenceGate.Proofs.Call.Reading
import InferenceGate.Proofs.Json.Extent
import InferenceGate.Proofs.Reply.Streamed

/-!
# A stream that is cut

A caller may go away in the middle of a stream, and then the reply is read of what it was handed. Where each event has one data line, the
text read is that of the documents that lie wholly before the cut (`documentsWithin`), wherever the cut falls: no document begins with
another, so what is left of a torn one is none. What is stored is therefore a beginning of the text of the whole reply.
-/

namespace InferenceGate.Reply

open Text Json Document

/-- Where the piece of a line ends within it. -/
def Line.pieceEnd : Line → Nat
  | .aside _ _ _ _ => 0
  | .data before piece _ _ _ _ => (Bytes.ofText "data:" ++ (before ++ piece)).length

/-- The pieces that lie wholly within the first `k` bytes of lines. A cut within a line leaves no byte of the lines after it. -/
def piecesWithin : Nat → List (Line × LineEnd) → List Bytes
  | _, [] => []
  | k, l :: ls =>
    (if l.1.pieceEnd ≤ k then l.1.piece? else none).toList ++ piecesWithin (k - (l.1.text ++ l.2.bytes).length) ls

/-- The documents that lie wholly within the first `k` bytes of a stream. -/
def documentsWithin : Nat → List Event → List Bytes
  | _, [] => []
  | k, e :: events => piecesWithin k e.lines ++ documentsWithin (k - e.bytes.length) events

/-- An event with one data line at most, which holds a document of a reply or the mark at the end of a stream. -/
def Event.Plain (e : Event) : Prop :=
  e.pieces = [] ∨ ∃ doc, e.pieces = [doc] ∧ (doc = doneMark ∨ (parseEnvelope? doc).isSome)

namespace CutAux

open EventsAux StreamedAux Reader

variable {l : Line} {e : LineEnd} {k : Nat} {d q : Bytes}

/-! ## Lines that are cut -/

/-- A cut within a line leaves a beginning of it as the last line. -/
theorem lines_take {text : Bytes} (h : lineFeed ∉ text) (rest : Bytes) (hk : k < (text ++ e.bytes).length) :
    lines ((text ++ e.bytes ++ rest).take k) = [(text ++ e.lead).take k] := by
  have hbytes : text ++ e.bytes = text ++ e.lead ++ [lineFeed] := by simp [LineEnd.bytes]
  rw [hbytes, List.length_append] at hk
  have hnot : lineFeed ∉ (text ++ e.lead).take k := by
    intro hm
    rcases List.mem_append.1 (List.mem_of_mem_take hm) with hm | hm
    · exact h hm
    · exact lineFeed_notMem_margin (isMargin_lead e) hm
  rw [hbytes, List.append_assoc, List.take_append_of_le_length (Nat.le_of_lt_succ hk)]
  unfold lines
  rw [Bytes.splitOn_eq, List.splitOn_eq_singleton hnot]

/-- What a last line adds to what is pending. -/
theorem blocksOf_single (pending : List Bytes) (line : Bytes) :
    blocksOf pending [line] = (payloadOf ((dataOf? (trimBytes line)).toList ++ pending).reverse).toList := by
  have hnone : dataOf? [] = none := rfl
  rw [blocksOf]
  by_cases hblank : trimBytes line = []
  · cases pending <;> simp [hblank, hnone, payloadOf, blocksOf]
  · cases dataOf? (trimBytes line) <;> cases pending <;> simp [hblank, payloadOf, blocksOf]

/-- A line cut after its piece gives the piece. -/
theorem dataOf?_whole (hk : l.pieceEnd ≤ k) : dataOf? (trimBytes ((l.text ++ e.lead).take k)) = l.piece? := by
  cases l with
  | aside head rest known oneLine =>
    obtain ⟨b, bs, rfl, hb, hd⟩ := eq_cons_of_mem_asideHeads known
    cases k with
    | zero => rfl
    | succ k => exact dataOf?_trimBytes_cons hb hd
  | data before piece after left isPiece right =>
    have hline : Bytes.ofText "data:" ++ (before ++ piece ++ after) ++ e.lead =
        (Bytes.ofText "data:" ++ (before ++ piece)) ++ (after ++ e.lead) := by simp
    have hmargin : IsMargin ((after ++ e.lead).take (k - (Bytes.ofText "data:" ++ (before ++ piece)).length)) := by
      intro b hb
      rcases List.mem_append.1 (List.mem_of_mem_take hb) with hb | hb
      · exact right b hb
      · exact isMargin_lead e b hb
    have htrim := trimBytes_data before hmargin isPiece .feed
    unfold Line.text
    dsimp only
    rw [hline, List.take_append, List.take_of_length_le hk]
    simp only [LineEnd.lead, List.append_nil, List.append_assoc] at htrim ⊢
    rw [htrim]
    exact dataOf?_data left isPiece

/-- The data of a trimmed line is what follows its name, trimmed and not empty. -/
theorem eq_append_of_dataOf? {line : Bytes} (h : dataOf? line = some d) :
    ∃ rest, line = Bytes.ofText "data:" ++ rest ∧ trimBytes rest = d ∧ d ≠ [] := by
  obtain ⟨hd, hne⟩ := Option.filter_eq_some_iff.1 h
  obtain ⟨rest, hrest, rfl⟩ := Option.map_eq_some_iff.1 hd
  exact ⟨rest, Bytes.eq_append_of_afterHead? hrest, rfl, by simpa using hne⟩

/-- Trimming bytes that begin with one that is not blank takes away nothing before their end. -/
theorem isPrefix_trimBytes {b : UInt8} {bs : Bytes} (hb : isBlankByte b = false) : trimBytes (b :: bs) <+: b :: bs := by
  have htrim : trimBytes (b :: bs) = b :: dropEnd isBlankByte bs := strip_cons_of_neg hb bs
  rw [htrim, List.prefix_cons_inj]
  exact dropEnd_prefix _ _

/-- What blanks and a proper beginning of a piece are trimmed to, if it is anything, is a proper beginning of the piece. -/
theorem eq_append_of_trimBytes {before piece rest more : Bytes} (left : IsMargin before) (isPiece : IsPiece piece)
    (hrest : rest ++ more = before ++ piece) (hmore : more ≠ []) (htrim : trimBytes rest = d) (hd : d ≠ []) :
    ∃ q, q ≠ [] ∧ piece = d ++ q := by
  rcases List.append_eq_append_iff.1 hrest with ⟨gap, hbefore, -⟩ | ⟨part, hpart, rfl⟩
  · have hblank : trimBytes rest = [] := strip_of_all fun b hb => isBlankByte_of_mem_margin left b (hbefore ▸ List.mem_append_left _ hb)
    exact absurd (htrim.symm.trans hblank) hd
  · have hskip : trimBytes rest = trimBytes part := by
      unfold trimBytes strip
      rw [hpart, List.dropWhile_append_of_pos (isBlankByte_of_mem_margin left)]
    cases part with
    | nil => exact absurd (htrim.symm.trans hskip) hd
    | cons b part =>
      obtain ⟨x, hx, hblank⟩ := isPiece.firm.first
      obtain rfl : b = x := Option.some.inj hx
      obtain ⟨gap, hgap⟩ : trimBytes (b :: part) <+: b :: part := isPrefix_trimBytes hblank
      refine ⟨gap ++ more, fun h => hmore (List.append_eq_nil_iff.1 h).2, ?_⟩
      rw [← List.append_assoc, ← htrim, hskip, hgap]

/-- A line cut within its piece gives nothing, or a proper beginning of the piece. -/
theorem eq_append_of_torn (hk : k < l.pieceEnd) (h : dataOf? (trimBytes ((l.text ++ e.lead).take k)) = some d) :
    ∃ q, q ≠ [] ∧ l.piece? = some (d ++ q) := by
  cases l with
  | aside => exact absurd hk (Nat.not_lt_zero k)
  | data before piece after left isPiece right =>
    have hline : Bytes.ofText "data:" ++ (before ++ piece ++ after) ++ e.lead =
        (Bytes.ofText "data:" ++ (before ++ piece)) ++ (after ++ e.lead) := by simp
    unfold Line.text at h
    dsimp only at h
    rw [hline, List.take_append_of_le_length (Nat.le_of_lt hk)] at h
    have hbegins : trimBytes ((Bytes.ofText "data:" ++ (before ++ piece)).take k) <+:
        (Bytes.ofText "data:" ++ (before ++ piece)).take k := by
      cases k with
      | zero => exact List.prefix_rfl
      | succ k => exact isPrefix_trimBytes rfl
    obtain ⟨rest, hrest, htrim, hd⟩ := eq_append_of_dataOf? h
    rw [hrest] at hbegins
    obtain ⟨more, hmore⟩ := (List.prefix_append_right_inj _).1 (hbegins.trans (List.take_prefix k _))
    have hlen : (Bytes.ofText "data:" ++ rest).length < (Bytes.ofText "data:" ++ (before ++ piece)).length :=
      Nat.lt_of_le_of_lt (Nat.le_trans hbegins.length_le (List.length_take_le k _)) hk
    have hne : more ≠ [] := by
      rintro rfl
      rw [← hmore, List.append_nil] at hlen
      exact absurd hlen (Nat.lt_irrefl _)
    obtain ⟨q, hq, hpiece⟩ := eq_append_of_trimBytes left isPiece hmore hne htrim hd
    exact ⟨q, hq, congrArg some hpiece⟩

/-! ## Events that are cut -/

/-- The blank line after an event ends it, also when it is cut. -/
theorem blocksOf_closing (pending : List Bytes) (e : LineEnd) (k : Nat) :
    blocksOf pending (lines (e.bytes.take k)) = (payloadOf pending.reverse).toList := by
  by_cases hk : k < e.bytes.length
  · have hcut := lines_take (List.not_mem_nil : lineFeed ∉ ([] : Bytes)) [] hk
    have hblank : trimBytes (e.lead.take k) = [] :=
      strip_of_all fun b hb => isBlankByte_of_mem_margin (isMargin_lead e) b (List.mem_of_mem_take hb)
    rw [List.nil_append, List.append_nil, List.nil_append] at hcut
    rw [hcut, blocksOf_single, hblank]
    rfl
  · have hwhole := lines_append (List.not_mem_nil : lineFeed ∉ ([] : Bytes)) e []
    rw [List.nil_append, List.append_nil, List.nil_append] at hwhole
    rw [List.take_of_length_le (Nat.le_of_not_lt hk), hwhole, blocksOf_blank]
    exact List.append_nil _

theorem piecesWithin_zero (ls : List (Line × LineEnd)) : piecesWithin 0 ls = [] := by
  induction ls with
  | nil => rfl
  | cons l ls ih =>
    obtain ⟨l, e⟩ := l
    rw [piecesWithin, Nat.zero_sub, ih]
    cases l with
    | aside => rfl
    | data => rfl

/-- The piece of a line ends within the line. -/
theorem pieceEnd_le (l : Line) : l.pieceEnd ≤ l.text.length := by
  cases l with
  | aside => exact Nat.zero_le _
  | data before piece after =>
    unfold Line.pieceEnd Line.text
    simp only [List.length_append]
    omega

/-- Pieces within a cut that leaves the first line whole. -/
theorem piecesWithin_cons {ls : List (Line × LineEnd)} (hk : (l.text ++ e.bytes).length ≤ k) :
    piecesWithin k ((l, e) :: ls) = l.piece?.toList ++ piecesWithin (k - (l.text ++ e.bytes).length) ls := by
  have hend : l.pieceEnd ≤ k := by
    have hline := pieceEnd_le l
    rw [List.length_append] at hk
    omega
  rw [piecesWithin, if_pos hend]

/-- Pieces within a cut in the first line. -/
theorem piecesWithin_cut {ls : List (Line × LineEnd)} (hk : k < (l.text ++ e.bytes).length) :
    piecesWithin k ((l, e) :: ls) = (if l.pieceEnd ≤ k then l.piece? else none).toList := by
  rw [piecesWithin, Nat.sub_eq_zero_of_le (Nat.le_of_lt hk), piecesWithin_zero, List.append_nil]

/-- Of lines that are cut, what is read is the pieces before the cut, and perhaps a proper beginning of the next one. -/
theorem blocksOf_take (ls : List (Line × LineEnd)) (closing : LineEnd) (k : Nat) (pending : List Bytes) :
    ∃ torn, blocksOf pending (lines (((ls.flatMap fun l => l.1.text ++ l.2.bytes) ++ closing.bytes).take k)) =
        (payloadOf (pending.reverse ++ piecesWithin k ls ++ torn)).toList ∧
      (torn = [] ∨ ∃ d q more, torn = [d] ∧ q ≠ [] ∧ (ls.filterMap fun l => l.1.piece?) = piecesWithin k ls ++ (d ++ q) :: more) := by
  induction ls generalizing k pending with
  | nil => exact ⟨[], by simpa [piecesWithin] using blocksOf_closing pending closing k, .inl rfl⟩
  | cons line ls ih =>
    obtain ⟨l, e⟩ := line
    rw [List.flatMap_cons, List.append_assoc]
    by_cases hk : (l.text ++ e.bytes).length ≤ k
    · obtain ⟨torn, hread, htorn⟩ := ih (k - (l.text ++ e.bytes).length) (l.piece?.toList ++ pending)
      refine ⟨torn, ?_, ?_⟩
      · rw [List.take_append, List.take_of_length_le hk, lines_append (lineFeed_notMem_text l), blocksOf_line, hread,
          piecesWithin_cons hk]
        cases l.piece? <;> simp
      · rw [piecesWithin_cons hk, List.filterMap_cons]
        refine htorn.imp_right fun ⟨d, q, more, hd, hq, hpieces⟩ => ⟨d, q, more, hd, hq, ?_⟩
        rw [hpieces]
        cases l.piece? <;> rfl
    · have hcut := Nat.lt_of_not_le hk
      rw [lines_take (lineFeed_notMem_text l) _ hcut, blocksOf_single, piecesWithin_cut hcut]
      by_cases hend : l.pieceEnd ≤ k
      · rw [dataOf?_whole hend, if_pos hend]
        refine ⟨[], ?_, .inl rfl⟩
        cases l.piece? <;> simp
      · rw [if_neg hend]
        cases hdata : dataOf? (trimBytes ((l.text ++ e.lead).take k)) with
        | none => exact ⟨[], by simp, .inl rfl⟩
        | some d =>
          obtain ⟨q, hq, hpiece⟩ := eq_append_of_torn (Nat.lt_of_not_le hend) hdata
          refine ⟨[d], by simp, .inr ⟨d, q, ls.filterMap fun l => l.1.piece?, rfl, hq, ?_⟩⟩
          rw [List.filterMap_cons, hpiece]
          rfl

/-- All pieces lie within the lines. -/
theorem piecesWithin_of_le {ls : List (Line × LineEnd)} (hk : (ls.flatMap fun l => l.1.text ++ l.2.bytes).length ≤ k) :
    piecesWithin k ls = ls.filterMap fun l => l.1.piece? := by
  induction ls generalizing k with
  | nil => rfl
  | cons line ls ih =>
    obtain ⟨l, e⟩ := line
    have hlen : (l.text ++ e.bytes).length + (ls.flatMap fun l => l.1.text ++ l.2.bytes).length ≤ k := by
      rwa [List.flatMap_cons, List.length_append] at hk
    rw [piecesWithin_cons (by omega), ih (by omega), List.filterMap_cons]
    cases l.piece? <;> rfl

/-- The pieces within a cut are the first of them. -/
theorem isPrefix_piecesWithin (k : Nat) (ls : List (Line × LineEnd)) : piecesWithin k ls <+: ls.filterMap fun l => l.1.piece? := by
  induction ls generalizing k with
  | nil => exact List.prefix_rfl
  | cons line ls ih =>
    obtain ⟨l, e⟩ := line
    by_cases hk : (l.text ++ e.bytes).length ≤ k
    · have hrest := ih (k - (l.text ++ e.bytes).length)
      rw [piecesWithin_cons hk, List.filterMap_cons]
      cases l.piece? with
      | none => exact hrest
      | some p => exact (List.prefix_append_right_inj [p]).2 hrest
    · rw [piecesWithin_cut (Nat.lt_of_not_le hk), List.filterMap_cons]
      by_cases hend : l.pieceEnd ≤ k
      · rw [if_pos hend]
        cases l.piece? with
        | none => exact List.nil_prefix
        | some p => exact ⟨_, rfl⟩
      · rw [if_neg hend]
        exact List.nil_prefix

theorem isPiece_of_mem {e : Event} {p : Bytes} (h : p ∈ e.pieces) : IsPiece p := by
  obtain ⟨l, -, hl⟩ := List.mem_filterMap.1 h
  rcases l with ⟨⟨⟩, _⟩
  · exact nomatch hl
  · rename_i isPiece _
    obtain rfl := Option.some.inj hl
    exact isPiece

/-! ## Documents that are torn -/

/-- A document of a reply is a list or a table. -/
theorem isCompound_of_readEnvelope? {t : Tree} {e : Envelope} (h : readEnvelope? t = some e) : IsCompound t := by
  rintro a rfl
  exact nomatch h

/-- No proper beginning of a payload is a document: what is cut off would be blank, and a payload ends with a byte that is not. -/
theorem parseEnvelope?_torn (hq : q ≠ []) (hpiece : IsPiece (d ++ q)) (h : d ++ q = doneMark ∨ (parseEnvelope? (d ++ q)).isSome) :
    parseEnvelope? d = none := by
  rcases h with h | h
  · have hmark : ∀ n < doneMark.length, (parseEnvelope? (doneMark.take n)).isNone = true := by decide +kernel
    have hd : doneMark.take d.length = d := by rw [← h, List.take_left]
    have hlen : d.length < doneMark.length := by
      have hpos := List.length_pos_iff.2 hq
      rw [← h, List.length_append]
      omega
    have hnone := hmark d.length hlen
    rw [hd] at hnone
    exact Option.isNone_iff_eq_none.1 hnone
  · cases hd : parseEnvelope? d with
    | none => rfl
    | some e =>
      obtain ⟨t, ht, he⟩ := Option.bind_eq_some_iff.1 hd
      obtain ⟨e', he'⟩ := Option.isSome_iff_exists.1 h
      obtain ⟨t', ht', -⟩ := Option.bind_eq_some_iff.1 he'
      have hspace := isSpace_of_read?_append ht (isCompound_of_readEnvelope? he) (by rw [ht']; rfl)
      obtain ⟨x, hlast, hblank⟩ := hpiece.firm.last
      have hmem : x ∈ q := by
        rw [List.getLast?_append, List.getLast?_eq_some_getLast hq] at hlast
        obtain rfl := Option.some.inj hlast
        exact List.getLast_mem hq
      have hxs := hspace x hmem
      simp [isSpace] at hxs
      rcases hxs with ((rfl | rfl) | rfl) | rfl <;> exact nomatch hblank

/-! ## Streams that are cut -/

variable {events : List Event}

theorem payloadOf_singleton (p : Bytes) : payloadOf [p] = some p := by simp [payloadOf]

/-- The payload of an event with one data line at most is what that line holds. -/
theorem payload?_of_plain {e : Event} (h : e.Plain) : e.payload?.toList = e.pieces := by
  unfold Event.payload?
  rcases h with h | ⟨doc, h, -⟩
  · rw [h]
    rfl
  · rw [h, payloadOf_singleton]
    rfl

/-- What is read of an event that is cut is its document, if that lies before the cut. -/
theorem envelopes_take_event {e : Event} (h : e.Plain) (k : Nat) :
    (blocksOf [] (lines (e.bytes.take k))).filterMap parseEnvelope? = (piecesWithin k e.lines).filterMap parseEnvelope? := by
  obtain ⟨torn, hread, htorn⟩ := blocksOf_take e.lines e.closing k []
  have hbegins : piecesWithin k e.lines <+: e.pieces := isPrefix_piecesWithin k e.lines
  have hpieces : e.pieces = e.lines.filterMap fun l => l.1.piece? := rfl
  unfold Event.bytes
  rw [hread, List.reverse_nil, List.nil_append]
  rcases htorn with rfl | ⟨d, q, more, rfl, hq, hmore⟩
  · rw [List.append_nil]
    rcases h with h | ⟨doc, h, -⟩
    · rw [h, List.prefix_nil] at hbegins
      rw [hbegins]
      rfl
    · rw [h, List.prefix_cons_iff] at hbegins
      rcases hbegins with hnone | ⟨t, hone, ht⟩
      · rw [hnone]
        rfl
      · rw [hone, List.prefix_nil.1 ht, payloadOf_singleton]
        rfl
  · -- a torn document is the only one of its event
    rw [← hpieces] at hmore
    rcases h with h | ⟨doc, h, hdoc⟩
    · rw [h] at hmore
      exact absurd hmore.symm (List.append_ne_nil_of_right_ne_nil _ (List.cons_ne_nil _ _))
    · rw [h] at hmore
      obtain ⟨hnone, hcons⟩ : piecesWithin k e.lines = [] ∧ (d ++ q) :: more = [doc] := by
        rcases List.append_eq_singleton_iff.1 hmore.symm with ⟨hnone, hcons⟩ | ⟨-, hcons⟩
        · exact ⟨hnone, hcons⟩
        · exact nomatch hcons
      obtain ⟨rfl, -⟩ := List.cons.inj hcons
      have hpiece : IsPiece (d ++ q) := isPiece_of_mem (h ▸ List.mem_singleton_self _)
      rw [hnone, List.nil_append, payloadOf_singleton]
      simp [parseEnvelope?_torn hq hpiece hdoc]

theorem documentsWithin_zero (events : List Event) : documentsWithin 0 events = [] := by
  induction events with
  | nil => rfl
  | cons e events ih => rw [documentsWithin, piecesWithin_zero, Nat.zero_sub, ih, List.append_nil]

/-- The lines of an event are no longer than the event. -/
theorem length_lines_le (e : Event) : (e.lines.flatMap fun l => l.1.text ++ l.2.bytes).length ≤ e.bytes.length := by
  unfold Event.bytes
  rw [List.length_append]
  exact Nat.le_add_right _ _

/-- Documents within a cut that leaves the first event whole. -/
theorem documentsWithin_cons {e : Event} (hk : e.bytes.length ≤ k) :
    documentsWithin k (e :: events) = e.pieces ++ documentsWithin (k - e.bytes.length) events := by
  rw [documentsWithin, piecesWithin_of_le (Nat.le_trans (length_lines_le e) hk)]
  rfl

/-- Documents within a cut in the first event. -/
theorem documentsWithin_cut {e : Event} (hk : k < e.bytes.length) : documentsWithin k (e :: events) = piecesWithin k e.lines := by
  rw [documentsWithin, Nat.sub_eq_zero_of_le (Nat.le_of_lt hk), documentsWithin_zero, List.append_nil]

/-- All documents lie within the stream. -/
theorem documentsWithin_of_le (hk : (streamBytes events).length ≤ k) : documentsWithin k events = events.flatMap Event.pieces := by
  induction events generalizing k with
  | nil => rfl
  | cons e events ih =>
    have hlen : e.bytes.length + (streamBytes events).length ≤ k := by
      unfold streamBytes at hk ⊢
      rwa [List.flatMap_cons, List.length_append] at hk
    rw [documentsWithin_cons (by omega), ih (by omega), List.flatMap_cons]

/-- The documents within a cut are the first of the stream. -/
theorem isPrefix_documentsWithin (k : Nat) (events : List Event) : documentsWithin k events <+: events.flatMap Event.pieces := by
  induction events generalizing k with
  | nil => exact List.prefix_rfl
  | cons e events ih =>
    rw [List.flatMap_cons]
    by_cases hk : e.bytes.length ≤ k
    · rw [documentsWithin_cons hk]
      exact (List.prefix_append_right_inj _).2 (ih _)
    · rw [documentsWithin_cut (Nat.lt_of_not_le hk)]
      exact (isPrefix_piecesWithin k e.lines).trans (List.prefix_append _ _)

/-- What is read of the events of a stream that is cut is the documents before the cut. -/
theorem envelopes_take (h : ∀ e ∈ events, e.Plain) (k : Nat) :
    (dataBlocks ((streamBytes events).take k)).filterMap parseEnvelope? = (documentsWithin k events).filterMap parseEnvelope? := by
  unfold dataBlocks
  induction events generalizing k with
  | nil =>
    rw [streamBytes, List.flatMap_nil, List.take_nil]
    rfl
  | cons e events ih =>
    have he := h e List.mem_cons_self
    have hcons : streamBytes (e :: events) = e.bytes ++ streamBytes events := List.flatMap_cons
    rw [hcons]
    by_cases hk : e.bytes.length ≤ k
    · rw [List.take_append, List.take_of_length_le hk, blocksOf_event, List.filterMap_append,
        ih (fun e he => h e (List.mem_cons_of_mem _ he)), documentsWithin_cons hk, List.filterMap_append, payload?_of_plain he]
    · rw [List.take_append_of_le_length (Nat.le_of_not_le hk), envelopes_take_event he, documentsWithin_cut (Nat.lt_of_not_le hk)]

theorem wholeText_append (chunks chunks' : List Envelope) : wholeText (chunks ++ chunks') = wholeText chunks ++ wholeText chunks' := by
  unfold wholeText
  rw [List.flatMap_append, String.join_append]

/-- The text read of a stream that is cut. -/
theorem assistantText_take (h : ∀ e ∈ events, e.Plain) (k : Nat) :
    (assistantText ((streamBytes events).take k)).1 = wholeText ((documentsWithin k events).filterMap parseEnvelope?) := by
  rw [← envelopes_take h, ← streamEnvelopes_eq, ← wholeText_eq]
  unfold assistantText
  rw [parseEnvelope?_take]
  rfl

/-- The text read of a stream that is cut is a beginning of the text of the whole. -/
theorem exists_eq_append_of_take (h : ∀ e ∈ events, e.Plain) (k : Nat) :
    ∃ rest, (assistantText (streamBytes events)).1 = (assistantText ((streamBytes events).take k)).1 ++ rest := by
  obtain ⟨later, hlater⟩ := isPrefix_documentsWithin k events
  have hwhole := assistantText_take h (streamBytes events).length
  rw [List.take_length, documentsWithin_of_le (Nat.le_refl _), ← hlater, List.filterMap_append, wholeText_append] at hwhole
  rw [assistantText_take h k]
  exact ⟨_, hwhole⟩

end CutAux

open CutAux

/-- Of a stream that is cut anywhere, the text is that of the documents that lie wholly before the cut, in order, and so a beginning of the
text of the whole stream. That holds of what is stored, too: when the backend has sent a stream, or a beginning of one, and the caller
has read any part of that, the messages in the store are those that were there and such a beginning. -/
theorem cut_stream_text {events : List Event} (h : ∀ e ∈ events, e.Plain) :
    (∀ k, (assistantText ((streamBytes events).take k)).1 = wholeText ((documentsWithin k events).filterMap parseEnvelope?)) ∧
      (∀ k, ∃ rest, (assistantText (streamBytes events)).1 = (assistantText ((streamBytes events).take k)).1 ++ rest) ∧
      ∀ (l : Pipeline) (latency : Nat) (patience : Relay.Patience) (c : Call) (q : Relay.Request) (r : Relay.Reply) (s : State),
        r.chunks.flatten <+: streamBytes events →
          ∀ m ∈ (l.answerRelayed latency patience c q r s).state.world.tables.messages,
            m ∈ s.world.tables.messages ∨ ∃ rest, (assistantText (streamBytes events)).1 = m.content ++ rest := by
  refine ⟨assistantText_take h, exists_eq_append_of_take h, fun l latency patience c q r s hsent m hm => ?_⟩
  have htold := (ReadingAux.isPrefix_told r patience).trans hsent
  rcases Sequel.mem_messages_follow _ _ _ _ _ m hm with hm | htext
  · exact .inl hm
  · obtain ⟨rest, hrest⟩ := exists_eq_append_of_take h (r.tee.read patience).tee.told.flatten.length
    rw [← List.prefix_iff_eq_take.1 htold, ← htext] at hrest
    exact .inr ⟨rest, hrest⟩

namespace CutAux

/-- A stream of two texts and the mark at its end, with line ends of both kinds. -/
def twoTexts : List Event := [
  ⟨[(.data [0x20] (Bytes.ofText "\x7b\"choices\":[\x7b\"delta\":\x7b\"content\":\"é\"\x7d\x7d]\x7d") [] (by decide)
    ⟨by decide, ⟨_, rfl, rfl⟩, ⟨_, rfl, rfl⟩⟩ (by decide), .returnFeed)], .returnFeed⟩,
  ⟨[(.data [0x20] (Bytes.ofText "\x7b\"choices\":[\x7b\"message\":\x7b\"content\":\"你\"\x7d\x7d]\x7d") [] (by decide)
    ⟨by decide, ⟨_, rfl, rfl⟩, ⟨_, rfl, rfl⟩⟩ (by decide), .feed)], .feed⟩,
  ⟨[(.data [0x20] doneMark [] (by decide) ⟨by decide, ⟨_, rfl, rfl⟩, ⟨_, rfl, rfl⟩⟩ (by decide), .feed)], .feed⟩]

theorem plain_twoTexts : ∀ e ∈ twoTexts, e.Plain := by
  intro e he
  simp only [twoTexts, List.mem_cons, List.not_mem_nil, or_false] at he
  rcases he with rfl | rfl | rfl
  · exact .inr ⟨_, rfl, .inr rfl⟩
  · exact .inr ⟨_, rfl, .inr rfl⟩
  · exact .inr ⟨_, rfl, .inl rfl⟩

/-- The stream in two chunks, the first of which ends after two of the three bytes of a character. -/
def brokenReply : Relay.Reply := ⟨200, [], [(streamBytes twoTexts).take 93, (streamBytes twoTexts).drop 93], .complete⟩

/-- A turn in a conversation, whose caller goes away after the first chunk. -/
def leftEarly : Handled :=
  (Pipeline.chat { base := "http://backend" }).answerRelayed 5 (.enough 93)
    { Call.of "POST" (Bytes.ofText Call.chatPath) [] [] with user := some 1, conversation := some 7 }
    { method := "POST", address := [], fields := [], body := [] } brokenReply
    { world := { ids := .ofNode 1, clock := 1700000000123 }, second := 1700000000 }

end CutAux

/-- A caller that goes away within a character of the second text: the first one is read and stored. -/
theorem cut_stream_text_within_character :
    (∀ e ∈ twoTexts, e.Plain) ∧ brokenReply.chunks.flatten <+: streamBytes twoTexts ∧
      (assistantText (streamBytes twoTexts)).1 = "é你" ∧
      ((streamBytes twoTexts).take 93).drop 91 = [0xe4, 0xbd] ∧ (assistantText ((streamBytes twoTexts).take 93)).1 = "é" ∧
      leftEarly.state.world.tables.messages.map Store.Message.content = ["é"] ∧
      ∀ m ∈ leftEarly.state.world.tables.messages, ∃ rest, "é你" = m.content ++ rest := by
  have hsent : brokenReply.chunks.flatten <+: streamBytes twoTexts := by
    have hchunks : brokenReply.chunks.flatten = streamBytes twoTexts := by
      unfold brokenReply
      simp
    exact hchunks ▸ List.prefix_rfl
  have hwhole : (assistantText (streamBytes twoTexts)).1 = "é你" := by decide +kernel
  obtain ⟨htext, -, hstored⟩ := cut_stream_text plain_twoTexts
  refine ⟨plain_twoTexts, hsent, hwhole, by decide +kernel, (htext 93).trans (by decide +kernel), by decide +kernel, fun m hm => ?_⟩
  rcases hstored _ _ _ _ _ _ _ hsent m hm with hold | hnew
  · nomatch hold
  · rwa [hwhole] at hnew

end InferenceGate.Reply
