import InferenceGate.Proofs.Relay.RequestFields

/-!
# What the caller is told

The fields of a reply as a backend sends them, in any case of letters and with names repeated, against those that the caller gets. Nothing
that concerns one connection, one framing or one site passes (`Stopped`); any other name arrives with all its values, in the order in
which they were sent. A stream of events in a chat is told by the content type that is left, and only fields that are missing are added
to it.
-/

namespace InferenceGate.Relay

open Http

/-- The names whose values do not pass from the backend to the caller. -/
inductive Stopped (backend : List (String × Bytes)) : String → Prop
  | connection {name : String} (h : name ∈ ["connection", "keep-alive", "proxy-authenticate", "proxy-authorization",
      "proxy-connection", "te", "trailer", "transfer-encoding", "upgrade"]) : Stopped backend name
  | own {name : String} (h : name ∈ ["content-length", "vary"]) : Stopped backend name
  | crossSite (rest : String) : Stopped backend ("access-control-" ++ rest)
  | listed {name : String} (h : Lists backend name) : Stopped backend name

/-- The first of the content types announces a stream of events: it is text, and blanks at its ends and case of letters aside it begins
with the type of such a stream. -/
def Announces (types : List Bytes) : Prop :=
  ∃ text rest, PrintableText text ∧ types = Bytes.ofText text :: rest ∧
    ∃ front back, Text.trim text = front ++ back ∧ Text.lowerAscii front = "text/event-stream"

/-- The fields of a stream of events where the backend gives none of their names. -/
def streamDefaults : Fields := [("cache-control", Bytes.ofText "no-cache"), ("x-accel-buffering", Bytes.ofText "no")]

/-- What passes of the fields of a backend, and what the caller gets. -/
structure Policed (mode : Mode) (backend : List (String × Bytes)) (passed fields : Fields) : Prop where
  /-- Nothing is left of what is stopped. -/
  stopped : ∀ name, Stopped backend name → passed.getAll name = []
  /-- A name that is not stopped keeps all its values, in their order. -/
  kept : ∀ name, ¬ Stopped backend name → passed.getAll name = given backend name
  /-- What passes once passes again. -/
  again : responseFields passed = passed
  /-- A stream of events in a chat gets the fields of a stream that are missing, behind all that passes. -/
  streamed : mode = .chat → Announces (passed.getAll "content-type") →
    fields = passed ++ streamDefaults.filter fun d => passed.getAll d.1 = []
  /-- Any other reply gets what passes and no more. -/
  plain : ¬ (mode = .chat ∧ Announces (passed.getAll "content-type")) → fields = passed

namespace ResponseFieldsAux

open RequestFieldsAux

variable {fs : Fields} {name : String} {backend : List (String × Bytes)}

/-! ## What passes -/

/-- A field of the name may pass, among the fields of a reply. -/
def passes (fs : Fields) (name : String) : Bool :=
  !(listed fs ++ hopByHop).contains name && !(["content-length", "vary"].contains name) && !isCrossSite name

/-- The three ways of taking fields out are one selection by their names. -/
theorem responseFields_eq (fs : Fields) : responseFields fs = fs.filter fun f => passes fs f.1 := by
  unfold responseFields endToEnd Fields.eraseAll
  rw [List.filter_filter, List.filter_filter]
  refine List.filter_congr fun f _ => ?_
  unfold passes
  rw [Bool.and_comm, Bool.and_comm (!isCrossSite f.1), Bool.and_assoc]

/-- A name has all its values among what passes, or none. -/
theorem getAll_responseFields (fs : Fields) (name : String) :
    (responseFields fs).getAll name = if passes fs name then fs.getAll name else [] := by
  rw [responseFields_eq]
  exact Fields.getAll_filter fs name (passes fs)

/-- A name that concerns other sites begins with the mark of such names. -/
theorem isCrossSite_iff : isCrossSite name = true ↔ ∃ rest, name = "access-control-" ++ rest := by
  unfold isCrossSite
  rw [List.isPrefixOf_iff_prefix]
  constructor
  · rintro ⟨rest, hrest⟩
    refine ⟨String.ofList rest, String.toList_inj.1 ?_⟩
    rw [← hrest, String.toList_append]
    exact congrArg (_ ++ ·) String.toList_ofList.symm
  · rintro ⟨rest, rfl⟩
    rw [String.toList_append]
    exact List.prefix_append _ _

/-- The fields that do not pass are those on one of the grounds. -/
theorem passes_eq_false : passes (received backend) name = false ↔ Stopped backend name := by
  have hstopped : passes (received backend) name = false ↔
      (name ∈ listed (received backend) ∨ name ∈ hopByHop) ∨ name ∈ ["content-length", "vary"] ∨ isCrossSite name = true := by
    unfold passes
    rw [← List.mem_append]
    simp only [Bool.and_eq_false_iff, Bool.not_eq_false', List.contains_iff_mem, or_assoc]
  rw [hstopped, mem_listed, isCrossSite_iff]
  constructor
  · rintro ((h | h) | h | ⟨rest, rfl⟩)
    · exact .listed h
    · exact .connection h
    · exact .own h
    · exact .crossSite rest
  · rintro (h | h | rest | h)
    · exact .inl (.inr h)
    · exact .inr (.inl h)
    · exact .inr (.inr ⟨rest, rfl⟩)
    · exact .inl (.inl h)

/-- No connection field passes, so what passes names no field of the connection. -/
theorem listed_responseFields (fs : Fields) : listed (responseFields fs) = [] := by
  have hstop : passes fs "connection" = false := by
    have hmem : (listed fs ++ hopByHop).contains "connection" = true :=
      List.contains_iff_mem.2 (List.mem_append_right _ List.mem_cons_self)
    unfold passes
    rw [hmem]
    rfl
  unfold listed
  rw [getAll_responseFields, hstop]
  rfl

/-- What passes passes again, since it lists no further name. -/
theorem responseFields_responseFields (fs : Fields) : responseFields (responseFields fs) = responseFields fs := by
  rw [responseFields_eq (responseFields fs), List.filter_eq_self]
  intro f hf
  rw [responseFields_eq, List.mem_filter] at hf
  have hpass : passes fs f.1 = true := hf.2
  unfold passes at hpass ⊢
  rw [listed_responseFields]
  simp only [Bool.and_eq_true, Bool.not_eq_true', List.contains_eq_mem, List.mem_append, decide_eq_false_iff_not, not_or] at hpass ⊢
  exact ⟨⟨⟨List.not_mem_nil, hpass.1.1.2⟩, hpass.1.2⟩, hpass.2⟩

/-! ## Streams of events -/

/-- A text in lower case begins with a text when it begins so in some case of letters. -/
theorem isPrefixOf_lowerAscii (front s : String) : front.toList.isPrefixOf (Text.lowerAscii s).toList = true ↔
    ∃ a b, s = a ++ b ∧ Text.lowerAscii a = front := by
  unfold Text.lowerAscii
  rw [List.isPrefixOf_iff_prefix, String.toList_ofList]
  constructor
  · rintro ⟨rest, hrest⟩
    obtain ⟨a, b, hab, ha, -⟩ := List.map_eq_append_iff.1 hrest.symm
    refine ⟨String.ofList a, String.ofList b, String.toList_inj.1 ?_, ?_⟩
    · rw [hab, String.toList_append, String.toList_ofList, String.toList_ofList]
    · rw [String.toList_ofList, ha, String.ofList_toList]
  · rintro ⟨a, b, rfl, rfl⟩
    rw [String.toList_ofList, String.toList_append, List.map_append]
    exact List.prefix_append _ _

/-- The test for a stream of events is that of the announcement. -/
theorem isEventStream_iff (fs : Fields) : isEventStream fs = true ↔ Announces (fs.getAll "content-type") := by
  have hbegins : ∀ text, ("text/event-stream".toList.isPrefixOf (Text.lowerAscii (Text.trim text)).toList = true ↔
      ∃ front back, Text.trim text = front ++ back ∧ Text.lowerAscii front = "text/event-stream") :=
    fun text => isPrefixOf_lowerAscii "text/event-stream" (Text.trim text)
  unfold isEventStream Fields.text? Announces
  rw [Fields.get?_eq_head?, Option.any_map, Option.any_eq_true]
  constructor
  · rintro ⟨text, htext, hprefix⟩
    obtain ⟨value, hvalue, hprintable⟩ := Option.bind_eq_some_iff.1 htext
    obtain ⟨htext, rfl⟩ := printable?_eq_some.1 hprintable
    obtain ⟨rest, hrest⟩ := List.head?_eq_some_iff.1 hvalue
    exact ⟨text, rest, htext, hrest, (hbegins text).1 hprefix⟩
  · rintro ⟨text, rest, htext, hrest, hfront⟩
    refine ⟨text, ?_, (hbegins text).2 hfront⟩
    rw [hrest]
    exact printable?_ofText htext

/-- One default behind the fields, if its name has no value among them. -/
theorem withDefault_eq (fs : Fields) (name value : String) :
    withDefault fs name value = fs ++ [(name, Bytes.ofText value)].filter fun d => fs.getAll d.1 = [] := by
  unfold withDefault
  by_cases h : fs.getAll name = []
  · rw [if_neg (fun hc => (Fields.contains_iff fs name).1 hc h), List.filter_cons_of_pos (by simpa using h)]
    rfl
  · rw [if_pos ((Fields.contains_iff fs name).2 h), List.filter_cons_of_neg (by simpa using h), List.filter_nil, List.append_nil]

/-- The default that is added first has another name than the second, so it does not keep that one away. -/
theorem getAll_withDefault_first (fs : Fields) :
    (withDefault fs "cache-control" "no-cache").getAll "x-accel-buffering" = fs.getAll "x-accel-buffering" := by
  have hnone : Fields.getAll [("cache-control", Bytes.ofText "no-cache")] "x-accel-buffering" = [] := by decide
  rw [withDefault_eq, Fields.getAll_concat, Fields.getAll_filter _ _ fun n => decide (fs.getAll n = []), hnone, ite_self,
    List.append_nil]

/-- The defaults of a stream are added for the names that have no value. -/
theorem streamingFields_eq (fs : Fields) :
    streamingFields fs = fs ++ streamDefaults.filter fun d => fs.getAll d.1 = [] := by
  have hsame : [("x-accel-buffering", Bytes.ofText "no")].filter
      (fun d => (withDefault fs "cache-control" "no-cache").getAll d.1 = []) =
        [("x-accel-buffering", Bytes.ofText "no")].filter fun d => fs.getAll d.1 = [] := by
    refine List.filter_congr fun d hd => ?_
    rw [List.mem_singleton.1 hd, getAll_withDefault_first]
  have hsplit : streamDefaults = [("cache-control", Bytes.ofText "no-cache")] ++ [("x-accel-buffering", Bytes.ofText "no")] := rfl
  unfold streamingFields
  rw [withDefault_eq (withDefault fs "cache-control" "no-cache"), hsame, withDefault_eq, hsplit, List.filter_append,
    List.append_assoc]

end ResponseFieldsAux

open ResponseFieldsAux

/-- Whatever fields a backend sends, the caller gets none that is stopped and all others as they were sent, and a stream of events in a chat
those of its fields that are missing. -/
theorem reply_policed (mode : Mode) (backend : List (String × Bytes)) :
    Policed mode backend (responseFields (received backend)) (callerFields mode (received backend)) := by
  have hvalues := getAll_responseFields (received backend)
  refine ⟨?_, ?_, responseFields_responseFields _, ?_, ?_⟩
  · intro name hstopped
    rw [hvalues, passes_eq_false.2 hstopped]
    rfl
  · intro name hpass
    have hpasses : passes (received backend) name = true := by
      rw [← Bool.not_eq_false, passes_eq_false]
      exact hpass
    rw [hvalues, if_pos hpasses, RequestFieldsAux.getAll_received]
  · intro hmode hannounced
    have hstream := (isEventStream_iff _).2 hannounced
    unfold callerFields
    simp only [hmode, hstream, decide_true, Bool.and_self, if_true]
    exact streamingFields_eq _
  · intro hplain
    rw [← isEventStream_iff] at hplain
    unfold callerFields
    exact if_neg fun h => hplain (by simpa using h)

end InferenceGate.Relay
