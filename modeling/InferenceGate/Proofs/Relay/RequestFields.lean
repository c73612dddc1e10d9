import InferenceGate.Proofs.Http.Fields
import InferenceGate.Relay.Backend

/-!
# What the backend is told

The fields of a call as a caller writes them, in any case of letters and with names repeated, against those that the backend
gets. A caller can neither speak in the gateway's name, for the user's id and the configured fields take the place of whatever it
sent under their names, nor pass on what is meant for the gateway alone. All else that it sends arrives as it was sent.
-/

namespace InferenceGate.Relay

open Http

/-- The fields of a message as the gateway keeps them: in their order, with their names in lower case. -/
def received (client : List (String × Bytes)) : Fields := client.map fun f => (Text.lowerAscii f.1, f.2)

/-- The values that a message gives a name, in order and in whatever case of letters it writes the name. -/
def given (client : List (String × Bytes)) (name : String) : List Bytes :=
  client.filterMap fun f => if Text.lowerAscii f.1 = name then some f.2 else none

/-- A connection field of a message names a field: its value is text, and the name stands between its commas, blanks at its ends
and case of letters aside. -/
def Lists (client : List (String × Bytes)) (name : String) : Prop :=
  ∃ value ∈ given client "connection", ∃ text, printable? value = some text ∧
    ∃ piece ∈ text.splitOn ",", Text.lowerAscii (Text.trim piece) = name

/-- The names whose values do not pass from the caller to the backend. -/
inductive Withheld (mode : Mode) (client : List (String × Bytes)) : String → Prop
  | own {name : String} (h : name ∈ ["authorization", "host", "content-length", "x-user-id"]) : Withheld mode client name
  | connection {name : String} (h : name ∈ ["connection", "keep-alive", "proxy-authenticate", "proxy-authorization",
      "proxy-connection", "te", "trailer", "transfer-encoding", "upgrade"]) : Withheld mode client name
  | listed {name : String} (h : Lists client name) : Withheld mode client name
  | encoding (h : mode = .chat) : Withheld mode client "accept-encoding"

/-- The value configured for a name. Names are configured in any case of letters, and of several settings of a name the last
counts. -/
def configured? : List (String × String) → String → Option Bytes
  | [], _ => none
  | (n, value) :: rest, name =>
    (configured? rest name).or (if fieldName? n = some name then some (Bytes.ofText value) else none)

/-- What the backend gets of a caller's fields, of those configured and of the user's id. -/
structure Unspoofed (mode : Mode) (client : List (String × Bytes)) (conf : List (String × String)) (user : Int)
    (fields : Fields) : Prop where
  /-- The user's id stands there once, and nothing else does under its name. -/
  user : fields.getAll "x-user-id" = [Bytes.ofText (toString user)]
  /-- What is withheld is gone before the configured fields are put in. -/
  withheld : ∀ name, Withheld mode client name → (requestFields mode (received client)).getAll name = []
  /-- A configured name has its configured value and no other. -/
  configured : ∀ name value, name ≠ "x-user-id" → configured? conf name = some value → fields.getAll name = [value]
  /-- A name that is neither configured nor withheld keeps all its values. -/
  kept : ∀ name, name ≠ "x-user-id" → configured? conf name = none → ¬ Withheld mode client name →
    fields.getAll name = given client name
  /-- A name that is withheld and not configured is not there. -/
  absent : ∀ name, name ≠ "x-user-id" → configured? conf name = none → Withheld mode client name → fields.getAll name = []

namespace RequestFieldsAux

variable {mode : Mode} {client : List (String × Bytes)} {conf : List (String × String)} {name : String}

/-- What is kept of the caller's fields has the values that the caller gave. -/
theorem getAll_received (client : List (String × Bytes)) (name : String) : (received client).getAll name = given client name := by
  induction client with
  | nil => rfl
  | cons f client ih =>
    show Fields.getAll ((Text.lowerAscii f.1, f.2) :: received client) name = _
    rw [Fields.getAll_cons, ih]
    unfold given
    by_cases h : Text.lowerAscii f.1 = name <;> simp [h]

/-- The names listed for the connection are those that the client lists. -/
theorem mem_listed (client : List (String × Bytes)) (name : String) : name ∈ listed (received client) ↔ Lists client name := by
  unfold listed Lists
  rw [getAll_received, List.mem_flatMap]
  refine exists_congr fun value => and_congr_right fun _ => ?_
  unfold listedNames
  cases h : printable? value with
  | none => simp
  | some text => simp

/-- The names that are taken out of the caller's fields are the withheld ones. -/
theorem withheld_iff : Withheld mode client name ↔
    name ∈ listed (received client) ++ hopByHop ∨ name ∈ requestOnly ++ if mode = .chat then ["accept-encoding"] else [] := by
  rw [List.mem_append, List.mem_append, mem_listed]
  constructor
  · rintro (h | h | h | h)
    · refine .inr (.inl ?_)
      simp only [requestOnly, userField, List.mem_cons, List.not_mem_nil, or_false] at h ⊢
      rcases h with h | h | h | h <;> simp [h]
    · exact .inl (.inr h)
    · exact .inl (.inl h)
    · exact .inr (.inr (by simp [h]))
  · rintro ((h | h) | (h | h))
    · exact .listed h
    · exact .connection h
    · refine .own ?_
      simp only [requestOnly, userField, List.mem_cons, List.not_mem_nil, or_false] at h ⊢
      rcases h with h | h | h | h <;> simp [h]
    · split at h
      · rename_i hm
        rw [List.mem_singleton] at h
        exact h ▸ .encoding hm
      · exact absurd h List.not_mem_nil

/-- The fields that may pass hold nothing of what is withheld and all of what is not. -/
theorem getAll_requestFields (mode : Mode) (client : List (String × Bytes)) (name : String) :
    (Withheld mode client name → (requestFields mode (received client)).getAll name = []) ∧
      (¬ Withheld mode client name → (requestFields mode (received client)).getAll name = given client name) := by
  unfold requestFields endToEnd
  rw [Fields.getAll_eraseAll, Fields.getAll_eraseAll, getAll_received, withheld_iff]
  constructor
  · rintro (h | h)
    · rw [if_pos h, ite_self]
    · rw [if_pos h]
  · intro h
    rw [if_neg fun h' => h (.inr h'), if_neg fun h' => h (.inl h')]

/-- A field that is accepted takes the place of those of its name. -/
theorem putField_ok {fs out : Fields} {n value : String} (h : putField fs n value = .ok out) :
    ∃ field, fieldName? n = some field ∧ out = fs.insert field (Bytes.ofText value) := by
  unfold putField at h
  split at h
  · exact nomatch h
  · rename_i field hfield
    dsimp only at h
    split at h
    · exact ⟨field, hfield, (Except.ok.inj h).symm⟩
    · exact nomatch h

/-- The last setting of a name is the value it has, and a name without one has the values that it had. -/
theorem getAll_configuredFields (conf : List (String × String)) {fs out : Fields} (h : configuredFields fs conf = .ok out)
    (name : String) : out.getAll name = match configured? conf name with | some v => [v] | none => fs.getAll name := by
  induction conf generalizing fs with
  | nil =>
    cases h
    rfl
  | cons f conf ih =>
    unfold configuredFields at h
    split at h
    · exact nomatch h
    · rename_i mid hmid
      obtain ⟨field, hfield, rfl⟩ := putField_ok hmid
      rw [ih h, Fields.getAll_insert, configured?, hfield]
      cases configured? conf name with
      | some v => rfl
      | none =>
        by_cases hn : field = name
        · rw [if_pos hn.symm, if_pos (congrArg some hn)]
          rfl
        · rw [if_neg fun e => hn e.symm, if_neg fun e => hn (Option.some.inj e)]
          rfl

/-- A configured field has the value configured for it, any other those it had. -/
theorem getAll_backend {base : String} {b : Backend} (hb : Backend.of base conf = .ok b) (fs : Fields) (name : String) :
    (fs.insertAll b.fields).getAll name = match configured? conf name with | some v => [v] | none => fs.getAll name := by
  unfold Backend.of at hb
  cases hc : configuredFields [] conf with
  | error e =>
    rw [hc] at hb
    exact nomatch hb
  | ok fields =>
    rw [hc] at hb
    obtain rfl := Except.ok.inj hb
    rw [Fields.getAll_insertAll, getAll_configuredFields conf hc]
    cases configured? conf name <;> rfl

end RequestFieldsAux

open RequestFieldsAux

/-- Whatever fields a caller sends, the backend is told of its user by the gateway alone, gets the configured fields as they are
configured and none of what is withheld, and gets all the rest as it was sent. -/
theorem request_unspoofed {base : String} {conf : List (String × String)} {b : Backend} (hb : Backend.of base conf = .ok b)
    (mode : Mode) (method : String) (target : Bytes) (client : List (String × Bytes)) (user : Int) (body : Bytes) :
    Unspoofed mode client conf user (b.request mode method target (received client) (some user) body).fields := by
  have hothers : ∀ name, name ≠ "x-user-id" →
      (b.request mode method target (received client) (some user) body).fields.getAll name =
        match configured? conf name with
        | some v => [v]
        | none => (requestFields mode (received client)).getAll name := by
    intro name hname
    show (((requestFields mode (received client)).insertAll b.fields).insert userField _).getAll name = _
    rw [Fields.getAll_insert, if_neg (show name ≠ userField from hname), getAll_backend hb]
  refine ⟨?_, fun name => (getAll_requestFields mode client name).1, ?_, ?_, ?_⟩
  · exact (Fields.getAll_insert _ _ _ _).trans (if_pos rfl)
  · intro name value hname hconf
    rw [hothers name hname, hconf]
  · intro name hname hconf hpass
    rw [hothers name hname, hconf]
    exact (getAll_requestFields mode client name).2 hpass
  · intro name hname hconf hheld
    rw [hothers name hname, hconf]
    exact (getAll_requestFields mode client name).1 hheld

/-- A caller that poses as another user under two spellings, sends a token and lists its own trace field as one of the connection;
the backend's key is configured. -/
theorem request_unspoofed_posing_caller :
    let client := [("X-User-Id", Bytes.ofText "1"), ("Authorization", Bytes.ofText "Bearer t"), ("x-user-id", Bytes.ofText "2"),
      ("Accept", Bytes.ofText "a"), ("Connection", Bytes.ofText "close, X-Trace"), ("x-trace", Bytes.ofText "9"),
      ("accept", Bytes.ofText "b")]
    let conf := [("AUTHORIZATION", "Bearer key")]
    let b : Backend := ⟨"http://upstream", [("authorization", Bytes.ofText "Bearer key")]⟩
    Backend.of "http://upstream" conf = .ok b ∧
      Unspoofed .chat client conf 7 (b.request .chat "GET" [0x2f] (received client) (some 7) []).fields :=
  ⟨rfl, request_unspoofed rfl .chat "GET" [0x2f] _ 7 []⟩

end InferenceGate.Relay
