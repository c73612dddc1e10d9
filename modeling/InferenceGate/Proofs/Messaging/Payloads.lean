import InferenceGate.Messaging.Message
import InferenceGate.Proofs.Json.Numerals
import InferenceGate.Proofs.Json.Records

/-!
# Payloads are read back

A message that is delivered is read from its payload as it was, when its numbers are words (`Outbound.read?_payload`); and the numbers of
a message that comes in are words (`inI64_of_read?`).
-/

namespace InferenceGate.Messaging

open Json Document

/-- The numbers of a message are words. -/
structure Outbound.InRange (m : Outbound) : Prop where
  id : ∀ n, m.id = some n → inI64 n
  sender : inI64 m.sender
  recipient : inI64 m.recipient
  type : ∀ n, m.type = some n → inI64 n
  media : ∀ n, m.media = some n → inI64 n

namespace PayloadsAux

variable {m : Outbound}

/-- The members of a message, with those that may be absent. -/
def members (m : Outbound) : List (String × Option Value) :=
  [("message_id", m.id.map .ofInt), ("from_id", some (.ofInt m.sender)), ("to_id", some (.ofInt m.recipient)),
    ("message_type", m.type.map .ofInt), ("message_media", m.media.map .ofInt), ("content", some (.string m.content)),
    ("timestamp", some (.string m.sentAt))]

/-- No two members of a payload have one name. -/
theorem names_nodup (m : Outbound) : ((members m).map Prod.fst).Nodup := by
  show ["message_id", "from_id", "to_id", "message_type", "message_media", "content", "timestamp"].Nodup
  decide

theorem payload_eq (m : Outbound) : m.payload = renderRecord (members m) := by
  obtain ⟨id, sender, recipient, type, media, content, sentAt⟩ := m
  cases id <;> cases type <;> cases media <;> rfl

/-- A payload in range can be read back. -/
theorem legible_members (h : m.InRange) : ∀ e ∈ members m, ∀ v, e.2 = some v → Legible v := by
  intro e he v hv
  simp only [members, List.mem_cons, List.not_mem_nil, or_false] at he
  rcases he with rfl | rfl | rfl | rfl | rfl | rfl | rfl
  · exact legible_of_map_ofInt h.id hv
  · obtain rfl := Option.some.inj hv
    exact legible_integer (.inl h.sender)
  · obtain rfl := Option.some.inj hv
    exact legible_integer (.inl h.recipient)
  · exact legible_of_map_ofInt h.type hv
  · exact legible_of_map_ofInt h.media hv
  · obtain rfl := Option.some.inj hv
    exact legible_string _
  · obtain rfl := Option.some.inj hv
    exact legible_string _

theorem inI64_of_i64? {t : Json.Tree} {n : Int} (h : t.i64? = some n) : inI64 n := by
  cases t with
  | leaf a =>
    unfold Tree.i64? Tree.integer? at h
    exact (Option.filter_eq_some_iff.1 h).2
  | list items => exact nomatch h
  | table ms => exact nomatch h

theorem inI64_of_optional? {found : Found Atom} {name : String} {o : Option Int} (h : found.optional? name Tree.i64? = some o) :
    ∀ n, o = some n → inI64 n := by
  rintro n rfl
  unfold Found.optional? Found.getD at h
  cases hget : found.get? name with
  | none => simp [hget] at h
  | some t =>
    rw [hget] at h
    have hread : t.i64? = some n := by
      cases t with
      | leaf a =>
        obtain ⟨isNull, -, h⟩ := Option.bind_eq_some_iff.1 h
        split at h
        · exact nomatch Option.some.inj h
        · obtain ⟨n', hn', hsome⟩ := Option.map_eq_some_iff.1 h
          exact Option.some.inj hsome ▸ hn'
      | list items => exact nomatch h
      | table ms => exact nomatch h
    exact inI64_of_i64? hread

end PayloadsAux

open PayloadsAux

/-- A message is read from its payload. -/
theorem Outbound.read?_payload {m : Outbound} (h : m.InRange) : (Json.read? (Bytes.ofText m.payload)).bind Outbound.read? = some m := by
  obtain ⟨found, hread, hget⟩ := record?_written [{ name := "message_id" }, { name := "from_id" }, { name := "to_id" },
    { name := "message_type" }, { name := "message_media" }, { name := "content" }, { name := "timestamp" }] (names_nodup m)
    (by decide)
  have hid : found.optional? "message_id" Tree.i64? = some m.id :=
    optional?_written (hget "message_id" (by decide)) fun n hn => optional?_ofInt (h.id n hn)
  have hsender : found.required? "from_id" Tree.i64? = some m.sender :=
    required?_written (hget "from_id" (by decide)) (i64?_ofInt h.sender)
  have hrecipient : found.required? "to_id" Tree.i64? = some m.recipient :=
    required?_written (hget "to_id" (by decide)) (i64?_ofInt h.recipient)
  have htype : found.optional? "message_type" Tree.i64? = some m.type :=
    optional?_written (hget "message_type" (by decide)) fun n hn => optional?_ofInt (h.type n hn)
  have hmedia : found.optional? "message_media" Tree.i64? = some m.media :=
    optional?_written (hget "message_media" (by decide)) fun n hn => optional?_ofInt (h.media n hn)
  have hcontent : found.required? "content" Tree.text? = some m.content :=
    required?_written (hget "content" (by decide)) rfl
  have hsentAt : found.required? "timestamp" Tree.text? = some m.sentAt :=
    required?_written (hget "timestamp" (by decide)) rfl
  rw [payload_eq, read?_renderRecord (legible_members h), Option.bind_some]
  unfold Outbound.read?
  rw [hread]
  simp only [Option.bind_eq_bind, Option.bind_some, hid, hsender, hrecipient, htype, hmedia, hcontent, hsentAt]
  rfl

/-- The numbers of a message that comes in are words. -/
theorem inI64_of_read? {t : Json.Tree} {m : Inbound} (h : Inbound.read? t = some m) :
    inI64 m.recipient ∧ (∀ n, m.type = some n → inI64 n) ∧ ∀ n, m.media = some n → inI64 n := by
  simp only [Inbound.read?, Option.bind_eq_bind, Option.bind_eq_some_iff] at h
  obtain ⟨found, -, recipient, hrecipient, type, htype, media, hmedia, content, -, h⟩ := h
  obtain rfl := Option.some.inj h
  obtain ⟨t, -, ht⟩ := Option.bind_eq_some_iff.1 hrecipient
  exact ⟨inI64_of_i64? ht, inI64_of_optional? htype, inI64_of_optional? hmedia⟩

end InferenceGate.Messaging
