import InferenceGate.Chat.Payload
import InferenceGate.Proofs.Json.Members
import InferenceGate.Proofs.Text.LowerCase
import Mathlib.Data.List.Forall2

/-!
# The messages of a payload

The messages of a payload are read just when they are a list of some items, each an object with a role that is not blank and a text
(`IsMessage`); each then keeps its text and all else of its object but the role, which is normalized (`Reads`). Otherwise the fault is
that of the first item that is no message, and of that item the first of its faults (`FaultAt`). What was read is read as the same
messages again (`messages_read`).
-/

namespace InferenceGate.Chat

open Json

/-! ## Items -/

/-- An item that is a message: an object with a role that is a string and not blank, and a content that is a string. -/
inductive IsMessage : Value → Prop where
  | object {ms : Members} {role content : String} : ms.get? "role" = some (.string role) → Text.isBlankText role = false →
      ms.get? "content" = some (.string content) → IsMessage (.object ms)

/-- What is read of an item: its role trimmed and in lower case, its content, and its object with that role in place of the one it
had, the names in the order in which they were. -/
inductive Reads : Value → Message → Prop where
  | object {ms : Members} {role : String} {m : Message} : ms.get? "role" = some (.string role) →
      ms.get? "content" = some (.string m.content) → m.role = Text.lowerAscii (Text.trim role) →
      (∀ name, m.raw.get? name = if name = "role" then some (.string m.role) else ms.get? name) →
      ((ms.map Prod.fst).Pairwise (· < ·) → m.raw.map Prod.fst = ms.map Prod.fst) → Reads (.object ms) m

/-- What is wrong with an item that is no message: that it is no object, or else its role, or else its content. -/
inductive FaultOf : Value → PayloadFault → Prop where
  | notObject {item : Value} : (∀ ms, item ≠ .object ms) → FaultOf item .messageNotObject
  | role {ms : Members} : (∀ role, ms.get? "role" = some (.string role) → Text.isBlankText role = true) →
      FaultOf (.object ms) .invalidRole
  | content {ms : Members} {role : String} : ms.get? "role" = some (.string role) → Text.isBlankText role = false →
      (∀ content, ms.get? "content" ≠ some (.string content)) → FaultOf (.object ms) .unsupportedContent

/-- What is wrong with the messages of a payload: that there are none, or else the fault of the first item that is no message. -/
inductive FaultAt (payload : Members) : PayloadFault → Prop where
  | empty : (∀ items, payload.get? "messages" = some (.array items) → items = []) → FaultAt payload .emptyMessages
  | item {before after : List Value} {item : Value} {f : PayloadFault} :
      payload.get? "messages" = some (.array (before ++ item :: after)) → (∀ i ∈ before, IsMessage i) → FaultOf item f →
      FaultAt payload f

namespace MessagesAux

variable {item : Value} {items : List Value} {ms payload : Members} {m : Message} {messages : List Message} {f : PayloadFault}
  {role content : String}

/-! ## Roles -/

/-- Normalizing a role that was normalized changes nothing. -/
theorem normalizeRole_normalizeRole (role : String) : normalizeRole (normalizeRole role) = normalizeRole role := by
  unfold normalizeRole
  rw [Text.trim_lowerAscii, Text.trim_trim, Text.lowerAscii_lowerAscii]

/-- A role is empty in its normal form when it was blank. -/
theorem isEmpty_normalizeRole (role : String) : (normalizeRole role).isEmpty = Text.isBlankText role := by
  unfold normalizeRole
  rw [Text.isEmpty_lowerAscii, Text.isEmpty_trim]

/-- The role of an object is that of its string, when this is not blank. -/
theorem roleOf?_of_string (h : ms.get? "role" = some (.string role)) :
    roleOf? ms = if Text.isBlankText role then none else some (normalizeRole role) := by
  unfold roleOf?
  rw [h]
  cases hb : Text.isBlankText role <;> simp [Value.text?, Option.filter, isEmpty_normalizeRole, hb]

/-- A role that is no string is none. -/
theorem roleOf?_of_not_string (h : ∀ role, ms.get? "role" ≠ some (.string role)) : roleOf? ms = none := by
  unfold roleOf?
  cases hv : ms.get? "role" with
  | none => rfl
  | some v =>
    have htext : v.text? = none := by
      cases v with
      | string s => exact absurd hv (h s)
      | _ => rfl
    simp [htext]

/-! ## One item -/

/-- An item that is a message is read. -/
theorem parseMessage_object (hrole : ms.get? "role" = some (.string role)) (hblank : Text.isBlankText role = false)
    (hcontent : ms.get? "content" = some (.string content)) :
    parseMessage (.object ms) =
      .ok ⟨normalizeRole role, content, ms.insert "role" (.string (normalizeRole role))⟩ := by
  simp [parseMessage, roleOf?_of_string hrole, hblank, hcontent]

/-- An item at fault is refused with its fault. -/
theorem parseMessage_of_faultOf (h : FaultOf item f) : parseMessage item = .error f := by
  cases h with
  | notObject hne =>
    cases item with
    | object ms => exact absurd rfl (hne ms)
    | _ => rfl
  | @role ms hrole =>
    have hnone : roleOf? ms = none := by
      by_cases hs : ∃ role, Members.get? ms "role" = some (.string role)
      · obtain ⟨role, hs⟩ := hs
        simp [roleOf?_of_string hs, hrole role hs]
      · exact roleOf?_of_not_string (not_exists.1 hs)
    simp [parseMessage, hnone]
  | @content ms role hrole hblank hne =>
    simp only [parseMessage, roleOf?_of_string hrole, hblank, Bool.false_eq_true, if_false]

/-- An item is a message or has a fault. -/
theorem isMessage_or_faultOf (item : Value) : IsMessage item ∨ ∃ f, FaultOf item f := by
  cases item with
  | object ms =>
    by_cases hrole : ∃ role, Members.get? ms "role" = some (.string role) ∧ Text.isBlankText role = false
    · obtain ⟨role, hrole, hblank⟩ := hrole
      by_cases hcontent : ∃ content, Members.get? ms "content" = some (.string content)
      · obtain ⟨content, hcontent⟩ := hcontent
        exact .inl (.object hrole hblank hcontent)
      · exact .inr ⟨_, .content hrole hblank (not_exists.1 hcontent)⟩
    · refine .inr ⟨_, .role fun role hs => ?_⟩
      cases hb : Text.isBlankText role with
      | true => rfl
      | false => exact absurd ⟨role, hs, hb⟩ hrole
  | _ => exact .inr ⟨_, .notObject nofun⟩

/-- An item is read just when it is a message. -/
theorem exists_parseMessage_iff : (∃ m, parseMessage item = .ok m) ↔ IsMessage item := by
  constructor
  · rintro ⟨m, hm⟩
    rcases isMessage_or_faultOf item with h | ⟨f, hf⟩
    · exact h
    · rw [parseMessage_of_faultOf hf] at hm
      nomatch hm
  · rintro ⟨hrole, hblank, hcontent⟩
    exact ⟨_, parseMessage_object hrole hblank hcontent⟩

/-- A message that is read is that of a message object. -/
theorem eq_object_of_parseMessage (h : parseMessage item = .ok m) :
    ∃ (ms : Members) (role content : String), item = .object ms ∧ ms.get? "role" = some (.string role) ∧
      Text.isBlankText role = false ∧ ms.get? "content" = some (.string content) ∧
      m = ⟨normalizeRole role, content, ms.insert "role" (.string (normalizeRole role))⟩ := by
  obtain ⟨hrole, hblank, hcontent⟩ := exists_parseMessage_iff.1 ⟨m, h⟩
  exact ⟨_, _, _, rfl, hrole, hblank, hcontent, (Except.ok.inj ((parseMessage_object hrole hblank hcontent).symm.trans h)).symm⟩

/-- What an item is read as says what the item says. -/
theorem reads_of_parseMessage (h : parseMessage item = .ok m) : Reads item m := by
  obtain ⟨ms, role, content, rfl, hrole, -, hcontent, rfl⟩ := eq_object_of_parseMessage h
  have hmem : "role" ∈ ms.map Prod.fst := Members.mem_names_of_get? hrole
  refine .object hrole hcontent rfl (Members.get?_insert ms "role" _) ?_
  intro hsorted
  exact Members.names_insert hsorted hmem _

/-- The object of a message that was read is read as the same message. -/
theorem parseMessage_raw (h : parseMessage item = .ok m) : parseMessage (.object m.raw) = .ok m := by
  obtain ⟨ms, role, content, rfl, hrole, hblank, hcontent, rfl⟩ := eq_object_of_parseMessage h
  have hrole' : Members.get? (ms.insert "role" (.string (normalizeRole role))) "role" = some (.string (normalizeRole role)) := by
    simp [Members.get?_insert]
  have hblank' : Text.isBlankText (normalizeRole role) = false := by
    rw [← isEmpty_normalizeRole, normalizeRole_normalizeRole, isEmpty_normalizeRole, hblank]
  have hcontent' : Members.get? (ms.insert "role" (.string (normalizeRole role))) "content" = some (.string content) := by
    simp [Members.get?_insert, hcontent]
  rw [parseMessage_object hrole' hblank' hcontent', normalizeRole_normalizeRole, Members.insert_insert]

/-! ## All items -/

/-- Items are read one by one. -/
theorem forall₂_of_parseItems (h : parseItems items = .ok messages) :
    List.Forall₂ (fun i m => parseMessage i = .ok m) items messages := by
  induction items generalizing messages with
  | nil =>
    obtain rfl := Except.ok.inj h
    exact .nil
  | cons item items ih =>
    unfold parseItems at h
    cases hm : parseMessage item with
    | error f =>
      rw [hm] at h
      nomatch h
    | ok m =>
      cases hms : parseItems items with
      | error f =>
        rw [hm, hms] at h
        nomatch h
      | ok ms =>
        rw [hm, hms] at h
        obtain rfl := Except.ok.inj h
        exact .cons hm (ih hms)

/-- Items that are all read give their messages in order. -/
theorem parseItems_of_forall₂ (h : List.Forall₂ (fun i m => parseMessage i = .ok m) items messages) :
    parseItems items = .ok messages := by
  induction h with
  | nil => rfl
  | cons hm _ ih => simp [parseItems, hm, ih]

/-- The objects of messages that were read are read as these messages. -/
theorem forall₂_raw (h : List.Forall₂ (fun i m => parseMessage i = .ok m) items messages) :
    List.Forall₂ (fun i m => parseMessage i = .ok m) (messages.map fun m => .object m.raw) messages := by
  induction h with
  | nil => exact .nil
  | cons hm _ ih => exact .cons (parseMessage_raw hm) ih

/-- Items that are all messages are read. -/
theorem exists_parseItems (h : ∀ i ∈ items, IsMessage i) : ∃ messages, parseItems items = .ok messages := by
  induction items with
  | nil => exact ⟨[], rfl⟩
  | cons item items ih =>
    obtain ⟨m, hm⟩ := exists_parseMessage_iff.2 (h item List.mem_cons_self)
    obtain ⟨ms, hms⟩ := ih fun i hi => h i (List.mem_cons_of_mem _ hi)
    exact ⟨m :: ms, by simp [parseItems, hm, hms]⟩

/-- Behind messages alone the first item at fault decides. -/
theorem parseItems_of_faultOf {before : List Value} (h : ∀ i ∈ before, IsMessage i) (hf : FaultOf item f) (after : List Value) :
    parseItems (before ++ item :: after) = .error f := by
  induction before with
  | nil => simp [parseItems, parseMessage_of_faultOf hf]
  | cons i before ih =>
    obtain ⟨m, hm⟩ := exists_parseMessage_iff.2 (h i List.mem_cons_self)
    simp [parseItems, hm, ih fun i hi => h i (List.mem_cons_of_mem _ hi)]

/-- Items are all messages, or there is a first that is none. -/
theorem forall_isMessage_or (items : List Value) : (∀ i ∈ items, IsMessage i) ∨
    ∃ before item after f, items = before ++ item :: after ∧ (∀ i ∈ before, IsMessage i) ∧ FaultOf item f := by
  induction items with
  | nil => exact .inl (by simp)
  | cons item items ih =>
    rcases isMessage_or_faultOf item with hm | ⟨f, hf⟩
    · rcases ih with h | ⟨before, item', after, f, rfl, h, hf⟩
      · exact .inl (List.forall_mem_cons.2 ⟨hm, h⟩)
      · exact .inr ⟨item :: before, item', after, f, rfl, List.forall_mem_cons.2 ⟨hm, h⟩, hf⟩
    · exact .inr ⟨[], item, items, f, rfl, by simp, hf⟩

/-! ## The payload -/

/-- The messages of a payload with some items are those of the items. -/
theorem parseMessages_of_items (h : payload.get? "messages" = some (.array items)) (hne : items ≠ []) :
    parseMessages payload = parseItems items := by
  unfold parseMessages
  cases items with
  | nil => exact absurd rfl hne
  | cons item items => rw [h]

/-- A payload without items has no messages. -/
theorem parseMessages_of_empty (h : ∀ items, payload.get? "messages" = some (.array items) → items = []) :
    parseMessages payload = .error .emptyMessages := by
  unfold parseMessages
  split
  · rename_i item items hitems
    nomatch h _ hitems
  · rfl

/-- A payload whose messages are at fault is refused with that fault. -/
theorem parseMessages_of_faultAt (h : FaultAt payload f) : parseMessages payload = .error f := by
  cases h with
  | empty h => exact parseMessages_of_empty h
  | item hitems hbefore hf => rw [parseMessages_of_items hitems (by simp), parseItems_of_faultOf hbefore hf]

/-- The messages of a payload are some items that are all messages, or at fault. -/
theorem items_or_faultAt (payload : Members) :
    (∃ items, payload.get? "messages" = some (.array items) ∧ items ≠ [] ∧ ∀ i ∈ items, IsMessage i) ∨
      ∃ f, FaultAt payload f := by
  by_cases h : ∃ items, payload.get? "messages" = some (.array items) ∧ items ≠ []
  · obtain ⟨items, hitems, hne⟩ := h
    rcases forall_isMessage_or items with hall | ⟨before, item, after, f, rfl, hbefore, hf⟩
    · exact .inl ⟨items, hitems, hne, hall⟩
    · exact .inr ⟨f, .item hitems hbefore hf⟩
  · refine .inr ⟨_, .empty fun items hitems => ?_⟩
    by_contra hne
    exact h ⟨items, hitems, hne⟩

/-- Messages are read just when they are some items that are all messages. -/
theorem exists_parseMessages_iff : (∃ messages, parseMessages payload = .ok messages) ↔
    ∃ items, payload.get? "messages" = some (.array items) ∧ items ≠ [] ∧ ∀ i ∈ items, IsMessage i := by
  constructor
  · rintro ⟨messages, h⟩
    rcases items_or_faultAt payload with hitems | ⟨f, hf⟩
    · exact hitems
    · rw [parseMessages_of_faultAt hf] at h
      nomatch h
  · rintro ⟨items, hitems, hne, hall⟩
    rw [parseMessages_of_items hitems hne]
    exact exists_parseItems hall

/-- Messages are refused with a fault just when they are at fault so. -/
theorem parseMessages_eq_error : parseMessages payload = .error f ↔ FaultAt payload f := by
  constructor
  · intro h
    rcases items_or_faultAt payload with hitems | ⟨f', hf⟩
    · obtain ⟨messages, hok⟩ := exists_parseMessages_iff.2 hitems
      rw [hok] at h
      nomatch h
    · obtain rfl : f' = f := Except.error.inj ((parseMessages_of_faultAt hf).symm.trans h)
      exact hf
  · exact parseMessages_of_faultAt

/-- Messages that are read are those of some items, one by one. -/
theorem items_of_parseMessages (h : parseMessages payload = .ok messages) :
    ∃ items, payload.get? "messages" = some (.array items) ∧ items ≠ [] ∧
      List.Forall₂ (fun i m => parseMessage i = .ok m) items messages := by
  obtain ⟨items, hitems, hne, -⟩ := exists_parseMessages_iff.1 ⟨messages, h⟩
  rw [parseMessages_of_items hitems hne] at h
  exact ⟨items, hitems, hne, forall₂_of_parseItems h⟩

/-- What was read is read as the same messages again. -/
theorem parseMessages_raw (h : parseMessages payload = .ok messages) {again : Members}
    (hagain : again.get? "messages" = some (.array (messages.map fun m => .object m.raw))) :
    parseMessages again = .ok messages := by
  obtain ⟨items, -, hne, hread⟩ := items_of_parseMessages h
  have hraw := forall₂_raw hread
  have hne' : (messages.map fun m => Value.object m.raw) ≠ [] := by
    intro hnil
    rw [hnil] at hraw
    cases hraw
    cases hread
    exact hne rfl
  rw [parseMessages_of_items hagain hne', parseItems_of_forall₂ hraw]

end MessagesAux

open MessagesAux

/-- The messages of a payload are read just when they are a list of some items that are all messages, and each is read as it stands
there; otherwise the answer is the first fault there is. What was read is read as the same messages again. -/
theorem messages_read (payload : Members) :
    ((∃ messages, parseMessages payload = .ok messages) ↔
        ∃ items, payload.get? "messages" = some (.array items) ∧ items ≠ [] ∧ ∀ i ∈ items, IsMessage i) ∧
      (∀ items messages, payload.get? "messages" = some (.array items) → parseMessages payload = .ok messages →
        List.Forall₂ Reads items messages) ∧
      (∀ f, parseMessages payload = .error f ↔ FaultAt payload f) ∧
      ∀ messages (again : Members), parseMessages payload = .ok messages →
        again.get? "messages" = some (.array (messages.map fun m => .object m.raw)) → parseMessages again = .ok messages := by
  refine ⟨exists_parseMessages_iff, ?_, fun f => parseMessages_eq_error, fun messages again h hagain => parseMessages_raw h hagain⟩
  intro items messages hitems h
  obtain ⟨items', hitems', -, hread⟩ := items_of_parseMessages h
  obtain rfl : items' = items := by simpa using hitems'.symm.trans hitems
  exact hread.imp fun _ _ => reads_of_parseMessage

/-- A message that is read and read again, and two items at fault behind it, the first of which decides. -/
theorem messages_read_blank_role :
    let said : Value := .object [("content", .string "hi"), ("name", .string "bob"), ("role", .string " User ")]
    let mute : Value := .object [("content", .null), ("role", .string "\t")]
    let m : Message := ⟨"user", "hi", [("content", .string "hi"), ("name", .string "bob"), ("role", .string "user")]⟩
    parseMessages [("messages", .array [said, mute, .null])] = .error .invalidRole ∧
      parseMessages [("messages", .array [said])] = .ok [m] ∧ List.Forall₂ Reads [said] [m] ∧
      parseMessages [("messages", .array [.object m.raw])] = .ok [m] := by
  intro said mute m
  have hrole : Members.get? [("content", .string "hi"), ("name", .string "bob"), ("role", .string " User ")] "role" =
      some (.string " User ") := rfl
  have hsaid : IsMessage said := .object hrole rfl rfl
  have hmute : FaultOf mute .invalidRole := by
    refine .role fun role hrole => ?_
    obtain rfl : "\t" = role := Value.string.inj (Option.some.inj hrole)
    rfl
  have hitems : Members.get? [("messages", .array [said, mute, .null])] "messages" = some (.array ([said] ++ mute :: [.null])) := rfl
  have hfirst : FaultAt [("messages", .array [said, mute, .null])] .invalidRole := .item hitems (by simpa using hsaid) hmute
  have hread : parseMessages [("messages", .array [said])] = .ok [m] := rfl
  obtain ⟨-, -, hfault, -⟩ := messages_read [("messages", .array [said, mute, .null])]
  obtain ⟨-, hreads, -, hagain⟩ := messages_read [("messages", .array [said])]
  exact ⟨(hfault _).2 hfirst, hread, hreads _ _ rfl hread, hagain _ _ hread rfl⟩

end InferenceGate.Chat
