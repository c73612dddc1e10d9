import InferenceGate.Proofs.Json.Members
import InferenceGate.Quota.Ledger
import Mathlib.Algebra.Order.Floor.Semifield
import Mathlib.Data.Rat.Floor

/-!
# What a chat costs

The prompt of a chat is measured by the texts in its messages, written one after the other (`promptTexts`): four bytes of them make a token,
and a share of a token counts as one. With the tokens of the reply that is asked for, capped at the greatest word, this makes whole units of
the settings, again rounded up, and at least one (`payload_cost`). As another message only adds to the texts, it never makes the chat
cheaper.
-/

namespace InferenceGate.Chat

open Json

/-- The first of some members of an object that is a string. -/
def firstText? (ms : Members) (names : List String) : Option String := names.findSome? fun name => (ms.get? name).bind Value.text?

mutual
/-- The texts in a content value, in order: a string, those in the items of an array at any depth, and of an object the first string
among its `text` and its `content`. -/
def texts : Value → List String
  | .string s => [s]
  | .array items => textsOf items
  | .object ms => (firstText? ms ["text", "content"]).toList
  | _ => []

/-- The texts in a list of content values. -/
def textsOf : List Value → List String
  | [] => []
  | v :: vs => texts v ++ textsOf vs
end

/-- The texts of an item of `messages`: its role, when that is a string, and the texts of its content. -/
def itemTexts : Value → List String
  | .object ms => (firstText? ms ["role"]).toList ++ (Members.get? ms "content").elim [] texts
  | _ => []

/-- The texts of all messages of a payload. -/
def promptTexts (payload : Members) : List String :=
  match payload.get? "messages" with
  | some (.array items) => items.flatMap itemTexts
  | _ => []

namespace PromptTextsAux

/-- The bytes of some texts. -/
def sizeOf (ts : List String) : Nat := (String.join ts).utf8ByteSize

theorem sizeOf_append (ts us : List String) : sizeOf (ts ++ us) = sizeOf ts + sizeOf us := by
  unfold sizeOf
  rw [String.join_append, String.utf8ByteSize_append]

/-- The one text there may be. -/
theorem sizeOf_toList (t : Option String) : sizeOf t.toList = t.elim 0 String.utf8ByteSize := by
  cases t with
  | none => rfl
  | some s =>
    unfold sizeOf
    rw [Option.toList_some, String.join_cons]
    simp

/-- The text of a part is its text or, without one, its content. -/
theorem firstText?_pair (ms : Members) : firstText? ms ["text", "content"] = partText? ms := by
  unfold firstText? partText?
  cases htext : (ms.get? "text").bind Value.text? <;> cases hcontent : (ms.get? "content").bind Value.text? <;>
    simp [htext, hcontent]

theorem firstText?_single (ms : Members) (name : String) : firstText? ms [name] = (ms.get? name).bind Value.text? := by
  unfold firstText?
  cases h : (ms.get? name).bind Value.text? <;> simp [h]

mutual
/-- The bytes counted in a content value are those of its texts. -/
theorem contentBytes_eq : ∀ v, contentBytes v = sizeOf (texts v)
  | .string s => by simp [contentBytes, texts, sizeOf, String.join_cons]
  | .array items => by rw [contentBytes, texts, contentsBytes_eq items]
  | .object ms => by
    rw [contentBytes, texts, firstText?_pair, sizeOf_toList]
    cases partText? ms <;> rfl
  | .null | .bool _ | .number _ => rfl

theorem contentsBytes_eq : ∀ vs, contentsBytes vs = sizeOf (textsOf vs)
  | [] => rfl
  | v :: vs => by rw [contentsBytes, textsOf, sizeOf_append, contentBytes_eq v, contentsBytes_eq vs]
end

theorem itemBytes_eq (item : Value) : itemBytes item = sizeOf (itemTexts item) := by
  cases item with
  | object ms =>
    have hcontent : (Members.get? ms "content").elim 0 contentBytes = sizeOf ((Members.get? ms "content").elim [] texts) := by
      cases Members.get? ms "content" with
      | none => rfl
      | some content => exact contentBytes_eq content
    unfold itemBytes itemTexts
    rw [sizeOf_append, sizeOf_toList, firstText?_single, ← hcontent]
  | _ => rfl

/-- The bytes of items are those of all their texts. -/
theorem total_itemBytes (items : List Value) : total (items.map itemBytes) = sizeOf (items.flatMap itemTexts) := by
  induction items with
  | nil => rfl
  | cons item items ih => rw [List.map_cons, total_cons, List.flatMap_cons, sizeOf_append, itemBytes_eq, ih]

/-- The bytes of a payload are those of the texts of its prompt. -/
theorem messageBytes_eq (payload : Members) : messageBytes payload = sizeOf (promptTexts payload) := by
  unfold messageBytes promptTexts
  cases payload.get? "messages" with
  | none => rfl
  | some messages =>
    cases messages with
    | array items => exact total_itemBytes items
    | _ => rfl

end PromptTextsAux

end InferenceGate.Chat

namespace InferenceGate.Quota

open Json Chat.PromptTextsAux

namespace TokenCostAux

/-- A quotient rounded up. -/
theorem ceil_div_eq (a : ℕ) {b : ℕ} (hb : 0 < b) : ⌈(a : ℚ) / b⌉₊ = (a + b - 1) / b := by
  have hb' : (0 : ℚ) < b := Nat.cast_pos.2 hb
  refine eq_of_forall_ge_iff fun n => ?_
  rw [Nat.ceil_le, div_le_iff₀ hb', ← Nat.cast_mul, Nat.cast_le, Nat.div_le_iff_le_mul_add_pred hb, Nat.mul_comm]
  omega

/-- A prompt costs a token for every four bytes, rounded up. -/
theorem promptTokens_eq (payload : Members) :
    Chat.promptTokens payload = ⌈((String.join (Chat.promptTexts payload)).utf8ByteSize : ℚ) / 4⌉₊ := by
  unfold Chat.promptTokens
  rw [messageBytes_eq]
  exact (ceil_div_eq _ (by decide : 0 < 4)).symm

/-- The cost is the capped sum of tokens in units, rounded up. -/
theorem tokenCost_eq (prompt reply : ℕ) {unit : ℕ} (hunit : 0 < unit) :
    tokenCost prompt reply unit = ⌈((min (prompt + reply) maxU64 : ℕ) : ℚ) / unit⌉₊ := by
  have hzero : (unit == 0) = false := beq_false_of_ne (Nat.ne_of_gt hunit)
  unfold tokenCost
  simp only [hzero, Bool.false_eq_true, if_false]
  exact (ceil_div_eq _ hunit).symm

/-- While tokens are counted a payload costs one unit at least. -/
theorem payloadCost_eq {s : Settings} (hon : s.tokenEnabled = true) (payload : Members) : payloadCost s payload =
    max (tokenCost (Chat.promptTokens payload) (Chat.maxTokens payload s.defaultMaxTokens) s.tokenUnit) 1 := if_pos hon

/-- A longer prompt costs no less. -/
theorem tokenCost_mono {prompt prompt' : ℕ} (h : prompt ≤ prompt') (reply : ℕ) (unit : ℕ) :
    tokenCost prompt reply unit ≤ tokenCost prompt' reply unit := by
  have htotal : addCapped prompt reply ≤ addCapped prompt' reply := by
    unfold addCapped
    omega
  unfold tokenCost
  refine Nat.div_le_div_right ?_
  omega

/-- Another message adds its texts to those of the others. -/
theorem promptTokens_insert {payload : Members} {items : List Value} (h : payload.get? "messages" = some (.array items)) (item : Value) :
    Chat.promptTokens payload ≤ Chat.promptTokens (payload.insert "messages" (.array (items ++ [item]))) := by
  have hmore : Chat.messageBytes (payload.insert "messages" (.array (items ++ [item]))) =
      Chat.messageBytes payload + Chat.itemBytes item := by
    unfold Chat.messageBytes
    rw [Members.get?_insert, if_pos rfl, h]
    simp
  unfold Chat.promptTokens
  omega

/-- The messages of a payload do not say how long a reply it asks for. -/
theorem maxTokens_insert (payload : Members) (messages : Value) (fallback : ℕ) :
    Chat.maxTokens (payload.insert "messages" messages) fallback = Chat.maxTokens payload fallback := by
  have hname : "max_tokens" ≠ "messages" := by decide
  unfold Chat.maxTokens
  rw [Members.get?_insert, if_neg hname]

end TokenCostAux

open TokenCostAux

/-- While tokens are counted a chat costs the units that its prompt and the reply it asks for come to, each rounded up and at least one of
them, and no less with another message. -/
theorem payload_cost {s : Settings} (hvalid : s.isValid = true) (hon : s.tokenEnabled = true) (payload : Members) :
    payloadCost s payload =
        max 1 ⌈((min (⌈((String.join (Chat.promptTexts payload)).utf8ByteSize : ℚ) / 4⌉₊ +
          Chat.maxTokens payload s.defaultMaxTokens) maxU64 : ℕ) : ℚ) / s.tokenUnit⌉₊ ∧
      ∀ items item, payload.get? "messages" = some (.array items) →
        payloadCost s payload ≤ payloadCost s (payload.insert "messages" (.array (items ++ [item]))) := by
  have hunit : 0 < s.tokenUnit := by
    simp only [Settings.isValid, Bool.and_eq_true, decide_eq_true_eq] at hvalid
    exact hvalid.1.1.1
  constructor
  · rw [payloadCost_eq hon, tokenCost_eq _ _ hunit, promptTokens_eq, Nat.max_comm]
  · intro items item hitems
    have hprompt := tokenCost_mono (promptTokens_insert hitems item) (Chat.maxTokens payload s.defaultMaxTokens) s.tokenUnit
    rw [payloadCost_eq hon, payloadCost_eq hon, maxTokens_insert]
    omega

/-- Two texts within nested parts, a part of no text and an item that is no message, with settings of three tokens to a unit. -/
theorem payload_cost_nested :
    let s : Settings := ⟨10, 1000, 3, 256, 60, "rl"⟩
    let parts : List Value := [.object [("content", .string "abcd"), ("text", .bool true)], .array [.string "é", .null]]
    let items : List Value := [.object [("content", .array parts), ("role", .string "user")], .string "stray"]
    let payload : Members := [("max_tokens", .number (.integer 4)), ("messages", .array items)]
    s.isValid = true ∧ s.tokenEnabled = true ∧ Chat.promptTexts payload = ["user", "abcd", "é"] ∧ payloadCost s payload = 3 ∧
      payloadCost s payload ≤ payloadCost s (payload.insert "messages" (.array (items ++ [.object [("role", .string "assistant")]]))) := by
  intro s parts items payload
  have hvalid : s.isValid = true := by decide
  have hon : s.tokenEnabled = true := by decide
  obtain ⟨hcost, hmore⟩ := payload_cost hvalid hon payload
  have htexts : Chat.promptTexts payload = ["user", "abcd", "é"] := rfl
  have hprompt : ⌈((String.join ["user", "abcd", "é"]).utf8ByteSize : ℚ) / 4⌉₊ = 3 := ceil_div_eq 10 (by decide)
  have hunits : ⌈((min (3 + 4) maxU64 : ℕ) : ℚ) / (3 : ℕ)⌉₊ = 3 := ceil_div_eq 7 (by decide)
  refine ⟨hvalid, hon, htexts, ?_, hmore items _ rfl⟩
  rw [hcost, htexts, hprompt]
  exact (congrArg (max 1) hunits).trans rfl

end InferenceGate.Quota
