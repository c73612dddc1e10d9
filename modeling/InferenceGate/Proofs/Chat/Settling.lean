import InferenceGate.Chat.Turn
import InferenceGate.Proofs.Store.Duty

/-!
# Turns settle what they owe

A turn that is prepared and one that is finished store messages only in conversations that they know, and neither ends owing anything,
whether it ends well or finds a fault (`dutiful_prepare`, `dutiful_finish`).
-/

namespace InferenceGate.Chat

open Json Store

/-- A dutiful routine of a turn: it ends with what satisfies a condition, or at a fault of the turn with nothing owed. -/
def DutifulTurn {α : Type} (d : Duty) (r : TurnRoutine α) (post : Duty → α → Prop) : Prop :=
  Routine.Dutiful d (ExceptT.run r) fun d' answer =>
    match answer with
    | .ok a => post d' a
    | .error _ => d'.owed = []

namespace SettlingAux

variable {α β : Type} {d : Duty}

/-! ## The ways to build a turn -/

theorem dutiful_pure {a : α} {post : Duty → α → Prop} (h : post d a) : DutifulTurn d (pure a) post := h

/-- A fault may be found while nothing is owed. -/
theorem dutiful_throw {f : TurnFault} {post : Duty → α → Prop} (h : d.owed = []) : DutifulTurn d (throw f) post := h

/-- Dutiful routines one after the other are dutiful. -/
theorem dutiful_bind {r : TurnRoutine α} {f : α → TurnRoutine β} {q : Duty → α → Prop} {post : Duty → β → Prop}
    (h : DutifulTurn d r q) (hf : ∀ d' a, d.Le d' → q d' a → DutifulTurn d' (f a) post) :
    DutifulTurn d (r >>= f) post := by
  refine Routine.Dutiful.bind h fun d' answer hle hq => ?_
  cases answer with
  | ok a => exact hf d' a hle hq
  | error e => exact hq

/-- A dutiful routine of the store is one of a turn. -/
theorem dutiful_always {r : Routine α} {post : Duty → α → Prop} (h : Routine.Dutiful d r post) :
    DutifulTurn d (always r) post :=
  Routine.Dutiful.bind h fun _ _ _ ha => ha

/-- A step of the store, which is answered without a fault. -/
theorem dutiful_stored {r : Routine (Except Store.Fault α)} {post : Duty → α → Prop}
    (h : Routine.Dutiful d r fun d' answer => ∃ a, answer = .ok a ∧ post d' a) : DutifulTurn d (stored r) post := by
  refine Routine.Dutiful.bind h fun d' answer _ ha => ?_
  obtain ⟨a, rfl, hpost⟩ := ha
  exact hpost

variable {user conversation now : Int} {model : String} {current : List Message}

/-! ## Storing a turn -/

/-- The row of a message is of the conversation and has the role of the message. -/
def RowsOf (conversation : Int) (ms : List Message) (rows : List NewMessage) : Prop :=
  ∀ row ∈ rows, row.conversation = conversation ∧ ∃ m ∈ ms, row.role = m.role

/-- Drawing the ids for rows leaves what is owed as it was. -/
theorem dutiful_newMessages (ms : List Message) :
    DutifulTurn d (newMessages user conversation model now ms) fun d' rows =>
      d'.owed = d.owed ∧ RowsOf conversation ms rows := by
  induction ms with
  | nil => exact dutiful_pure ⟨rfl, nofun⟩
  | cons m ms ih =>
    refine dutiful_bind (q := fun d' row => d' = d ∧ row.conversation = conversation ∧ row.role = m.role) ?_ ?_
    · refine dutiful_bind (q := fun d' _ => d' = d) (dutiful_always ⟨trivial, fun _ _ => rfl⟩) ?_
      intro d' id _ hd'
      exact dutiful_pure ⟨hd', rfl, rfl⟩
    · rintro d' row _ ⟨rfl, hconv, hrole⟩
      refine dutiful_bind ih fun d'' rows _ hrows => dutiful_pure ⟨hrows.1, fun r hr => ?_⟩
      rcases List.mem_cons.1 hr with rfl | hr
      · exact ⟨hconv, m, List.mem_cons_self, hrole⟩
      · obtain ⟨h1, m', hm', h2⟩ := hrows.2 r hr
        exact ⟨h1, m', List.mem_cons_of_mem m hm', h2⟩

/-- Of a turn without a system message none is written, and one that is written is owed. -/
theorem dutiful_writeSystem {rows : List NewMessage} (howed : d.OwesOnly conversation)
    (h : ∀ row ∈ rows, row.conversation = conversation ∧ conversation ∈ d.known ∧ row.row.isSystem = true) :
    DutifulTurn d (writeSystem rows) fun d' _ => d'.OwesOnly conversation := by
  cases rows with
  | nil => exact dutiful_pure howed
  | cons m rows =>
    obtain ⟨hconv, hknown, hsys⟩ := h m List.mem_cons_self
    refine dutiful_bind (q := fun d' _ => d'.OwesOnly conversation) ?_ fun _ _ _ h => dutiful_pure h
    refine dutiful_stored ⟨⟨hconv ▸ hknown, hsys⟩, fun answer hs => ?_⟩
    obtain ⟨id, rfl⟩ := hs
    refine ⟨id, rfl, fun c hc => ?_⟩
    rcases List.mem_cons.1 hc with rfl | hc
    · exact hconv
    · exact howed c hc

/-- Messages of the user are stored in a known conversation, which is then owed. -/
theorem dutiful_insertMessages {rows : List NewMessage} (howed : d.OwesOnly conversation)
    (h : ∀ row ∈ rows, row.conversation = conversation ∧ conversation ∈ d.known ∧ row.row.isSystem = false) :
    Routine.Dutiful d (Routine.insertMessages rows) fun d' answer => ∃ a, answer = .ok a ∧ d'.OwesOnly conversation := by
  refine ⟨fun row hrow => ?_, fun answer hs => ?_⟩
  · obtain ⟨hconv, hknown, hsys⟩ := h row hrow
    exact ⟨hconv ▸ hknown, hsys⟩
  · obtain rfl : answer = Except.ok () := hs
    refine ⟨(), rfl, fun c hc => ?_⟩
    rcases List.mem_append.1 hc with hc | hc
    · obtain ⟨row, hrow, rfl⟩ := List.mem_map.1 hc
      exact (h row hrow).1
    · exact howed c hc

/-- When the figures of the only conversation owed are brought up to date nothing is owed. -/
theorem dutiful_refresh {time : Int} {name : Option String} (howed : d.OwesOnly conversation) :
    DutifulTurn d (stored (Routine.refresh conversation name time)) fun d' _ => d'.owed = [] := by
  refine dutiful_stored ⟨trivial, fun answer hs => ?_⟩
  obtain rfl : answer = Except.ok () := hs
  refine ⟨(), rfl, ?_⟩
  show d.owed.filter (· != conversation) = []
  rw [List.filter_eq_nil_iff]
  intro c hc
  simp [howed c hc]

/-- A row with the role of a message is of the system when the message is. -/
theorem isSystem_row {row : NewMessage} {m : Message} (h : row.role = m.role) : row.row.isSystem = m.isSystem := by
  unfold Store.Message.isSystem Message.isSystem NewMessage.row
  rw [h]

/-- The system message of a turn is one of the system. -/
theorem isSystem_of_systemOf? {m : Message} (h : m ∈ (systemOf? current).toList) : m.isSystem = true := by
  rw [Option.mem_toList] at h
  exact List.find?_some h

/-- A message of the user is none of the system. -/
theorem not_isSystem_of_isUser {m : Message} (h : m ∈ current.filter Message.isUser) : m.isSystem = false := by
  have hrole := (List.mem_filter.1 h).2
  unfold Message.isUser at hrole
  unfold Message.isSystem
  rw [beq_iff_eq] at hrole
  rw [hrole]
  rfl

/-- Storing a turn leaves nothing owed. -/
theorem dutiful_storeTurn (hknown : conversation ∈ d.known) (howed : d.owed = []) :
    DutifulTurn d (storeTurn user conversation model current) fun d' _ => d'.owed = [] := by
  refine dutiful_bind (q := fun d' _ => d'.owed = []) (dutiful_always ⟨trivial, fun _ _ => howed⟩) fun d₀ now h₀ howed₀ => ?_
  refine dutiful_bind (dutiful_newMessages _) fun d₁ system h₁ hsystem => ?_
  refine dutiful_bind (dutiful_newMessages _) fun d₂ users h₂ husers => ?_
  have hknown₂ : conversation ∈ d₂.known := h₂ _ (h₁ _ (h₀ _ hknown))
  have howed₂ : d₂.OwesOnly conversation := by
    intro c hc
    rw [husers.1, hsystem.1, howed₀] at hc
    nomatch hc
  refine dutiful_bind (dutiful_writeSystem howed₂ fun row hrow => ?_) fun d₃ _ h₃ howed₃ => ?_
  · obtain ⟨hconv, m, hm, hrole⟩ := hsystem.2 row hrow
    exact ⟨hconv, hknown₂, (isSystem_row hrole).trans (isSystem_of_systemOf? hm)⟩
  refine dutiful_bind (dutiful_stored (dutiful_insertMessages howed₃ fun row hrow => ?_)) fun d₄ _ _ howed₄ => ?_
  · obtain ⟨hconv, m, hm, hrole⟩ := husers.2 row hrow
    exact ⟨hconv, h₃ _ hknown₂, (isSystem_row hrole).trans (not_isSystem_of_isUser hm)⟩
  exact dutiful_refresh howed₄

/-! ## Preparing -/

/-- A conversation that a turn opens is known to it. -/
theorem dutiful_openConversation (howed : d.owed = []) :
    DutifulTurn d (openConversation user model current) fun d' id => id ∈ d'.known ∧ d'.owed = [] := by
  refine dutiful_bind (q := fun d' _ => d'.owed = []) (dutiful_always ⟨trivial, fun _ _ => howed⟩) fun d₀ id _ howed₀ => ?_
  refine dutiful_bind (q := fun d' _ => d'.owed = []) (dutiful_always ⟨trivial, fun _ _ => howed₀⟩) fun d₁ now _ howed₁ => ?_
  refine dutiful_bind (q := fun d' c => c.id ∈ d'.known ∧ d'.owed = []) (dutiful_stored ⟨trivial, ?_⟩) ?_
  · rintro answer ⟨c, rfl⟩
    exact ⟨c, rfl, List.mem_cons_self, howed₁⟩
  · exact fun d₂ c _ hc => dutiful_pure hc

/-- A conversation that a turn may continue has been found. -/
theorem dutiful_checkContinuation (howed : d.owed = []) :
    DutifulTurn d (checkContinuation user conversation current) fun d' _ => conversation ∈ d'.known ∧ d'.owed = [] := by
  refine dutiful_bind (q := fun d' found => (found.isSome → conversation ∈ d'.known) ∧ d'.owed = []) (dutiful_stored ⟨trivial, ?_⟩) ?_
  · rintro answer ⟨found, rfl⟩
    cases found with
    | none => exact ⟨none, rfl, nofun, howed⟩
    | some c => exact ⟨some c, rfl, fun _ => List.mem_cons_self, howed⟩
  · rintro d' found _ ⟨hfound, howed'⟩
    cases found with
    | none => exact dutiful_bind (q := fun _ _ => False) (dutiful_throw howed') fun _ _ _ h => h.elim
    | some c =>
      cases hc : continues current with
      | false => exact dutiful_throw howed'
      | true => exact dutiful_pure ⟨hfound rfl, howed'⟩

/-- Reading the context of a conversation leaves nothing owed. -/
theorem dutiful_continued {maxHistory : Nat} (howed : d.owed = []) :
    DutifulTurn d (continued maxHistory conversation current) fun d' _ => d'.owed = [] := by
  refine dutiful_bind (q := fun d' _ => d'.owed = []) (dutiful_stored ⟨trivial, ?_⟩) fun d₀ system _ howed₀ => ?_
  · rintro answer ⟨m, rfl⟩
    exact ⟨m, rfl, howed⟩
  refine dutiful_bind (q := fun d' _ => d'.owed = []) (dutiful_stored ⟨trivial, ?_⟩) fun d₁ history _ howed₁ => ?_
  · rintro answer ⟨ms, rfl⟩
    exact ⟨ms, rfl, howed₀⟩
  exact dutiful_pure howed₁

/-- Preparing a turn whose payload was read leaves nothing owed. -/
theorem dutiful_prepareRead {maxHistory : Nat} {payload : Members} {options : TurnOptions} (howed : d.owed = []) :
    DutifulTurn d (prepareRead maxHistory user payload model current options) fun d' _ => d'.owed = [] := by
  unfold prepareRead
  split
  · refine dutiful_bind (dutiful_checkContinuation howed) fun d₀ _ _ h₀ => ?_
    refine dutiful_bind (dutiful_continued h₀.2) fun d₁ messages h₁ howed₁ => ?_
    refine dutiful_bind (dutiful_storeTurn (h₁ _ h₀.1) howed₁) fun d₂ _ _ howed₂ => ?_
    exact dutiful_pure howed₂
  · refine dutiful_bind (dutiful_openConversation howed) fun d₀ conversation _ h₀ => ?_
    refine dutiful_bind (dutiful_storeTurn h₀.1 h₀.2) fun d₁ _ _ howed₁ => ?_
    exact dutiful_pure howed₁

/-! ## Finishing -/

/-- Storing a reply leaves at most the refresh of its conversation owed. -/
theorem dutiful_storeReply {text : Option String} (hknown : conversation ∈ d.known) (howed : d.owed = []) :
    Routine.Dutiful d (storeReply conversation user model now text) fun d' answer =>
      ∃ a, answer = .ok a ∧ d'.OwesOnly conversation := by
  have hnone : d.OwesOnly conversation := by
    intro c hc
    rw [howed] at hc
    nomatch hc
  unfold storeReply
  split
  · exact ⟨(), rfl, hnone⟩
  · refine ⟨trivial, fun id _ => dutiful_insertMessages hnone fun row hrow => ?_⟩
    rw [List.mem_singleton.1 hrow]
    exact ⟨rfl, hknown, rfl⟩

end SettlingAux

open SettlingAux

variable {d : Duty}

/-- Preparing a turn ends with nothing owed. -/
theorem dutiful_prepare (maxHistory : Nat) (user : Int) (payload : Members) (howed : d.owed = []) :
    DutifulTurn d (prepare maxHistory user payload) fun d' _ => d'.owed = [] := by
  unfold prepare
  split
  · exact dutiful_throw howed
  · split
    · exact dutiful_throw howed
    · exact dutiful_prepareRead howed

/-- Finishing a turn of a known conversation ends with nothing owed. -/
theorem dutiful_finish {conversation : Int} (hknown : conversation ∈ d.known) (howed : d.owed = []) (user : Int)
    (model : String) (text : Option String) :
    DutifulTurn d (finish conversation user model text) fun d' _ => d'.owed = [] := by
  refine dutiful_bind (q := fun d' _ => d'.owed = []) (dutiful_always ⟨trivial, fun _ _ => howed⟩) fun d₀ now h₀ howed₀ => ?_
  refine dutiful_bind (dutiful_always (dutiful_storeReply (h₀ _ hknown) howed₀)) ?_
  rintro d₁ saved _ ⟨u, rfl, howed₁⟩
  refine dutiful_bind (dutiful_refresh howed₁) fun d₂ _ _ howed₂ => ?_
  exact dutiful_stored ⟨u, rfl, howed₂⟩

end InferenceGate.Chat
