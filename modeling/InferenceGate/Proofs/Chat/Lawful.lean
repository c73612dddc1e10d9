import InferenceGate.Chat.Turn
import InferenceGate.Proofs.Store.Permit

/-!
# Turns keep to their user

Preparing a turn uses a conversation only after it was found for the user or created for him, and it stores only messages of the
user with ids that it drew; finishing a turn does so in the conversation it is given. Both hold of every run, since
`LawfulTurn` asks for it whatever the store answers.
-/

namespace InferenceGate.Chat

open Json Store

/-- A routine of a turn whose steps are all permitted; where it finds no fault, it ends with what satisfies a condition. -/
def LawfulTurn {α : Type} (user : Int) (p : Permit) (r : TurnRoutine α) (post : Permit → α → Prop) : Prop :=
  Routine.Lawful user p (ExceptT.run r) fun p' answer => ∀ a, answer = .ok a → post p' a

namespace LawfulAux

variable {α β : Type} {user : Int} {p : Permit}

/-! ## The ways to build a turn -/

theorem lawful_pure {a : α} {post : Permit → α → Prop} (h : post p a) : LawfulTurn user p (pure a) post := by
  intro b hb
  rw [← Except.ok.inj hb]
  exact h

/-- A fault ends a turn lawfully. -/
theorem lawful_throw {f : TurnFault} {post : Permit → α → Prop} : LawfulTurn user p (throw f) post := nofun

/-- Lawful routines one after the other are lawful. -/
theorem lawful_bind {r : TurnRoutine α} {f : α → TurnRoutine β} {q : Permit → α → Prop} {post : Permit → β → Prop}
    (h : LawfulTurn user p r q) (hf : ∀ p' a, p.Le p' → q p' a → LawfulTurn user p' (f a) post) :
    LawfulTurn user p (r >>= f) post := by
  refine Routine.Lawful.bind h fun p' answer hle hq => ?_
  cases answer with
  | ok a => exact hf p' a hle (hq a rfl)
  | error e => exact nofun

/-- A lawful routine of the store is one of a turn. -/
theorem lawful_always {r : Routine α} {post : Permit → α → Prop} (h : Routine.Lawful user p r post) :
    LawfulTurn user p (always r) post := by
  refine Routine.Lawful.bind h fun p' a _ ha b hb => ?_
  rw [← Except.ok.inj hb]
  exact ha

/-- A lawful routine of the store is one of a turn, its faults carried on. -/
theorem lawful_stored {r : Routine (Except Store.Fault α)} {post : Permit → α → Prop}
    (h : Routine.Lawful user p r fun p' answer => ∀ a, answer = .ok a → post p' a) : LawfulTurn user p (stored r) post := by
  refine Routine.Lawful.bind h fun p' answer _ ha b hb => ?_
  cases answer with
  | ok a => exact ha b (congrArg Except.ok (Except.ok.inj hb))
  | error e => nomatch hb

variable {conversation now : Int} {model : String} {current : List Message}

/-! ## Storing a turn -/

/-- The row of a message is the user's, with an id drawn for it. -/
theorem lawful_newMessage (hc : conversation ∈ p.owned) (m : Message) :
    LawfulTurn user p (newMessage user conversation model now m) fun p' row => p'.Allows user row := by
  refine lawful_bind (q := fun p' id => id ∈ p'.drawn) (lawful_always ⟨trivial, fun id => List.mem_cons_self⟩) ?_
  intro p' id hle hid
  exact lawful_pure ⟨rfl, hle.owned _ hc, hid⟩

/-- Drawing the ids for rows of an owned conversation is lawful, and the rows may be written. -/
theorem lawful_newMessages (hc : conversation ∈ p.owned) (ms : List Message) :
    LawfulTurn user p (newMessages user conversation model now ms) fun p' rows => ∀ row ∈ rows, p'.Allows user row := by
  induction ms generalizing p with
  | nil => exact lawful_pure nofun
  | cons m ms ih =>
    refine lawful_bind (lawful_newMessage hc m) fun p' row hle hrow => ?_
    refine lawful_bind (ih (hle.owned _ hc)) fun p'' rows hle' hrows => ?_
    refine lawful_pure fun r hr => ?_
    rcases List.mem_cons.1 hr with rfl | hr
    · exact hrow.mono hle'
    · exact hrows r hr

/-- Writing the system message is lawful where its rows may be written. -/
theorem lawful_writeSystem {rows : List NewMessage} (h : ∀ row ∈ rows, p.Allows user row) :
    LawfulTurn user p (writeSystem rows) fun _ _ => True := by
  cases rows with
  | nil => exact lawful_pure trivial
  | cons m rows =>
    refine lawful_bind (q := fun _ _ => True) ?_ fun _ _ _ _ => lawful_pure trivial
    exact lawful_stored ⟨h m List.mem_cons_self, fun _ _ _ => trivial⟩

/-- Storing a turn is lawful in an owned conversation. -/
theorem lawful_storeTurn (hc : conversation ∈ p.owned) :
    LawfulTurn user p (storeTurn user conversation model current) fun _ _ => True := by
  refine lawful_bind (q := fun _ _ => True) (lawful_always ⟨trivial, fun _ => trivial⟩) fun p₀ now h₀ _ => ?_
  refine lawful_bind (lawful_newMessages (h₀.owned _ hc) _) fun p₁ system h₁ hsystem => ?_
  refine lawful_bind (lawful_newMessages (h₁.owned _ (h₀.owned _ hc)) _) fun p₂ users h₂ husers => ?_
  refine lawful_bind (lawful_writeSystem fun row hrow => (hsystem row hrow).mono h₂) fun p₃ _ h₃ _ => ?_
  refine lawful_bind (q := fun _ _ => True) ?_ fun p₄ _ h₄ _ => ?_
  · exact lawful_stored ⟨fun row hrow => (husers row hrow).mono h₃, fun _ _ _ => trivial⟩
  · have hle := h₀.trans (h₁.trans (h₂.trans (h₃.trans h₄)))
    exact lawful_stored ⟨hle.owned _ hc, fun _ _ _ => trivial⟩

/-! ## Preparing -/

/-- A conversation that a turn opens is the user's. -/
theorem lawful_openConversation :
    LawfulTurn user p (openConversation user model current) fun p' id => id ∈ p'.owned := by
  refine lawful_bind (q := fun p' id => id ∈ p'.drawn) (lawful_always ⟨trivial, fun id => List.mem_cons_self⟩) ?_
  intro p₀ id _ hid
  refine lawful_bind (q := fun _ _ => True) (lawful_always ⟨trivial, fun _ => trivial⟩) fun p₁ now h₁ _ => ?_
  refine lawful_bind (q := fun p' c => c.id ∈ p'.owned) (lawful_stored ⟨⟨rfl, h₁.drawn _ hid⟩, ?_⟩) ?_
  · intro answer c hc
    subst hc
    exact List.mem_cons_self
  · exact fun p₂ c _ hc => lawful_pure hc

/-- A conversation that a turn may continue was found for the user. -/
theorem lawful_checkContinuation :
    LawfulTurn user p (checkContinuation user conversation current) fun p' _ => conversation ∈ p'.owned := by
  refine lawful_bind (q := fun p' found => found.isSome → conversation ∈ p'.owned) (lawful_stored ⟨rfl, ?_⟩) ?_
  · intro answer found hfound hsome
    subst hfound
    obtain ⟨c, rfl⟩ := Option.isSome_iff_exists.1 hsome
    exact List.mem_cons_self
  · intro p' found _ hfound
    cases found with
    | none => exact lawful_bind (q := fun _ _ => False) lawful_throw fun _ _ _ h => h.elim
    | some c =>
      cases hc : continues current with
      | false => exact lawful_throw
      | true => exact lawful_pure (hfound rfl)

/-- Reading the context of an owned conversation is lawful. -/
theorem lawful_continued {maxHistory : Nat} (hc : conversation ∈ p.owned) :
    LawfulTurn user p (continued maxHistory conversation current) fun _ _ => True := by
  refine lawful_bind (q := fun _ _ => True) (lawful_stored ⟨hc, fun _ _ _ => trivial⟩) fun p₀ system h₀ _ => ?_
  refine lawful_bind (q := fun _ _ => True) (lawful_stored ⟨h₀.owned _ hc, fun _ _ _ => trivial⟩) ?_
  exact fun _ _ _ _ => lawful_pure trivial

/-- Preparing a turn whose payload was read is lawful, and its conversation is owned afterwards. -/
theorem lawful_prepareRead {maxHistory : Nat} {payload : Members} {options : TurnOptions} :
    LawfulTurn user p (prepareRead maxHistory user payload model current options) fun p' turn => turn.conversation ∈ p'.owned := by
  unfold prepareRead
  split
  · rename_i conversation _
    refine lawful_bind lawful_checkContinuation fun p₀ _ _ hc => ?_
    refine lawful_bind (lawful_continued hc) fun p₁ messages h₁ _ => ?_
    refine lawful_bind (lawful_storeTurn (h₁.owned _ hc)) fun p₂ _ h₂ _ => ?_
    exact lawful_pure ((h₁.trans h₂).owned _ hc)
  · refine lawful_bind lawful_openConversation fun p₀ conversation _ hc => ?_
    refine lawful_bind (lawful_storeTurn hc) fun p₁ _ h₁ _ => ?_
    exact lawful_pure (h₁.owned _ hc)

/-! ## Finishing -/

/-- Storing a reply is lawful in an owned conversation. -/
theorem lawful_storeReply {text : Option String} (hc : conversation ∈ p.owned) :
    Routine.Lawful user p (storeReply conversation user model now text) fun _ _ => True := by
  unfold storeReply
  split
  · exact trivial
  · refine ⟨trivial, fun id => ⟨fun m hm => ?_, fun _ => trivial⟩⟩
    rw [List.mem_singleton.1 hm]
    exact ⟨rfl, hc, List.mem_cons_self⟩

end LawfulAux

open LawfulAux

variable {user : Int} {p : Permit}

/-- Preparing a turn is lawful, and the conversation that it answers with is the user's. -/
theorem lawful_prepare (maxHistory : Nat) (payload : Members) :
    LawfulTurn user p (prepare maxHistory user payload) fun p' turn => turn.conversation ∈ p'.owned := by
  unfold prepare
  split
  · exact lawful_throw
  · split
    · exact lawful_throw
    · exact lawful_prepareRead

/-- Finishing a turn of a user's conversation is lawful. -/
theorem lawful_finish {conversation : Int} (hc : conversation ∈ p.owned) (model : String) (text : Option String) :
    LawfulTurn user p (finish conversation user model text) fun _ _ => True := by
  refine lawful_bind (q := fun _ _ => True) (lawful_always ⟨trivial, fun _ => trivial⟩) fun p₀ now h₀ _ => ?_
  refine lawful_bind (lawful_always (lawful_storeReply (h₀.owned _ hc))) fun p₁ saved h₁ _ => ?_
  refine lawful_bind (q := fun _ _ => True) ?_ fun p₂ _ h₂ _ => ?_
  · exact lawful_stored ⟨(h₀.trans h₁).owned _ hc, fun _ _ _ => trivial⟩
  · exact lawful_stored fun _ _ => trivial

end InferenceGate.Chat
