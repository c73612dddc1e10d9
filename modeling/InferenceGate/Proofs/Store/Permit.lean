import InferenceGate.Store.Routine

/-!
# Routines that keep to their user

A routine run for a user may use only the conversations it has found or created for him and only the ids it has drawn (`Permit`).
`Routine.Lawful` says so of every step a routine can come to, whatever the steps before it were answered. The steps of a lawful
routine leave the rows of all other users as they are, and on the user's part of the tables alone they are answered the same.
-/

namespace InferenceGate.Store

/-- The conversations a routine may use and the ids it may give to rows. -/
structure Permit where
  owned : List Int := []
  drawn : List Int := []

/-- A permit that allows all that another does. -/
structure Permit.Le (p p' : Permit) : Prop where
  owned : ∀ c ∈ p.owned, c ∈ p'.owned
  drawn : ∀ id ∈ p.drawn, id ∈ p'.drawn

theorem Permit.Le.refl (p : Permit) : p.Le p := ⟨fun _ h => h, fun _ h => h⟩

theorem Permit.Le.trans {p p' p'' : Permit} (h : p.Le p') (h' : p'.Le p'') : p.Le p'' :=
  ⟨fun c hc => h'.owned c (h.owned c hc), fun id hid => h'.drawn id (h.drawn id hid)⟩

/-- A new message that a user may store. -/
structure Permit.Allows (p : Permit) (user : Int) (m : NewMessage) : Prop where
  user_eq : m.user = user
  owned : m.conversation ∈ p.owned
  drawn : m.id ∈ p.drawn

/-- A wider permit allows what a narrower one does. -/
theorem Permit.Allows.mono {p p' : Permit} {user : Int} {m : NewMessage} (h : p.Allows user m) (hp : p.Le p') :
    p'.Allows user m :=
  ⟨h.user_eq, hp.owned _ h.owned, hp.drawn _ h.drawn⟩

namespace Step

/-- A step that a user may take under a permit. -/
def Permitted (user : Int) (p : Permit) : Step → Prop
  | .now | .nextId => True
  | .createConversation c => c.user = user ∧ c.id ∈ p.drawn
  | .findConversation _ u => u = user
  | .insertMessages ms => ∀ m ∈ ms, p.Allows user m
  | .upsertSystem m => p.Allows user m
  | .latestSystem c | .recentTurns c _ | .refresh c _ _ => c ∈ p.owned

/-- The permit after a step and its answer: an id drawn may be used, and a conversation found or created. -/
def learned (p : Permit) : (s : Step) → s.Answer → Permit
  | .nextId, id => { p with drawn := (id : Int) :: p.drawn }
  | .createConversation _, .ok c => { p with owned := (c : Conversation).id :: p.owned }
  | .findConversation id _, .ok (some _) => { p with owned := id :: p.owned }
  | _, _ => p

/-- A permit only grows. -/
theorem le_learned (p : Permit) (s : Step) (answer : s.Answer) : p.Le (s.learned p answer) := by
  unfold learned
  split
  · exact ⟨fun _ h => h, fun _ h => List.mem_cons_of_mem _ h⟩
  · exact ⟨fun _ h => List.mem_cons_of_mem _ h, fun _ h => h⟩
  · exact ⟨fun _ h => List.mem_cons_of_mem _ h, fun _ h => h⟩
  · exact Permit.Le.refl p

/-- A step that draws no id gives none to store. -/
theorem learned_drawn {p : Permit} {s : Step} (hs : s ≠ .nextId) (answer : s.Answer) : (s.learned p answer).drawn = p.drawn := by
  unfold learned
  split
  · exact absurd rfl hs
  · rfl
  · rfl
  · rfl

end Step

namespace Routine

variable {α β : Type} {user : Int}

/-- Every step that a routine can come to is permitted, and what it ends with satisfies a condition. -/
def Lawful (user : Int) : Permit → Routine α → (Permit → α → Prop) → Prop
  | p, .done a, post => post p a
  | p, .step s next, post => s.Permitted user p ∧ ∀ answer, Lawful user (s.learned p answer) (next answer) post

/-- Two routines in sequence are lawful when the first is and then the second. -/
theorem Lawful.bind {p : Permit} {r : Routine α} {f : α → Routine β} {mid : Permit → α → Prop} {post : Permit → β → Prop}
    (h : Lawful user p r mid) (hf : ∀ p' a, p.Le p' → mid p' a → Lawful user p' (f a) post) :
    Lawful user p (r.bind f) post := by
  induction r generalizing p with
  | done a => exact hf p a (Permit.Le.refl p) h
  | step s next ih =>
    refine ⟨h.1, fun answer => ih answer (h.2 answer) fun p' a hle => hf p' a ((s.le_learned p answer).trans hle)⟩

end Routine

end InferenceGate.Store
