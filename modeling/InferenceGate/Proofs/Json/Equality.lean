import InferenceGate.Json.Value

/-!
# JSON values are told apart

Two values can be compared part by part, so that it is decided whether they are the same.
-/

namespace InferenceGate.Json

mutual
/-- Two values are the same in all their parts. -/
def Value.same : Value → Value → Bool
  | .null, .null => true
  | .bool a, .bool b => decide (a = b)
  | .number a, .number b => decide (a = b)
  | .string a, .string b => decide (a = b)
  | .array a, .array b => sameItems a b
  | .object a, .object b => sameMembers a b
  | _, _ => false

/-- Two lists of values are the same, one after the other. -/
def sameItems : List Value → List Value → Bool
  | [], [] => true
  | a :: as, b :: bs => a.same b && sameItems as bs
  | _, _ => false

/-- Two lists of members are the same, one after the other. -/
def sameMembers : List (String × Value) → List (String × Value) → Bool
  | [], [] => true
  | (n, a) :: as, (m, b) :: bs => decide (n = m) && a.same b && sameMembers as bs
  | _, _ => false
end

mutual
/-- Values that are the same in all their parts are equal. -/
theorem Value.eq_of_same : (a b : Value) → a.same b = true → a = b
  | .null, .null, _ => rfl
  | .bool _, .bool _, h => congrArg Value.bool (of_decide_eq_true h)
  | .number _, .number _, h => congrArg Value.number (of_decide_eq_true h)
  | .string _, .string _, h => congrArg Value.string (of_decide_eq_true h)
  | .array a, .array b, h => congrArg Value.array (eq_of_sameItems a b h)
  | .object a, .object b, h => congrArg Value.object (eq_of_sameMembers a b h)

theorem eq_of_sameItems : (as bs : List Value) → sameItems as bs = true → as = bs
  | [], [], _ => rfl
  | a :: as, b :: bs, h => by
    rw [sameItems, Bool.and_eq_true] at h
    rw [Value.eq_of_same a b h.1, eq_of_sameItems as bs h.2]

theorem eq_of_sameMembers : (as bs : List (String × Value)) → sameMembers as bs = true → as = bs
  | [], [], _ => rfl
  | (n, a) :: as, (m, b) :: bs, h => by
    rw [sameMembers, Bool.and_eq_true, Bool.and_eq_true, decide_eq_true_iff] at h
    rw [h.1.1, Value.eq_of_same a b h.1.2, eq_of_sameMembers as bs h.2]
end

mutual
/-- A value is the same as itself. -/
theorem Value.same_self : (a : Value) → a.same a = true
  | .null => rfl
  | .bool _ => decide_eq_true rfl
  | .number _ => decide_eq_true rfl
  | .string _ => decide_eq_true rfl
  | .array as => sameItems_self as
  | .object as => sameMembers_self as

theorem sameItems_self : (as : List Value) → sameItems as as = true
  | [] => rfl
  | a :: as => by rw [sameItems, Value.same_self a, sameItems_self as, Bool.and_self]

theorem sameMembers_self : (as : List (String × Value)) → sameMembers as as = true
  | [] => rfl
  | (n, a) :: as => by rw [sameMembers, Value.same_self a, sameMembers_self as, decide_eq_true rfl, Bool.and_self, Bool.and_self]
end

instance : DecidableEq Value := fun a b =>
  decidable_of_iff (a.same b = true) ⟨Value.eq_of_same a b, fun h => h ▸ Value.same_self a⟩

end InferenceGate.Json
