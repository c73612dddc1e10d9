import InferenceGate.Credential.Base64Url

/-!
# What base64 spells

Bytes have one spelling, which is read back as the bytes (`decode?_encode`), and nothing else is read as them
(`decode?_eq_some`): the unused bits of a spelling are zero and every character has a value of its own.
-/

namespace InferenceGate.Base64Url

variable {cs bs : Bytes} {b : UInt8} {n : Nat}

theorem value?_symbol : ∀ n < 64, value? (symbol n) = some n := by decide

/-- A character with a value is the one that stands for it. -/
theorem symbol_of_value? (h : value? b = some n) : n < 64 ∧ symbol n = b := by
  have hall : ∀ m < 256, ∀ n ∈ value? (UInt8.ofNat m), n < 64 ∧ symbol n = UInt8.ofNat m := by decide +kernel
  have hb := hall b.toNat b.toNat_lt n
  rw [UInt8.ofNat_toNat] at hb
  exact hb h

/-- A byte is the one of a number that is its own. -/
theorem ofNat_eq (h : n = b.toNat) : UInt8.ofNat n = b := by rw [h, UInt8.ofNat_toNat]

/-- A spelling holds only characters of the alphabet. -/
theorem exists_of_mem_encode (h : b ∈ encode bs) : ∃ n < 64, b = symbol n := by
  induction bs using encode.induct with
  | case1 x y z rest ih =>
    have hx := x.toNat_lt
    have hy := y.toNat_lt
    have hz := z.toNat_lt
    rw [encode] at h
    simp only [List.mem_cons] at h
    rcases h with rfl | rfl | rfl | rfl | h
    · exact ⟨_, by omega, rfl⟩
    · exact ⟨_, Nat.mod_lt _ (by decide), rfl⟩
    · exact ⟨_, Nat.mod_lt _ (by decide), rfl⟩
    · exact ⟨_, Nat.mod_lt _ (by decide), rfl⟩
    · exact ih h
  | case2 x y =>
    have hx := x.toNat_lt
    have hy := y.toNat_lt
    rw [encode] at h
    simp only [List.mem_cons, List.not_mem_nil, or_false] at h
    rcases h with rfl | rfl | rfl <;> exact ⟨_, by omega, rfl⟩
  | case3 x =>
    have hx := x.toNat_lt
    rw [encode] at h
    simp only [List.mem_cons, List.not_mem_nil, or_false] at h
    rcases h with rfl | rfl <;> exact ⟨_, by omega, rfl⟩
  | case4 => exact nomatch h

/-- What is spelled is read back. -/
theorem decode?_encode (bs : Bytes) : decode? (encode bs) = some bs := by
  induction bs using encode.induct with
  | case1 a b c rest ih =>
    have ha := a.toNat_lt
    have hb := b.toNat_lt
    have hc := c.toNat_lt
    rw [encode, decode?, value?_symbol _ (by omega), value?_symbol _ (by omega), value?_symbol _ (by omega),
      value?_symbol _ (by omega), ih]
    show some (_ :: _ :: _ :: rest) = _
    rw [ofNat_eq (b := a) (by omega), ofNat_eq (b := b) (by omega), ofNat_eq (b := c) (by omega)]
  | case2 a b =>
    have ha := a.toNat_lt
    have hb := b.toNat_lt
    rw [encode, decode?, value?_symbol _ (by omega), value?_symbol _ (by omega), value?_symbol _ (by omega)]
    show (if (a.toNat * 256 + b.toNat) % 16 * 4 % 4 = 0 then some [_, _] else none) = _
    rw [if_pos (by omega), ofNat_eq (b := a) (by omega), ofNat_eq (b := b) (by omega)]
  | case3 a =>
    have ha := a.toNat_lt
    rw [encode, decode?, value?_symbol _ (by omega), value?_symbol _ (by omega)]
    show (if a.toNat % 4 * 16 % 16 = 0 then some [_] else none) = _
    rw [if_pos (by omega), ofNat_eq (b := a) (by omega)]
  | case4 => rfl

/-- What can be read is the spelling of what it is read as. -/
theorem encode_of_decode? (h : decode? cs = some bs) : encode bs = cs := by
  have hsize : UInt8.size = 256 := rfl
  induction cs using decode?.induct generalizing bs with
  | case1 =>
    obtain rfl := Option.some.inj h
    rfl
  | case2 => exact nomatch h
  | case3 a b =>
    simp only [decode?, Option.bind_eq_bind, Option.bind_eq_some_iff] at h
    obtain ⟨x, hx, y, hy, h⟩ := h
    obtain ⟨hx, rfl⟩ := symbol_of_value? hx
    obtain ⟨hy, rfl⟩ := symbol_of_value? hy
    split at h
    · obtain rfl := Option.some.inj h
      rw [encode, UInt8.toNat_ofNat_of_lt' (by omega), show (x * 4 + y / 16) / 4 = x by omega,
        show (x * 4 + y / 16) % 4 * 16 = y by omega]
    · exact nomatch h
  | case4 a b c =>
    simp only [decode?, Option.bind_eq_bind, Option.bind_eq_some_iff] at h
    obtain ⟨x, hx, y, hy, z, hz, h⟩ := h
    obtain ⟨hx, rfl⟩ := symbol_of_value? hx
    obtain ⟨hy, rfl⟩ := symbol_of_value? hy
    obtain ⟨hz, rfl⟩ := symbol_of_value? hz
    split at h
    · obtain rfl := Option.some.inj h
      rw [encode, UInt8.toNat_ofNat_of_lt' (by omega), UInt8.toNat_ofNat_of_lt' (by omega)]
      congr <;> omega
    · exact nomatch h
  | case5 a b c d rest ih =>
    simp only [decode?, Option.bind_eq_bind, Option.bind_eq_some_iff] at h
    obtain ⟨x, hx, y, hy, z, hz, w, hw, more, hmore, h⟩ := h
    obtain ⟨hx, rfl⟩ := symbol_of_value? hx
    obtain ⟨hy, rfl⟩ := symbol_of_value? hy
    obtain ⟨hz, rfl⟩ := symbol_of_value? hz
    obtain ⟨hw, rfl⟩ := symbol_of_value? hw
    obtain rfl := Option.some.inj h
    rw [encode, UInt8.toNat_ofNat_of_lt' (by omega), UInt8.toNat_ofNat_of_lt' (by omega), UInt8.toNat_ofNat_of_lt' (by omega), ih hmore]
    congr <;> omega

/-- Bytes have one spelling. -/
theorem decode?_eq_some : decode? cs = some bs ↔ cs = encode bs :=
  ⟨fun h => (encode_of_decode? h).symm, fun h => h ▸ decode?_encode bs⟩

end InferenceGate.Base64Url
