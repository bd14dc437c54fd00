/-
Base64 reads back as what was written (`decode?_encode`), and what is written has no white space.
-/
import EncryptedBackup.Text.Base64
import EncryptedBackup.Proofs.Text.Lines

namespace EncryptedBackup.Text.Base64

/-! ## Digits -/

theorem digit_spec : ∀ v < 64,
    value? (digit v) = some v ∧ digit v ≠ '=' ∧ isBlank (digit v) = false := by
  decide +kernel

theorem value?_digit {v : Nat} (h : v < 64) : value? (digit v) = some v := (digit_spec v h).1

theorem digit_ne_pad {v : Nat} (h : v < 64) : digit v ≠ '=' := (digit_spec v h).2.1

theorem solid_digit {v : Nat} (h : v < 64) : isBlank (digit v) = false := (digit_spec v h).2.2

/-! ## Groups -/

section

variable (a b c : UInt8)

theorem oneByte?_digits :
    oneByte? (digit (a.toNat / 4)) (digit (a.toNat % 4 * 16)) = some [a] := by
  have := a.toNat_lt
  unfold oneByte?
  rw [value?_digit (by omega), value?_digit (by omega)]
  have joined : a.toNat / 4 * 4 + a.toNat % 4 * 16 / 16 = a.toNat := by omega
  show (if _ then some [UInt8.ofNat _] else none) = _
  rw [if_pos (by omega), joined, UInt8.ofNat_toNat]

theorem twoBytes?_digits :
    twoBytes? (digit (a.toNat / 4)) (digit (a.toNat % 4 * 16 + b.toNat / 16))
      (digit (b.toNat % 16 * 4)) = some [a, b] := by
  have := a.toNat_lt
  have := b.toNat_lt
  unfold twoBytes?
  rw [value?_digit (by omega), value?_digit (by omega), value?_digit (by omega)]
  have first : a.toNat / 4 * 4 + (a.toNat % 4 * 16 + b.toNat / 16) / 16 = a.toNat := by omega
  have second : (a.toNat % 4 * 16 + b.toNat / 16) % 16 * 16 + b.toNat % 16 * 4 / 4 = b.toNat := by
    omega
  show (if _ then some [UInt8.ofNat _, UInt8.ofNat _] else none) = _
  rw [if_pos (by omega), first, second, UInt8.ofNat_toNat, UInt8.ofNat_toNat]

theorem threeBytes?_digits :
    threeBytes? (digit (a.toNat / 4)) (digit (a.toNat % 4 * 16 + b.toNat / 16))
      (digit (b.toNat % 16 * 4 + c.toNat / 64)) (digit (c.toNat % 64)) = some [a, b, c] := by
  have := a.toNat_lt
  have := b.toNat_lt
  have := c.toNat_lt
  unfold threeBytes?
  rw [value?_digit (by omega), value?_digit (by omega), value?_digit (by omega),
    value?_digit (by omega)]
  have first : a.toNat / 4 * 4 + (a.toNat % 4 * 16 + b.toNat / 16) / 16 = a.toNat := by omega
  have second : (a.toNat % 4 * 16 + b.toNat / 16) % 16 * 16 +
      (b.toNat % 16 * 4 + c.toNat / 64) / 4 = b.toNat := by omega
  have third : (b.toNat % 16 * 4 + c.toNat / 64) % 4 * 64 + c.toNat % 64 = c.toNat := by omega
  show some [UInt8.ofNat _, UInt8.ofNat _, UInt8.ofNat _] = _
  rw [first, second, third, UInt8.ofNat_toNat, UInt8.ofNat_toNat, UInt8.ofNat_toNat]

end

/-! ## Byte strings -/

/-- A group of four digits is no group with pads. -/
theorem decodeChars?_group {w x y z : Char} {head : Bytes} (cs : List Char) (y_ne : y ≠ '=')
    (z_ne : z ≠ '=') (group : threeBytes? w x y z = some head) :
    decodeChars? (w :: x :: y :: z :: cs) = (decodeChars? cs).map (head ++ ·) := by
  rw [decodeChars?, group]
  · cases decodeChars? cs with
    | none => rfl
    | some rest => rfl
  · exact fun same _ _ => y_ne same
  · exact fun same _ => z_ne same

theorem decodeChars?_encodeChars (bs : Bytes) : decodeChars? (encodeChars bs) = some bs := by
  fun_induction encodeChars bs with
  | case1 => rfl
  | case2 a => exact oneByte?_digits a
  | case3 a b =>
    have := b.toNat_lt
    rw [decodeChars?]
    · exact twoBytes?_digits a b
    · exact digit_ne_pad (by omega)
  | case4 a b c bs ih =>
    have := b.toNat_lt
    have := c.toNat_lt
    rw [decodeChars?_group _ (digit_ne_pad (by omega)) (digit_ne_pad (by omega))
      (threeBytes?_digits a b c), ih]
    rfl

theorem decode?_encode (bs : Bytes) : decode? (encode bs) = some bs := by
  unfold decode? encode
  rw [String.toList_ofList, decodeChars?_encodeChars]

theorem length_of_decodeChars? {cs : List Char} {bs : Bytes} (h : decodeChars? cs = some bs) :
    bs.length ≤ cs.length := by
  fun_induction decodeChars? cs generalizing bs with
  | case1 =>
    cases h
    rfl
  | case2 w x =>
    simp only [oneByte?, Option.bind_eq_bind, Option.bind_eq_some_iff] at h
    obtain ⟨_, -, _, -, h⟩ := h
    split at h
    · cases h
      simp
    · cases h
  | case3 w x y =>
    simp only [twoBytes?, Option.bind_eq_bind, Option.bind_eq_some_iff] at h
    obtain ⟨_, -, _, -, _, -, h⟩ := h
    split at h
    · cases h
      simp
    · cases h
  | case4 w x y z cs _ _ ih =>
    simp only [threeBytes?, Option.bind_eq_bind, Option.bind_eq_some_iff, Option.some.injEq] at h
    obtain ⟨head, ⟨_, -, _, -, _, -, _, -, rfl⟩, rest, read, rfl⟩ := h
    have shorter := ih read
    simp only [List.length_append, List.length_cons, List.length_nil]
    omega
  | case5 => cases h

/-- There is no white space in what is written. -/
theorem solid_encode (bs : Bytes) : ∀ c ∈ (encode bs).toList, isBlank c = false := by
  unfold encode
  rw [String.toList_ofList]
  fun_induction encodeChars bs with
  | case1 => nofun
  | case2 a =>
    have := a.toNat_lt
    simp only [List.forall_mem_cons]
    exact ⟨solid_digit (by omega), solid_digit (by omega), rfl, rfl, nofun⟩
  | case3 a b =>
    have := a.toNat_lt
    have := b.toNat_lt
    simp only [List.forall_mem_cons]
    exact ⟨solid_digit (by omega), solid_digit (by omega), solid_digit (by omega), rfl, nofun⟩
  | case4 a b c bs ih =>
    have := a.toNat_lt
    have := b.toNat_lt
    have := c.toNat_lt
    simp only [List.forall_mem_cons]
    exact ⟨solid_digit (by omega), solid_digit (by omega), solid_digit (by omega),
      solid_digit (by omega), ih⟩

theorem encode_ne_empty {bs : Bytes} (some : bs ≠ []) : encode bs ≠ "" := by
  intro empty
  have read := decode?_encode bs
  rw [empty] at read
  exact some (Option.some.inj read.symm)

/-- What is written stands on a line of its own. -/
theorem isLine_encode {bs : Bytes} (some : bs ≠ []) : IsLine (encode bs) :=
  .of_solid (encode_ne_empty some) (solid_encode bs)

end EncryptedBackup.Text.Base64
