/-
Reading undoes writing: lengths (`readLength?_encodeLength`), elements (`read?_element`) and natural
numbers (`readNatural?_natural`), whatever follows them, up to the greatest length in use. A number
takes one byte for every eight bits and one more for the sign (`naturalContent_length`), and what is
read is no longer than what it is read from (`length_of_readNatural?`).
-/
import EncryptedBackup.Crypto.Der
import EncryptedBackup.Proofs.Crypto.Octets

namespace EncryptedBackup.Der

/-! ## Lengths -/

/-- A length in use has at most four octets. -/
theorem magnitude_length_le {n : Nat} (h : n ≤ maxLength) : (magnitude n).length ≤ 4 := by
  cases written : magnitude n with
  | nil => simp
  | cons b bs =>
    have short : capacity bs.length < capacity 4 := by
      calc
        capacity bs.length ≤ n := capacity_le_of_magnitude written
        _ ≤ maxLength := h
        _ < capacity 4 := by decide
    rw [capacity_lt_iff] at short
    exact short

theorem readLength?_encodeLength {n : Nat} (h : n ≤ maxLength) (rest : Bytes) :
    readLength? (encodeLength n ++ rest) = some (n, rest) := by
  unfold encodeLength
  split
  · rename_i short
    have byte : (UInt8.ofNat n).toNat = n := by
      rw [UInt8.toNat_ofNat']
      omega
    have small : UInt8.ofNat n < 128 := by
      rw [UInt8.lt_iff_toNat_lt, byte]
      exact short
    simp [readLength?, small, byte]
  · rename_i long
    have four := magnitude_length_le h
    have value := ofBigEndian_magnitude n
    cases written : magnitude n with
    | nil =>
      rw [magnitude_eq_nil_iff] at written
      omega
    | cons b bs =>
      rw [written] at four value
      have needed := capacity_le_of_magnitude written
      rw [List.length_cons] at four
      have count : (UInt8.ofNat (128 + (bs.length + 1))).toNat = 128 + (bs.length + 1) := by
        rw [UInt8.toNat_ofNat']
        omega
      have large : ¬ UInt8.ofNat (128 + (bs.length + 1)) < 128 := by
        rw [UInt8.lt_iff_toNat_lt, count]
        show ¬ _ < 128
        omega
      have octets : (b :: (bs ++ rest)).take (bs.length + 1) = b :: bs := by simp
      have behind : (b :: (bs ++ rest)).drop (bs.length + 1) = rest := by simp
      simp only [List.cons_append, List.length_cons, readLength?, if_neg large, count,
        Nat.add_sub_cancel_left, octets, behind, value, Nat.add_sub_cancel]
      rw [if_pos ⟨by omega, four, by simp, by omega, needed, h⟩]

/-! ## Elements -/

theorem element_length (tag : UInt8) (content : Bytes) :
    (element tag content).length = (encodeLength content.length).length + content.length + 1 := by
  simp [element]

theorem element_length_of_lt (tag : UInt8) {content : Bytes} (h : content.length < 128) :
    (element tag content).length = content.length + 2 := by
  rw [element_length, encodeLength, if_pos h, List.length_singleton]
  omega

theorem element_length_of_le (tag : UInt8) {content : Bytes} (least : 128 ≤ content.length)
    (most : content.length < 256) : (element tag content).length = content.length + 3 := by
  have high : content.length / 256 = 0 := by omega
  have one : (magnitude content.length).length = 1 := by
    rw [magnitude, octets, if_neg (by omega), high, octets, if_pos rfl]
    rfl
  rw [element_length, encodeLength, if_neg (by omega), List.length_cons, one]
  omega

/-- The tag and the length of an element take six bytes at most. -/
theorem element_length_le (tag : UInt8) {content : Bytes} (h : content.length ≤ maxLength) :
    (element tag content).length ≤ content.length + 6 := by
  have written : (encodeLength content.length).length ≤ 5 := by
    have four := magnitude_length_le h
    unfold encodeLength
    split
    · simp
    · exact Nat.succ_le_succ four
  rw [element_length]
  omega

theorem length_lt_element (tag : UInt8) (content : Bytes) :
    content.length < (element tag content).length := by
  rw [element_length]
  omega

theorem read?_element (tag : UInt8) {content : Bytes} (h : content.length ≤ maxLength)
    (rest : Bytes) : read? tag (element tag content ++ rest) = some (content, rest) := by
  simp [read?, element, readLength?_encodeLength h]

theorem readAll?_element {tag : UInt8} {content : Bytes} (h : content.length ≤ maxLength) :
    readAll? tag (element tag content) = some content := by
  have read := read?_element tag h []
  rw [List.append_nil] at read
  simp [readAll?, read]

/-! ## Natural numbers -/

/-- The bytes of a number start with a clear bit, and not for nothing with a zero. -/
theorem naturalContent_spec (n : Nat) :
    ∃ b bs, naturalContent n = b :: bs ∧ n = b.toNat * capacity bs.length + ofBigEndian bs ∧
      b.toNat < 128 ∧ (bs ≠ [] → 128 * capacity (bs.length - 1) ≤ n) := by
  have value := ofBigEndian_magnitude n
  unfold naturalContent
  cases written : magnitude n with
  | nil =>
    rw [magnitude_eq_nil_iff] at written
    subst written
    exact ⟨0, [], rfl, rfl, by decide, nofun⟩
  | cons b bs =>
    obtain ⟨first, least⟩ := bounds_of_magnitude written
    rw [written, ofBigEndian_cons] at value
    dsimp only
    split
    · rename_i small
      refine ⟨b, bs, rfl, value.symm, UInt8.lt_iff_toNat_lt.1 small, ?_⟩
      intro more
      obtain ⟨k, hk⟩ := Nat.exists_eq_succ_of_ne_zero (List.length_pos_iff.2 more).ne'
      calc
        128 * capacity (bs.length - 1) ≤ 256 * capacity (bs.length - 1) :=
          Nat.mul_le_mul_right _ (by decide)
        _ = capacity bs.length := by rw [hk]; rfl
        _ ≤ b.toNat * capacity bs.length := Nat.le_mul_of_pos_left _ first
        _ ≤ n := least
    · rename_i large
      rw [UInt8.lt_iff_toNat_lt, Nat.not_lt] at large
      refine ⟨0, b :: bs, rfl, ?_, by decide, ?_⟩
      · rw [ofBigEndian_cons, value]
        simp
      · intro _
        exact (Nat.mul_le_mul_right _ large).trans least

theorem ofBigEndian_naturalContent (n : Nat) : ofBigEndian (naturalContent n) = n := by
  obtain ⟨b, bs, written, value, -, -⟩ := naturalContent_spec n
  rw [written, ofBigEndian_cons]
  exact value.symm

/-- A number takes a byte for every eight bits, and one in which the sign has room. -/
theorem naturalContent_length (n : Nat) : (naturalContent n).length = Rsa.bits n / 8 + 1 := by
  obtain ⟨b, bs, written, value, small, needed⟩ := naturalContent_spec n
  rw [written, List.length_cons]
  have above : Rsa.bits n ≤ 7 + 8 * bs.length := by
    rw [Rsa.bits_le_iff, pow_add, ← capacity_eq_two_pow]
    have rest := ofBigEndian_lt bs
    have first : (b.toNat + 1) * capacity bs.length ≤ 2 ^ 7 * capacity bs.length :=
      Nat.mul_le_mul_right _ small
    rw [Nat.add_mul] at first
    omega
  rcases Nat.eq_zero_or_pos bs.length with none | more
  · omega
  · have below : 7 + 8 * (bs.length - 1) < Rsa.bits n := by
      rw [Rsa.lt_bits_iff, pow_add, ← capacity_eq_two_pow]
      exact needed (List.length_pos_iff.1 more)
    omega

theorem readNatural?_natural {n : Nat} (h : (naturalContent n).length ≤ maxLength) (rest : Bytes) :
    readNatural? (natural n ++ rest) = some (n, rest) := by
  simp [readNatural?, natural, read?_element _ h, ofBigEndian_naturalContent]

/-! ## How much is read -/

theorem length_of_readLength? {bs rest : Bytes} {n : Nat} (h : readLength? bs = some (n, rest)) :
    rest.length + 1 ≤ bs.length := by
  unfold readLength? at h
  split at h
  · cases h
  · split at h
    · cases h
      rfl
    · simp only at h
      split at h
      · rw [Option.some.injEq, Prod.mk.injEq] at h
        obtain ⟨-, rfl⟩ := h
        rw [List.length_drop, List.length_cons]
        omega
      · cases h

theorem length_of_read? {tag : UInt8} {bs content rest : Bytes}
    (h : read? tag bs = some (content, rest)) : content.length + rest.length + 2 ≤ bs.length := by
  unfold read? at h
  split at h
  · cases h
  · obtain ⟨⟨n, behind⟩, announced, h⟩ := Option.bind_eq_some_iff.1 h
    have shorter := length_of_readLength? announced
    simp only at h
    split at h
    · cases h
      rw [List.length_take, List.length_drop, List.length_cons]
      omega
    · cases h

theorem length_of_readAll? {tag : UInt8} {bs content : Bytes} (h : readAll? tag bs = some content) :
    content.length ≤ bs.length := by
  obtain ⟨⟨content', rest⟩, read, h⟩ := Option.bind_eq_some_iff.1 h
  have shorter := length_of_read? read
  simp only at h
  split at h
  · cases h
    omega
  · cases h

theorem length_of_readNatural? {bs rest : Bytes} {n : Nat} (h : readNatural? bs = some (n, rest)) :
    Rsa.bits n / 8 + 1 + rest.length ≤ bs.length := by
  obtain ⟨⟨content, behind⟩, read, h⟩ := Option.bind_eq_some_iff.1 h
  have shorter := length_of_read? read
  simp only at h
  split at h
  · rename_i canonical
    cases h
    rw [← naturalContent_length, canonical]
    omega
  · cases h

end EncryptedBackup.Der
