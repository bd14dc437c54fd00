/-
What the checksum notices. The polynomials of two byte strings of one length that differ in four
bytes in a row at most differ by a polynomial of a degree below that of the generator times a power
of the indeterminate; the generator has no factor in common with the indeterminate, so the
remainders differ (`checksum_ne_of_damaged`).
-/
import EncryptedBackup.Proofs.Checksum.Polynomial

namespace EncryptedBackup

open Polynomial

namespace Checksum

/-! ## Polynomials of byte strings -/

theorem message_append (a b : Bytes) :
    message (a ++ b) = message a * X ^ (8 * b.length) + message b := by
  induction a with
  | nil => simp [message]
  | cons c a ih =>
    rw [List.cons_append, message, message, ih, List.length_append]
    ring

theorem degree_message_lt (bs : Bytes) : (message bs).degree < (8 * bs.length : Nat) := by
  refine (degree_lt_iff_coeff_zero _ _).2 fun i high => ?_
  induction bs with
  | nil => simp [message]
  | cons b bs ih =>
    rw [List.length_cons] at high
    have beyond : ¬ i - 8 * bs.length < 8 := by omega
    rw [message, coeff_add, ih (by omega), coeff_mul_X_pow', byte, coeff_binary]
    simp [beyond]

/-- A byte string and its first byte are cut apart by a division. -/
theorem message_divMod (b : UInt8) (bs : Bytes) :
    message (b :: bs) /ₘ X ^ (8 * bs.length) = byte b ∧
      message (b :: bs) %ₘ X ^ (8 * bs.length) = message bs := by
  refine div_modByMonic_unique _ _ (monic_X_pow _) ⟨?_, ?_⟩
  · rw [message]
    ring
  · rw [degree_X_pow]
    exact degree_message_lt bs

/-- Byte strings of one length are told apart by their polynomials. -/
theorem message_inj : ∀ {a b : Bytes}, a.length = b.length → message a = message b → a = b
  | [], [], _, _ => rfl
  | c :: a, d :: b, even, same => by
    have even : a.length = b.length := Nat.succ.inj even
    obtain ⟨first, rest⟩ := message_divMod c a
    obtain ⟨first', rest'⟩ := message_divMod d b
    rw [even, same, first'] at first
    rw [even, same, rest'] at rest
    have byte : d = c := UInt8.toNat_inj.1 (eq_of_binary_eq d.toNat_lt c.toNat_lt first)
    rw [byte, message_inj even rest.symm]

/-! ## The generator -/

theorem isCoprime_generatorPolynomial (n : Nat) : IsCoprime generatorPolynomial (X ^ n) := by
  have odd : ¬ X ∣ generatorPolynomial := by
    rw [X_dvd_iff]
    simp [generatorPolynomial, coeff_X_pow, coeff_one]
  exact ((irreducible_X.coprime_iff_not_dvd).2 odd).symm.pow_right

/-- From one register, strings of four bytes at most lead to registers that stay apart whatever
comes behind. -/
theorem eq_of_remainder_eq {r : UInt32} {u v : Bytes} (even : v.length = u.length)
    (narrow : u.length ≤ 4) (rest : Bytes)
    (same : remainder r (u ++ rest) = remainder r (v ++ rest)) : u = v := by
  have congruent := mk_word_remainder r (u ++ rest)
  rw [same, mk_word_remainder, message_append, message_append, List.length_append,
    List.length_append, even, AdjoinRoot.mk_eq_mk] at congruent
  have divides : generatorPolynomial ∣ (message v - message u) * X ^ (8 * rest.length + 32) := by
    convert congruent using 1
    ring
  have cofactor := (isCoprime_generatorPolynomial _).dvd_of_dvd_mul_right divides
  have short (bs : Bytes) (h : bs.length = u.length) :
      (message bs).degree < generatorPolynomial.degree := by
    rw [degree_generatorPolynomial]
    refine lt_of_lt_of_le (degree_message_lt bs) ?_
    exact_mod_cast (by omega : 8 * bs.length ≤ 32)
  have shorter := lt_of_le_of_lt (degree_sub_le _ _) (max_lt (short v even) (short u rfl))
  have zero := eq_zero_of_dvd_of_degree_lt cofactor shorter
  exact (message_inj even (sub_eq_zero.1 zero)).symm

end Checksum

open Checksum

/-! ## Damage -/

/-- A copy of a byte string is damaged if something is wrong in four bytes in a row, and only
there. -/
structure Damaged (bs copy : Bytes) : Prop where
  length : copy.length = bs.length
  differ : copy ≠ bs
  window : ∃ start, ∀ i, i < start ∨ start + 4 ≤ i → copy[i]? = bs[i]?

/-- What is before the window, in it, and behind it. -/
theorem Damaged.parts {bs copy : Bytes} (h : Damaged bs copy) : ∃ before u v after,
    bs = before ++ (u ++ after) ∧ copy = before ++ (v ++ after) ∧ v.length = u.length ∧
      u.length ≤ 4 ∧ v ≠ u := by
  obtain ⟨start, outside⟩ := h.window
  have before : copy.take start = bs.take start := by
    refine List.ext_getElem? fun i => ?_
    rcases Nat.lt_or_ge i start with inside | beyond
    · rw [List.getElem?_take_of_lt inside, List.getElem?_take_of_lt inside, outside i (.inl inside)]
    · rw [List.getElem?_take_eq_none beyond, List.getElem?_take_eq_none beyond]
  have after : copy.drop (start + 4) = bs.drop (start + 4) := by
    refine List.ext_getElem? fun i => ?_
    rw [List.getElem?_drop, List.getElem?_drop, outside _ (.inr (Nat.le_add_right ..))]
  have cut (l : Bytes) :
      l = l.take start ++ ((l.drop start).take 4 ++ l.drop (start + 4)) := by
    rw [← List.drop_drop, List.take_append_drop, List.take_append_drop]
  refine ⟨bs.take start, (bs.drop start).take 4, (copy.drop start).take 4, bs.drop (start + 4),
    cut bs, ?_, ?_, ?_, ?_⟩
  · rw [← before, ← after]
    exact cut copy
  · simp [h.length]
  · exact List.length_take_le ..
  · intro same
    refine h.differ ?_
    rw [cut copy, same, before, after, ← cut bs]

/-- Damage changes the checksum. -/
theorem checksum_ne_of_damaged {bs copy : Bytes} (h : Damaged bs copy) :
    checksum copy ≠ checksum bs := by
  intro same
  obtain ⟨before, u, v, after, rfl, rfl, even, narrow, differ⟩ := h.parts
  rw [checksum_eq, checksum_eq, UInt32.not_inj, h.length] at same
  simp only [List.append_assoc] at same
  rw [remainder_append 0 before, remainder_append 0 before] at same
  exact differ (eq_of_remainder_eq even.symm (even.symm ▸ narrow) _ same)

end EncryptedBackup
