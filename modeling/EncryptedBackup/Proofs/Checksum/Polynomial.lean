/-
The checksum as arithmetic of polynomials over the field of two elements. Registers and bytes are
polynomials, a bit multiplies by the indeterminate modulo the generator (`mk_word_shift`), a byte by
its eighth power, and so the register after a byte string is the remainder of its polynomial
(`word_remainder`). The checksum is the complement of that remainder, of the bytes with the octets
of their number behind them (`checksum_eq_compl_iff`).
-/
import EncryptedBackup.Checksum
import Mathlib.Algebra.Field.ZMod
import Mathlib.Algebra.CharP.Two
import Mathlib.Algebra.Polynomial.Div
import Mathlib.Data.Nat.Bitwise
import Mathlib.Data.Nat.Digits.Defs
import Mathlib.RingTheory.AdjoinRoot
import Mathlib.Tactic.Ring

namespace EncryptedBackup

open Polynomial

/-! ## Numbers as polynomials -/

/-- The polynomial over the field of two elements whose coefficients are the `width` low bits of a
number. -/
noncomputable def binary (width v : Nat) : (ZMod 2)[X] :=
  ∑ i ∈ Finset.range width, if v.testBit i then X ^ i else 0

theorem coeff_binary (width v i : Nat) :
    (binary width v).coeff i = if i < width ∧ v.testBit i then 1 else 0 := by
  have term (j : Nat) : (if v.testBit j then X ^ j else 0 : (ZMod 2)[X]).coeff i =
      if i = j then (if v.testBit j then 1 else 0) else 0 := by
    split <;> simp [coeff_X_pow]
  unfold binary
  rw [finsetSum_coeff, Finset.sum_congr rfl fun j _ => term j, Finset.sum_ite_eq]
  by_cases inside : i < width <;> simp [inside]

theorem degree_binary_lt (width v : Nat) : (binary width v).degree < width := by
  refine (degree_lt_iff_coeff_zero _ _).2 fun i beyond => ?_
  rw [coeff_binary, if_neg (by omega)]

theorem binary_xor (width a b : Nat) :
    binary width (a ^^^ b) = binary width a + binary width b := by
  ext i
  rw [coeff_add, coeff_binary, coeff_binary, coeff_binary, Nat.testBit_xor]
  by_cases inside : i < width
  · cases a.testBit i <;> cases b.testBit i <;> simp [inside]
    decide
  · simp [inside]

/-- Numbers of so many bits are told apart by their polynomials. -/
theorem eq_of_binary_eq {width a b : Nat} (ha : a < 2 ^ width) (hb : b < 2 ^ width)
    (same : binary width a = binary width b) : a = b := by
  refine Nat.eq_of_testBit_eq fun i => ?_
  by_cases inside : i < width
  · have bit := congrArg (coeff · i) same
    simp only [coeff_binary, inside, true_and] at bit
    cases ha : a.testBit i <;> cases hb : b.testBit i <;> simp_all
  · have high := Nat.pow_le_pow_right (show 2 > 0 by decide) (Nat.not_lt.1 inside)
    rw [Nat.testBit_lt_two_pow (by omega), Nat.testBit_lt_two_pow (by omega)]

/-- Moved up by some places, a number of few bits becomes a multiple of a power of the
indeterminate. -/
theorem binary_shiftLeft {width low v n : Nat} (room : low + n ≤ width) (small : v < 2 ^ low) :
    binary width (v <<< n) = binary low v * X ^ n := by
  ext i
  rw [coeff_mul_X_pow', coeff_binary, coeff_binary, Nat.testBit_shiftLeft]
  rcases Nat.lt_or_ge i n with below | above
  · simp [Nat.not_le.2 below]
  · simp only [above, decide_true, Bool.true_and, if_true]
    rcases Nat.lt_or_ge (i - n) low with inside | beyond
    · have inside' : i < width := by omega
      simp [inside, inside']
    · have high := Nat.pow_le_pow_right (show 2 > 0 by decide) beyond
      rw [Nat.testBit_lt_two_pow (by omega)]
      simp

namespace Checksum

/-! ## Registers and the generator -/

/-- The generator in full. -/
noncomputable def generatorPolynomial : (ZMod 2)[X] :=
  X ^ 32 + X ^ 26 + X ^ 23 + X ^ 22 + X ^ 16 + X ^ 12 + X ^ 11 + X ^ 10 + X ^ 8 + X ^ 7 + X ^ 5 +
    X ^ 4 + X ^ 2 + X + 1

/-- A register as a polynomial. -/
noncomputable def word (r : UInt32) : (ZMod 2)[X] := binary 32 r.toNat

/-- A byte as a polynomial, its most significant bit first. -/
noncomputable def byte (b : UInt8) : (ZMod 2)[X] := binary 8 b.toNat

theorem word_inj {a b : UInt32} : word a = word b ↔ a = b := by
  refine ⟨fun same => ?_, fun same => same ▸ rfl⟩
  exact UInt32.toNat_inj.1 (eq_of_binary_eq a.toNat_lt b.toNat_lt same)

theorem generatorPolynomial_eq : generatorPolynomial = X ^ 32 + word generator := by
  have bits : word generator = 1 + X + X ^ 2 + X ^ 4 + X ^ 5 + X ^ 7 + X ^ 8 + X ^ 10 + X ^ 11 +
      X ^ 12 + X ^ 16 + X ^ 22 + X ^ 23 + X ^ 26 := by
    unfold word binary generator
    simp [Finset.sum_range_succ, Nat.testBit]
  unfold generatorPolynomial
  rw [bits]
  ring

theorem monic_generatorPolynomial : generatorPolynomial.Monic := by
  rw [generatorPolynomial_eq]
  exact monic_X_pow_add (degree_binary_lt ..)

theorem degree_generatorPolynomial : generatorPolynomial.degree = 32 := by
  rw [generatorPolynomial_eq]
  rw [degree_add_eq_left_of_degree_lt, degree_X_pow]
  · rfl
  · rw [degree_X_pow]
    exact degree_binary_lt ..

/-! ## One bit and one byte -/

theorem word_xor (a b : UInt32) : word (a ^^^ b) = word a + word b := by
  unfold word
  rw [UInt32.toNat_xor, binary_xor]

/-- Moved up by one place, a register loses its first bit. -/
theorem word_shiftLeft_one (r : UInt32) :
    word (r <<< 1) + (if r.toNat.testBit 31 then X ^ 32 else 0) = X * word r := by
  unfold word
  ext i
  have moved : (r <<< 1).toNat = (r.toNat <<< 1) % 2 ^ 32 := UInt32.toNat_shiftLeft r 1
  have top : (if r.toNat.testBit 31 then X ^ 32 else 0 : (ZMod 2)[X]).coeff i =
      if i = 32 ∧ r.toNat.testBit 31 then 1 else 0 := by
    split <;> simp [coeff_X_pow, *]
  rw [coeff_add, top, coeff_binary, moved, Nat.testBit_mod_two_pow, Nat.testBit_shiftLeft]
  cases i with
  | zero => simp
  | succ i =>
    rw [coeff_X_mul, coeff_binary]
    rcases Nat.lt_trichotomy i 31 with below | rfl | above
    · have inside : i + 1 < 32 ∧ i < 32 ∧ i + 1 ≠ 32 := by omega
      simp [inside]
    · simp
    · have outside : ¬ i + 1 < 32 ∧ ¬ i < 32 ∧ i + 1 ≠ 32 := by omega
      simp [outside]

theorem and_high_eq_zero_iff (r : UInt32) : r &&& 0x80000000 = 0 ↔ r.toNat.testBit 31 = false := by
  rw [← UInt32.toNat_inj, UInt32.toNat_and]
  show r.toNat &&& 2 ^ 31 = 0 ↔ _
  rw [Nat.and_two_pow]
  cases r.toNat.testBit 31 <;> simp

/-- A register is multiplied by the indeterminate, modulo the generator. -/
theorem mk_word_shift (r : UInt32) :
    AdjoinRoot.mk generatorPolynomial (word (shift r)) =
      AdjoinRoot.mk generatorPolynomial (X * word r) := by
  rw [← word_shiftLeft_one]
  unfold shift
  by_cases top : r.toNat.testBit 31
  · rw [if_neg (by rw [and_high_eq_zero_iff, top]; simp), if_pos top, word_xor, AdjoinRoot.mk_eq_mk]
    refine ⟨1, ?_⟩
    rw [generatorPolynomial_eq, add_sub_add_left_eq_sub, CharTwo.sub_eq_add]
    ring
  · rw [if_pos (by rw [and_high_eq_zero_iff]; simpa using top), if_neg top, add_zero]

theorem word_octet (b : UInt8) : word (b.toUInt32 <<< 24) = byte b * X ^ 24 := by
  have small : b.toNat < 2 ^ 8 := b.toNat_lt
  have whole : (b.toUInt32 <<< 24).toNat = b.toNat <<< 24 := by
    have moved : (b.toUInt32 <<< 24).toNat = (b.toNat <<< 24) % 2 ^ 32 := UInt32.toNat_shiftLeft _ 24
    rw [moved, Nat.mod_eq_of_lt]
    rw [Nat.shiftLeft_eq]
    omega
  unfold word byte
  rw [whole, binary_shiftLeft (by decide) small]

theorem mk_word_step (r : UInt32) (b : UInt8) :
    AdjoinRoot.mk generatorPolynomial (word (step r b)) =
      AdjoinRoot.mk generatorPolynomial (word r * X ^ 8 + byte b * X ^ 32) := by
  unfold step
  simp only [mk_word_shift, map_mul, map_add, map_pow, word_xor, word_octet]
  ring

/-! ## Byte strings -/

/-- A byte string as a polynomial: its bits, most significant first, are the coefficients. -/
noncomputable def message : Bytes → (ZMod 2)[X]
  | [] => 0
  | b :: bs => byte b * X ^ (8 * bs.length) + message bs

theorem mk_word_remainder (r : UInt32) (bs : Bytes) :
    AdjoinRoot.mk generatorPolynomial (word (remainder r bs)) =
      AdjoinRoot.mk generatorPolynomial (word r * X ^ (8 * bs.length) + message bs * X ^ 32) := by
  induction bs generalizing r with
  | nil => simp [remainder, message]
  | cons b bs ih =>
    have rest : remainder r (b :: bs) = remainder (step r b) bs := rfl
    rw [rest, ih, map_add, map_mul, mk_word_step, message, List.length_cons]
    simp only [map_add, map_mul, map_pow]
    ring

/-- The register after a byte string is a remainder. -/
theorem word_remainder (bs : Bytes) :
    word (remainder 0 bs) = message bs * X ^ 32 %ₘ generatorPolynomial := by
  have short : (word (remainder 0 bs)).degree < generatorPolynomial.degree := by
    rw [degree_generatorPolynomial]
    exact degree_binary_lt ..
  have zero : word 0 = 0 := by simp [word, binary]
  have congruent := mk_word_remainder 0 bs
  rw [zero, zero_mul, zero_add, AdjoinRoot.mk_eq_mk] at congruent
  rw [← (modByMonic_eq_self_iff monic_generatorPolynomial).2 short]
  exact modByMonic_eq_of_dvd_sub monic_generatorPolynomial congruent

end Checksum

/-! ## The checksum -/

open Checksum

theorem octets_eq_digits (n : Nat) : octets n = (Nat.digits 256 n).map UInt8.ofNat := by
  induction n using Nat.strongRecOn with
  | _ n ih =>
    unfold octets
    rcases Nat.eq_zero_or_pos n with rfl | positive
    · simp
    · rw [if_neg (by omega), Nat.digits_def' (by decide) positive, List.map_cons,
        ih _ (Nat.div_lt_self positive (by decide))]
      exact congrArg (· :: _) UInt8.ofNat_mod_size.symm

theorem checksum_eq (bs : Bytes) : checksum bs = ~~~ remainder 0 (bs ++ octets bs.length) := by
  unfold checksum Digest.value Digest.feed
  rw [remainder_append]
  simp

/-- The checksum is the complement of exactly one register: the remainder of the byte string, with the
octets of its length behind it, moved up by 32 places and divided by the generator. -/
theorem checksum_eq_compl_iff (bs : Bytes) (r : UInt32) :
    checksum bs = ~~~ r ↔
      word r = message (bs ++ (Nat.digits 256 bs.length).map UInt8.ofNat) * X ^ 32 %ₘ
        generatorPolynomial := by
  rw [checksum_eq, UInt32.not_inj, ← octets_eq_digits, ← word_remainder, word_inj]
  exact eq_comm

/-- The check value of the algorithm. -/
example : checksum [0x31, 0x32, 0x33, 0x34, 0x35, 0x36, 0x37, 0x38, 0x39] = 930766865 := by
  decide +kernel

end EncryptedBackup
