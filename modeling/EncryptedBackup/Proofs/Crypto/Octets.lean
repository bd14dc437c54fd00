/-
Numbers and their octets. The octets of a number stand for it (`ofBigEndian_magnitude`) and do not
start with a zero (`bounds_of_magnitude`); bytes are the octets, in their own width, of the number they
stand for (`bigEndian_ofBigEndian`). How many there are follows from the number of bits.
-/
import Mathlib.Data.Nat.Log
import Mathlib.Tactic.Ring
import Mathlib.Tactic.NormNum
import EncryptedBackup.Bytes
import EncryptedBackup.Crypto.Rsa

namespace EncryptedBackup

/-! ## Widths -/

theorem capacity_eq (width : Nat) : capacity width = 256 ^ width := by
  induction width with
  | zero => rfl
  | succ n ih => rw [capacity, ih, pow_succ']

theorem capacity_lt_iff {v w : Nat} : capacity v < capacity w ↔ v < w := by
  rw [capacity_eq, capacity_eq]
  exact Nat.pow_lt_pow_iff_right (by decide)

/-! ## Bytes as numbers -/

theorem littleEndian_ofLittleEndian (bs : Bytes) :
    littleEndian bs.length (ofLittleEndian bs) = bs := by
  induction bs with
  | nil => rfl
  | cons b bs ih =>
    have small := b.toNat_lt
    have low : UInt8.ofNat (b.toNat + 256 * ofLittleEndian bs) = b := by
      rw [← UInt8.toNat_inj, UInt8.toNat_ofNat']
      omega
    have high : (b.toNat + 256 * ofLittleEndian bs) / 256 = ofLittleEndian bs := by omega
    rw [ofLittleEndian_cons, List.length_cons, littleEndian, low, high, ih]

/-- Bytes are the octets of the number that they stand for. -/
theorem bigEndian_ofBigEndian (bs : Bytes) : bigEndian bs.length (ofBigEndian bs) = bs := by
  have backwards := littleEndian_ofLittleEndian bs.reverse
  rw [← ofBigEndian_reverse, List.reverse_reverse, List.length_reverse] at backwards
  rw [bigEndian, backwards, List.reverse_reverse]

theorem ofBigEndian_lt (bs : Bytes) : ofBigEndian bs < capacity bs.length := by
  have bound := ofLittleEndian_lt bs.reverse
  rwa [← ofBigEndian_reverse, List.reverse_reverse, List.length_reverse] at bound

theorem ofLittleEndian_append (as bs : Bytes) :
    ofLittleEndian (as ++ bs) = ofLittleEndian as + capacity as.length * ofLittleEndian bs := by
  induction as with
  | nil => simp [ofLittleEndian, capacity]
  | cons a as ih =>
    rw [List.cons_append, ofLittleEndian_cons, ih, ofLittleEndian_cons, List.length_cons, capacity]
    ring

theorem ofBigEndian_cons (b : UInt8) (bs : Bytes) :
    ofBigEndian (b :: bs) = b.toNat * capacity bs.length + ofBigEndian bs := by
  have backwards := ofLittleEndian_append bs.reverse [b]
  rw [← List.reverse_cons, ← ofBigEndian_reverse, ← ofBigEndian_reverse, List.reverse_reverse,
    List.reverse_reverse, List.length_reverse] at backwards
  rw [backwards]
  simp [ofLittleEndian]
  ring

/-! ## The octets of a number -/

theorem ofLittleEndian_octets (n : Nat) : ofLittleEndian (octets n) = n := by
  induction n using Nat.strongRecOn with
  | ind n ih =>
    rw [octets]
    split
    · simp [ofLittleEndian, *]
    · rw [ofLittleEndian_cons, ih (n / 256) (by omega), UInt8.toNat_ofNat']
      omega

theorem ofBigEndian_magnitude (n : Nat) : ofBigEndian (magnitude n) = n := by
  rw [magnitude, ofBigEndian_reverse, ofLittleEndian_octets]

theorem getLast?_octets (n : Nat) : (octets n).getLast? ≠ some 0 := by
  induction n using Nat.strongRecOn with
  | ind n ih =>
    rw [octets]
    split
    · simp
    · rename_i positive
      rcases Nat.eq_zero_or_pos (n / 256) with small | large
      · rw [small, octets, if_pos rfl]
        have low : (UInt8.ofNat n).toNat = n := by
          rw [UInt8.toNat_ofNat']
          omega
        simp only [List.getLast?_singleton, Option.some.injEq, ne_eq]
        intro zero
        rw [zero] at low
        exact positive low.symm
      · have some : octets (n / 256) ≠ [] := by
          rw [octets, if_neg (by omega)]
          simp
        rw [List.getLast?_cons_of_ne_nil some]
        exact ih (n / 256) (by omega)

theorem magnitude_eq_nil_iff {n : Nat} : magnitude n = [] ↔ n = 0 := by
  rw [magnitude, List.reverse_eq_nil_iff, octets]
  split <;> simp_all

/-- The first octet of a number is not zero, and the number is at least as large as it tells. -/
theorem bounds_of_magnitude {n : Nat} {b : UInt8} {bs : Bytes} (h : magnitude n = b :: bs) :
    0 < b.toNat ∧ b.toNat * capacity bs.length ≤ n := by
  have value := ofBigEndian_magnitude n
  rw [h, ofBigEndian_cons] at value
  refine ⟨UInt8.lt_iff_toNat_lt.1 (UInt8.pos_iff_ne_zero.2 ?_), by omega⟩
  rintro rfl
  apply getLast?_octets n
  rw [← List.head?_reverse]
  show (magnitude n).head? = _
  rw [h]
  rfl

theorem capacity_le_of_magnitude {n : Nat} {b : UInt8} {bs : Bytes} (h : magnitude n = b :: bs) :
    capacity bs.length ≤ n := by
  obtain ⟨first, least⟩ := bounds_of_magnitude h
  exact (Nat.le_mul_of_pos_left _ first).trans least

/-! ## Bits -/

namespace Rsa

theorem bits_le_iff {n k : Nat} : bits n ≤ k ↔ n < 2 ^ k := by
  unfold bits
  split
  · simp [*]
  · rw [Nat.succ_le_iff, Nat.log2_lt ‹_›]

theorem lt_bits_iff {n k : Nat} : k < bits n ↔ 2 ^ k ≤ n := by
  rw [← Nat.not_le, bits_le_iff, Nat.not_lt]

theorem bits_mono {m n : Nat} (h : m ≤ n) : bits m ≤ bits n :=
  bits_le_iff.2 (h.trans_lt (bits_le_iff.1 le_rfl))

/-- A product has all the bits of its factors, or one less. -/
theorem bits_add_le {m n : Nat} (hm : 0 < m) (hn : 0 < n) : bits m + bits n ≤ bits (m * n) + 1 := by
  have first : 0 < bits m := lt_bits_iff.2 hm
  have second : 0 < bits n := lt_bits_iff.2 hn
  have m_large : 2 ^ (bits m - 1) ≤ m := lt_bits_iff.1 (by omega)
  have n_large : 2 ^ (bits n - 1) ≤ n := lt_bits_iff.1 (by omega)
  have product : 2 ^ (bits m - 1 + (bits n - 1)) ≤ m * n := by
    rw [pow_add]
    exact Nat.mul_le_mul m_large n_large
  rw [← lt_bits_iff] at product
  omega

end Rsa

theorem capacity_eq_two_pow (width : Nat) : capacity width = 2 ^ (8 * width) := by
  rw [capacity_eq, pow_mul]
  norm_num

end EncryptedBackup
