/-
The field of 256 elements: doubling and multiplying are linear, the elements other than zero are
the powers of 3, and so the inverse of the inverse is the element itself (`inverse_inverse`).
-/
import EncryptedBackup.Bytes
import EncryptedBackup.Crypto.Field256

namespace EncryptedBackup.Field256

/-! ## Doubling and multiplying are linear -/

theorem and_xor (a b c : UInt8) : (a ^^^ b) &&& c = (a &&& c) ^^^ (b &&& c) := by
  rw [← UInt8.toBitVec_inj]
  simp only [UInt8.toBitVec_and, UInt8.toBitVec_xor]
  ext i
  simp [Bool.and_xor_distrib_right]

theorem and_high : ∀ a : UInt8, a &&& 0x80 = 0 ∨ a &&& 0x80 = 0x80 :=
  forall_byte (by decide +kernel)

theorem xor_left_self (a b : UInt8) : a ^^^ (a ^^^ b) = b := by
  rw [← UInt8.xor_assoc, UInt8.xor_self, UInt8.zero_xor]

theorem xor_left_comm (a b c : UInt8) : a ^^^ (b ^^^ c) = b ^^^ (a ^^^ c) := by
  rw [← UInt8.xor_assoc, UInt8.xor_comm a b, UInt8.xor_assoc]

theorem double_xor (a b : UInt8) : double (a ^^^ b) = double a ^^^ double b := by
  unfold double
  rw [and_xor, UInt8.shiftLeft_xor]
  rcases and_high a with ha | ha <;> rcases and_high b with hb | hb
  · simp [ha, hb]
  · simp [ha, hb, UInt8.xor_assoc]
  · simp [ha, hb, UInt8.xor_assoc, UInt8.xor_comm, xor_left_comm]
  · simp [ha, hb, UInt8.xor_comm, xor_left_comm]

theorem mulBits_xor : ∀ (n : Nat) (a b c : UInt8),
    mulBits n (a ^^^ b) c = mulBits n a c ^^^ mulBits n b c
  | 0, a, b, c => by simp [mulBits]
  | n + 1, a, b, c => by
    unfold mulBits
    rw [double_xor, mulBits_xor n]
    split
    · simp
    · simp only [UInt8.xor_assoc, xor_left_comm]

theorem mulBits_double : ∀ (n : Nat) (a b : UInt8), mulBits n (double a) b = double (mulBits n a b)
  | 0, a, b => by simp [mulBits, double]
  | n + 1, a, b => by
    unfold mulBits
    rw [double_xor, mulBits_double n]
    split
    · simp [double]
    · rfl

theorem mul_xor (a b c : UInt8) : mul (a ^^^ b) c = mul a c ^^^ mul b c := mulBits_xor 8 a b c

theorem mul_double (a b : UInt8) : mul (double a) b = double (mul a b) := mulBits_double 8 a b

/-! ## The powers of 3 -/

/-- Multiply by the indeterminate and one, the polynomial with the number 3. -/
def triple (a : UInt8) : UInt8 := a ^^^ double a

/-- The powers of 3. -/
def power : Nat → UInt8
  | 0 => 1
  | n + 1 => triple (power n)

theorem mul_triple (a b : UInt8) : mul (triple a) b = triple (mul a b) := by
  unfold triple
  rw [mul_xor, mul_double]

theorem one_mul : ∀ b, mul 1 b = b := forall_byte (by decide +kernel)

theorem mul_power : ∀ i j, mul (power i) (power j) = power (i + j)
  | 0, j => by rw [power, one_mul, Nat.zero_add]
  | i + 1, j => by rw [power, mul_triple, mul_power i j, Nat.succ_add, power]

theorem power_add_255 : ∀ i, power (i + 255) = power i
  | 0 => by decide +kernel
  | i + 1 => by rw [Nat.succ_add, power, power_add_255 i, power]

theorem power_add_mul (i : Nat) : ∀ k, power (i + 255 * k) = power i
  | 0 => rfl
  | k + 1 => by rw [Nat.mul_succ, ← Nat.add_assoc, power_add_255, power_add_mul i k]

theorem inverse_power (i : Nat) : inverse (power i) = power (254 * i) := by
  unfold inverse
  simp only [mul_power]
  congr 1
  omega

/-- `triple` on the numbers of elements. -/
def tripleNat (a : Nat) : Nat := a ^^^ (if a < 0x80 then 2 * a else (2 * a) ^^^ 0x11B)

theorem toNat_triple : ∀ a, (triple a).toNat = tripleNat a.toNat := forall_byte (by decide +kernel)

/-- The numbers of so many powers of 3, the first of them being `a`. -/
def powersFrom (a : Nat) : (count : Nat) → List Nat
  | 0 => []
  | n + 1 => a :: powersFrom (tripleNat a) n

theorem exists_power_of_mem : ∀ (count i n : Nat), n ∈ powersFrom (power i).toNat count →
    ∃ j, (power j).toNat = n
  | count + 1, i, n, h => by
    rw [powersFrom, List.mem_cons, ← toNat_triple] at h
    rcases h with rfl | h
    · exact ⟨i, rfl⟩
    · exact exists_power_of_mem count (i + 1) n h

/-- The number whose bits say which numbers are in a list. -/
def mask : List Nat → Nat
  | [] => 0
  | a :: l => 1 <<< a ||| mask l

theorem mem_of_testBit_mask : ∀ (l : List Nat) (n : Nat), (mask l).testBit n = true → n ∈ l
  | [], n, h => by simp [mask] at h
  | a :: l, n, h => by
    rw [mask, Nat.testBit_or, Bool.or_eq_true, Nat.one_shiftLeft, Nat.testBit_two_pow,
      decide_eq_true_iff] at h
    rcases h with rfl | h
    · exact List.mem_cons_self
    · exact List.mem_cons_of_mem _ (mem_of_testBit_mask l n h)

/-- Every element but zero is a power of 3. -/
theorem exists_power {a : UInt8} (h : a ≠ 0) : ∃ i, a = power i := by
  -- one number holds the whole table of powers, so that looking up an element is one bit test
  have all : ∀ n : Fin 256, n.val = 0 ∨ (mask (powersFrom 1 255)).testBit n.val = true := by
    decide +kernel
  rcases all ⟨a.toNat, a.toNat_lt⟩ with h0 | hp
  · exact absurd (UInt8.toNat_inj.1 h0) h
  · obtain ⟨i, hi⟩ := exists_power_of_mem 255 0 _ (mem_of_testBit_mask _ _ hp)
    exact ⟨i, (UInt8.toNat_inj.1 hi).symm⟩

/-- The inverse of the inverse is the element itself. -/
theorem inverse_inverse (a : UInt8) : inverse (inverse a) = a := by
  by_cases h : a = 0
  · subst h
    decide +kernel
  · obtain ⟨i, rfl⟩ := exists_power h
    -- 254 * 254 is one more than a multiple of 255, the order of the group
    rw [inverse_power, inverse_power, show 254 * (254 * i) = i + 255 * (253 * i) by omega,
      power_add_mul]

end EncryptedBackup.Field256
