/-
What a sound key with prime factors makes of a number that was raised to its public exponent. The
secret exponent, reduced modulo a factor less one, leads back to the number modulo that factor
(`pow_modEq_self`), multiples of the factor included; the results for both factors are put together
(`combine_modEq_p`, `combine_modEq_q`), whichever of them is the larger (`root?_apply`).
-/
import Mathlib.FieldTheory.Finite.Basic
import Mathlib.Tactic.Ring
import EncryptedBackup.Crypto.Rsa

namespace EncryptedBackup

/-! ## Inverses -/

/-- Each remainder stays a multiple of `a`, as far as `m` goes; the last is the greatest divisor. -/
theorem gcdMultiple_spec {a m : Int} (r s : Nat) (x y : Int) (hr : r ≡ x * a [ZMOD m])
    (hs : s ≡ y * a [ZMOD m]) :
    (gcdMultiple r s x y).1 = Nat.gcd s r ∧
      (gcdMultiple r s x y).1 ≡ (gcdMultiple r s x y).2 * a [ZMOD m] := by
  fun_induction gcdMultiple r s x y with
  | case1 r x y => exact ⟨(Nat.gcd_zero_left r).symm, hr⟩
  | case2 r s x y positive ih =>
    have remainder : ((r % s : Nat) : Int) ≡ (x - (r / s : Nat) * y) * a [ZMOD m] := by
      have divided : ((r % s : Nat) : Int) = r - (r / s : Nat) * s := by
        push_cast
        rw [Int.emod_def, mul_comm]
      have product := hs.mul_left ((r / s : Nat) : Int)
      rw [divided, sub_mul, mul_assoc]
      exact hr.sub product
    obtain ⟨divisor, multiple⟩ := ih hs remainder
    refine ⟨?_, multiple⟩
    rw [divisor, ← Nat.gcd_rec]

theorem gcdMultiple_mod (a m : Nat) :
    (gcdMultiple m (a % m) 0 1).1 = Nat.gcd a m ∧
      (gcdMultiple m (a % m) 0 1).1 ≡ (gcdMultiple m (a % m) 0 1).2 * a [ZMOD m] := by
  have whole : (m : Int) ≡ 0 * a [ZMOD m] := by
    rw [zero_mul]
    exact Int.modEq_zero_iff_dvd.2 dvd_rfl
  have part : ((a % m : Nat) : Int) ≡ 1 * a [ZMOD m] := by
    rw [one_mul, Int.natCast_mod]
    exact Int.mod_modEq a m
  obtain ⟨divisor, multiple⟩ := gcdMultiple_spec m (a % m) 0 1 whole part
  refine ⟨?_, multiple⟩
  rw [divisor, ← Nat.gcd_rec, Nat.gcd_comm]

theorem inverseMod?_spec {a m x : Nat} (positive : 0 < m) (h : inverseMod? a m = some x) :
    a * x ≡ 1 [MOD m] ∧ x < m := by
  obtain ⟨-, multiple⟩ := gcdMultiple_mod a m
  unfold inverseMod? at h
  split at h
  · rename_i multiplier found
    rw [found] at multiple
    cases h
    have nonneg : 0 ≤ multiplier % (m : Int) := Int.emod_nonneg _ (by omega)
    have below : multiplier % (m : Int) < m := Int.emod_lt_of_pos _ (by omega)
    refine ⟨?_, by omega⟩
    rw [← Int.natCast_modEq_iff]
    push_cast
    rw [Int.toNat_of_nonneg nonneg, mul_comm]
    exact ((Int.mod_modEq multiplier m).mul_right a).trans multiple.symm
  · cases h

theorem inverseMod?_of_coprime {a m : Nat} (coprime : Nat.Coprime a m) :
    ∃ x, inverseMod? a m = some x := by
  obtain ⟨divisor, -⟩ := gcdMultiple_mod a m
  rw [Nat.Coprime] at coprime
  unfold inverseMod?
  split
  · exact ⟨_, rfl⟩
  · rename_i other
    exact (other _ (Prod.ext (divisor.trans coprime) rfl)).elim

/-! ## Powers -/

/-- An exponent that is 1 modulo a prime less one changes nothing modulo the prime: by Fermat's
theorem, and for multiples of the prime because it is not zero. -/
theorem pow_modEq_self {p t : Nat} (prime : p.Prime) (h : t % (p - 1) = 1) (m : Nat) :
    m ^ t ≡ m [MOD p] := by
  have : Fact p.Prime := ⟨prime⟩
  rw [← ZMod.natCast_eq_natCast_iff, Nat.cast_pow]
  have split : t = (p - 1) * (t / (p - 1)) + 1 := by
    have division := Nat.div_add_mod t (p - 1)
    rw [h] at division
    exact division.symm
  rcases eq_or_ne (m : ZMod p) 0 with zero | unit
  · rw [zero, split, pow_succ, mul_zero]
  · rw [split, pow_succ, pow_mul, ZMod.pow_card_sub_one_eq_one unit, one_pow, one_mul]

namespace Rsa.PrivateKey

variable {k : PrivateKey}

/-! ## Sound keys -/

/-- What the factors and the exponents of a sound key have to do with each other. -/
structure Sound (k : PrivateKey) : Prop where
  one_lt_p : 1 < k.p
  one_lt_q : 1 < k.q
  product : k.p * k.q = k.modulus
  inverse_p : k.secret * k.exponent % (k.p - 1) = 1
  inverse_q : k.secret * k.exponent % (k.q - 1) = 1

theorem Sound.of_isSound (h : k.isSound = true) : k.Sound := by
  simp only [isSound, Bool.and_eq_true, decide_eq_true_eq, beq_iff_eq] at h
  obtain ⟨⟨⟨⟨⟨-, p⟩, q⟩, product⟩, inverse_p⟩, inverse_q⟩ := h
  exact ⟨p, q, product, inverse_p, inverse_q⟩

/-- The inverse of one factor modulo the other, below that. -/
structure IsCoefficient (k : PrivateKey) (coefficient : Nat) : Prop where
  inverse : k.q * coefficient ≡ 1 [MOD k.p]
  below : coefficient < k.p

theorem IsCoefficient.of_coefficient? {coefficient : Nat} (positive : 0 < k.p)
    (h : k.coefficient? = some coefficient) : k.IsCoefficient coefficient := by
  obtain ⟨inverse, below⟩ := inverseMod?_spec positive h
  exact ⟨inverse, below⟩

/-! ## Putting the results for both factors together -/

variable {coefficient x y : Nat}

theorem combine_modEq_q : k.combine coefficient x y ≡ y [MOD k.q] := by
  unfold combine
  exact Nat.ModEq.trans (Nat.ModEq.add_right y (Nat.modEq_zero_iff_dvd.2 (Nat.dvd_mul_left _ _)))
    (by rw [Nat.zero_add])

theorem combine_modEq_p (positive : 0 < k.p) (inverse : k.q * coefficient ≡ 1 [MOD k.p]) :
    k.combine coefficient x y ≡ x [MOD k.p] := by
  have small : y % k.p < k.p := Nat.mod_lt y positive
  calc
    k.combine coefficient x y
      ≡ (x + (k.p - y % k.p)) * coefficient * k.q + y [MOD k.p] :=
        ((Nat.mod_modEq _ _).mul_right _).add_right _
    _ = (x + (k.p - y % k.p)) * (k.q * coefficient) + y := by ring
    _ ≡ (x + (k.p - y % k.p)) * 1 + y % k.p [MOD k.p] :=
        (inverse.mul_left _).add (Nat.mod_modEq y k.p).symm
    _ = x + k.p := by omega
    _ ≡ x [MOD k.p] := Nat.add_modEq_right

theorem combine_lt (positive : 0 < k.p) (below : y < k.q) :
    k.combine coefficient x y < k.p * k.q := by
  have small : (x + (k.p - y % k.p)) * coefficient % k.p + 1 ≤ k.p := Nat.mod_lt _ positive
  have scaled := Nat.mul_le_mul_right k.q small
  rw [Nat.add_mul, one_mul] at scaled
  unfold combine
  omega

/-! ## Roots -/

/-- A factor's share of the secret operation undoes the public one modulo the factor. -/
theorem powMod_modEq {r : Nat} (prime : r.Prime)
    (inverse : k.secret * k.exponent % (r - 1) = 1) (divides : r ∣ k.modulus) (m : Nat) :
    powMod (k.toPublic.apply m) (k.secret % (r - 1)) r ≡ m [MOD r] := by
  have raised : k.toPublic.apply m ≡ m ^ k.exponent [MOD r] := by
    show powMod m k.exponent k.modulus ≡ _ [MOD r]
    rw [powMod_eq]
    exact (Nat.mod_modEq _ _).of_dvd divides
  have exponents : k.exponent * (k.secret % (r - 1)) % (r - 1) = 1 := by
    rw [Nat.mul_mod_mod, mul_comm, inverse]
  rw [powMod_eq]
  calc
    k.toPublic.apply m ^ (k.secret % (r - 1)) % r
      ≡ k.toPublic.apply m ^ (k.secret % (r - 1)) [MOD r] := Nat.mod_modEq _ _
    _ ≡ (m ^ k.exponent) ^ (k.secret % (r - 1)) [MOD r] := raised.pow _
    _ = m ^ (k.exponent * (k.secret % (r - 1))) := (pow_mul _ _ _).symm
    _ ≡ m [MOD r] := pow_modEq_self prime exponents m

variable (sound : k.Sound) (p_prime : k.p.Prime) (q_prime : k.q.Prime) (distinct : k.p ≠ k.q)

include sound p_prime q_prime distinct

theorem apply_apply {m : Nat} (h : m < k.modulus) : k.apply (k.toPublic.apply m) = m := by
  have coprime : Nat.Coprime k.q k.p := (Nat.coprime_primes q_prime p_prime).2 distinct.symm
  obtain ⟨coefficient, found⟩ := inverseMod?_of_coprime coprime
  have inverse := (IsCoefficient.of_coefficient? p_prime.pos found).inverse
  have first := powMod_modEq p_prime sound.inverse_p ⟨k.q, sound.product.symm⟩ m
  have second := powMod_modEq q_prime sound.inverse_q
    ⟨k.p, sound.product.symm.trans (mul_comm _ _)⟩ m
  have reduced : powMod (k.toPublic.apply m) (k.secret % (k.q - 1)) k.q < k.q := by
    rw [powMod_eq]
    exact Nat.mod_lt _ q_prime.pos
  have taken : k.apply (k.toPublic.apply m) = k.combine coefficient
      (powMod (k.toPublic.apply m) (k.secret % (k.p - 1)) k.p)
      (powMod (k.toPublic.apply m) (k.secret % (k.q - 1)) k.q) := by
    unfold apply coefficient?
    rw [found]
  rw [taken]
  -- both are below the modulus, so it is enough that they agree modulo each factor
  refine Nat.ModEq.eq_of_lt_of_lt ?_ (sound.product ▸ combine_lt p_prime.pos reduced) h
  rw [← sound.product, ← Nat.modEq_and_modEq_iff_modEq_mul coprime.symm]
  exact ⟨(combine_modEq_p p_prime.pos inverse).trans first, combine_modEq_q.trans second⟩

/-- The root of a number raised to the public exponent is the number. -/
theorem root?_apply {m : Nat} (h : m < k.modulus) : k.root? (k.toPublic.apply m) = some m := by
  unfold root?
  rw [apply_apply sound p_prime q_prime distinct h]
  exact if_pos rfl

end Rsa.PrivateKey

end EncryptedBackup
