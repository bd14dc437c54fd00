/-
Session keys on their way to a client. What is encrypted to the public half of a loaded key, under any
seed, is unwrapped as it was, and what is no ciphertext of the key is refused (`unwraps_encrypted`).
-/
import Mathlib.NumberTheory.LucasPrimality
import Mathlib.Tactic.NormNum.Prime
import EncryptedBackup.Proofs.Crypto.Oaep
import EncryptedBackup.Proofs.Keyring.Saving

namespace EncryptedBackup

namespace RsaKeyring

variable {r r₀ : RsaKeyring} {key : Rsa.PrivateKey} {text : String} {c : Bytes}

theorem unwrap_of_malformed (held : r.key = some key)
    (refused : Oaep.decrypt key c = .error .malformed) :
    r.unwrap c = .error (.keys .undecryptable) := by
  unfold unwrap
  simp only [held, refused]

/-- With a loaded key whose factors are distinct primes, and whose modulus takes `key.length` bytes, a
message of up to 42 bytes less has a ciphertext under every seed of twenty bytes, and is unwrapped from
it. Bytes of another length or above the modulus are refused. -/
theorem unwraps_encrypted (accepted : r₀.load text = .ok r) (held : r.key = some key)
    (p_prime : key.p.Prime) (q_prime : key.q.Prime) (distinct : key.p ≠ key.q) :
    key.modulus < capacity key.length ∧ (∀ width < key.length, capacity width ≤ key.modulus) ∧
    (∀ seed message : Bytes, seed.length = 20 → message.length + 42 ≤ key.length →
      ∃ c, Oaep.encrypt? key.toPublic seed message = some c ∧ c.length = key.length ∧
        r.unwrap c = .ok message) ∧
    ∀ c : Bytes, c.length ≠ key.length ∨ key.modulus ≤ ofBigEndian c →
      r.unwrap c = .error (.keys .undecryptable) := by
  have sound := Rsa.PrivateKey.Sound.of_isSound (of_load accepted held).1
  refine ⟨key.modulus_lt_capacity, fun _ => key.capacity_le_modulus, ?_, ?_⟩
  · intro seed message seeded fits
    obtain ⟨c, encrypted, length, decrypted⟩ :=
      Oaep.decrypt_encrypt? seeded fits sound p_prime q_prime distinct
    exact ⟨c, encrypted, length, unwrap_of_decrypt held decrypted⟩
  · intro c foreign
    exact unwrap_of_malformed held (Oaep.decrypt_malformed foreign)

end RsaKeyring

/-! ## A key of two primes -/

namespace Rsa

/-- Lucas's test, for a number that is one more than a prime times a power of two. -/
theorem prime_of_powMod {m r n a : Nat} (r_prime : r.Prime) (form : m = r * 2 ^ n + 1)
    (full : powMod a (m - 1) m = 1) (half : powMod a ((m - 1) / 2) m ≠ 1)
    (part : powMod a ((m - 1) / r) m ≠ 1) : m.Prime := by
  have large : m ≠ 1 := by
    have positive := Nat.mul_pos r_prime.pos (Nat.two_pow_pos n)
    omega
  have power (t : Nat) : (a : ZMod m) ^ t = 1 ↔ powMod a t m = 1 := by
    rw [powMod_eq, ← Nat.cast_pow, ← Nat.cast_one, ZMod.natCast_eq_natCast_iff',
      Nat.one_mod_eq_one.2 large, Nat.pow_eq]
  apply lucas_primality m (a : ZMod m) ((power _).2 full)
  intro s s_prime divides
  rw [ne_eq, power]
  rw [form, Nat.add_sub_cancel] at divides
  rcases s_prime.dvd_mul.1 divides with first | second
  · rw [(Nat.prime_dvd_prime_iff_eq s_prime r_prime).1 first]
    exact part
  · rw [(Nat.prime_dvd_prime_iff_eq s_prime Nat.prime_two).1 (s_prime.dvd_of_dvd_pow second)]
    exact half

theorem primeKey_primes : primeKey.p.Prime ∧ primeKey.q.Prime := by
  obtain ⟨p, q, -⟩ := primeKey_spec
  have first : Nat.Prime 12619 := by norm_num
  have second : Nat.Prime 7877 := by norm_num
  have powers :
      (powMod 3 (primeKey.p - 1) primeKey.p = 1 ∧
        powMod 3 ((primeKey.p - 1) / 2) primeKey.p ≠ 1 ∧
        powMod 3 ((primeKey.p - 1) / 12619) primeKey.p ≠ 1) ∧
      powMod 3 (primeKey.q - 1) primeKey.q = 1 ∧
        powMod 3 ((primeKey.q - 1) / 2) primeKey.q ≠ 1 ∧
        powMod 3 ((primeKey.q - 1) / 7877) primeKey.q ≠ 1 := by decide +kernel
  obtain ⟨⟨full, half, part⟩, full', half', part'⟩ := powers
  exact ⟨prime_of_powMod first p full half part, prime_of_powMod second q full' half' part'⟩

end Rsa

/-- A session key that starts with the byte that ends the filling arrives. -/
theorem RsaKeyring.unwraps_encrypted_primeKey :
    ∃ c, Oaep.encrypt? Rsa.primeKey.toPublic (List.replicate 20 5) (List.replicate 16 1) = some c ∧
      RsaKeyring.unwrap { key := some Rsa.primeKey, source := { seed := [] } } c =
        .ok (List.replicate 16 1) := by
  obtain ⟨-, -, larger, secret, size, -, accepted⟩ := Rsa.primeKey_spec
  obtain ⟨p_prime, q_prime⟩ := Rsa.primeKey_primes
  have sound := Rsa.PrivateKey.Sound.of_isSound accepted
  have own := Rsa.PrivateKey.ownLength_le_of_made Rsa.primeKey_made sound secret
  have room : 2 * 645 + 100 ≤ Der.maxLength := by decide
  -- the coefficient is written as zero, which no one looks at
  have fits : (Rsa.primeKey.written 0).length ≤ Der.maxLength :=
    Rsa.PrivateKey.written_fits_of_own sound p_prime.pos (by omega)
  have loaded := load_encode { source := { seed := [] } }
    (Rsa.PrivateKey.decode?_written accepted fits)
  obtain ⟨-, -, arrives, -⟩ := unwraps_encrypted loaded rfl p_prime q_prime larger.ne
  have length : Rsa.primeKey.length = 128 := by
    show (Rsa.bits Rsa.primeKey.modulus + 7) / 8 = 128
    rw [size]
  have short : (List.replicate 16 (1 : UInt8)).length + 42 ≤ Rsa.primeKey.length := by
    rw [length]
    decide
  obtain ⟨c, encrypted, -, unwrapped⟩ := arrives _ _ List.length_replicate short
  exact ⟨c, encrypted, unwrapped⟩

end EncryptedBackup
