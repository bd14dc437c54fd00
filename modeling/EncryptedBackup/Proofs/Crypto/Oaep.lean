/-
Padding for RSA. The two masks come off in the reverse order (`unpad?_masked`), and behind the zeros
the first byte that is none ends the filling, whatever the message starts with (`unpad?_padded`). A
padded form starts with a zero, so its number is below every modulus of its length (`padded_lt`), and
what is found in the ciphertext of a message is the message (`decrypt_encrypt?`).
-/
import EncryptedBackup.Crypto.Oaep
import EncryptedBackup.Proofs.Crypto.Octets
import EncryptedBackup.Proofs.Crypto.Rsa.Roots

namespace EncryptedBackup

/-! ## Masks -/

namespace Bytes

theorem xor_length {a b : Bytes} (h : a.length ≤ b.length) : (xor a b).length = a.length := by
  rw [xor, List.length_zipWith, Nat.min_eq_left h]

theorem xor_xor_cancel {a b : Bytes} (h : a.length ≤ b.length) : xor (xor a b) b = a := by
  induction a generalizing b with
  | nil => rfl
  | cons x xs ih =>
    cases b with
    | nil => cases h
    | cons y ys =>
      have head : x ^^^ y ^^^ y = x := by rw [UInt8.xor_assoc, UInt8.xor_self, UInt8.xor_zero]
      have tail : xor (xor xs ys) ys = xs := ih (Nat.le_of_succ_le_succ h)
      show (x ^^^ y ^^^ y) :: xor (xor xs ys) ys = x :: xs
      rw [head, tail]

end Bytes

namespace Oaep

@[simp] theorem mask_length (seed : Bytes) (length : Nat) : (mask seed length).length = length := by
  have hashes (n : Nat) : ((List.range n).flatMap fun i =>
      Sha1.hash (seed ++ bigEndian 4 i)).length = n * Sha1.length := by
    simp [List.length_flatMap, Sha1.hash_length]
  unfold mask
  simp only [List.length_take, hashes]
  rw [Sha1.length]
  omega

/-! ## Padding -/

/-- What the seed masks: the hash of the label, zeros, a one, and the message. -/
def block (zeros : Nat) (message : Bytes) : Bytes :=
  labelHash ++ (List.replicate zeros 0 ++ 1 :: message)

/-- Seed and block, each under a mask that the other gives. -/
def masked (seed block : Bytes) : Bytes :=
  let maskedBlock := Bytes.xor block (mask seed block.length)
  Bytes.xor seed (mask maskedBlock Sha1.length) ++ maskedBlock

/-- The padded form of a message that fits. -/
def padded (length : Nat) (seed message : Bytes) : Bytes :=
  0 :: masked seed (block (length - message.length - 42) message)

variable {length zeros : Nat} {seed message : Bytes}

theorem pad?_eq (fits : message.length + 42 ≤ length) :
    pad? length seed message = some (padded length seed message) := if_pos fits

theorem block_length : (block zeros message).length = zeros + message.length + 21 := by
  have label : labelHash.length = 20 := Sha1.hash_length []
  simp only [block, List.length_append, List.length_replicate, List.length_cons, label]
  omega

theorem take_block : (block zeros message).take Sha1.length = labelHash :=
  List.take_left' (Sha1.hash_length [])

theorem drop_block :
    (block zeros message).drop Sha1.length = List.replicate zeros 0 ++ 1 :: message :=
  List.drop_left' (Sha1.hash_length [])

/-- The zeros end where the first byte stands that is none. -/
theorem dropWhile_block :
    ((block zeros message).drop Sha1.length).dropWhile (· = 0) = 1 :: message := by
  rw [drop_block, List.dropWhile_append_of_pos]
  · rfl
  · intro b mem
    rw [List.eq_of_mem_replicate mem]
    rfl

variable (seeded : seed.length = Sha1.length)
include seeded

theorem masked_length (bs : Bytes) : (masked seed bs).length = Sha1.length + bs.length := by
  unfold masked
  rw [List.length_append, Bytes.xor_length (by simp [seeded]), Bytes.xor_length (by simp), seeded]

/-- The masks come off again. -/
theorem unpad?_masked {bs : Bytes} (long : Sha1.length + 1 ≤ bs.length)
    (labelled : bs.take Sha1.length = labelHash)
    (ended : (bs.drop Sha1.length).dropWhile (· = 0) = 1 :: message) :
    unpad? (0 :: masked seed bs) = some message := by
  have whole := masked_length seeded bs
  have blockLength : (Bytes.xor bs (mask seed bs.length)).length = bs.length :=
    Bytes.xor_length (by simp)
  have seedLength : (Bytes.xor seed
      (mask (Bytes.xor bs (mask seed bs.length)) Sha1.length)).length = Sha1.length := by
    rw [Bytes.xor_length (by simp [seeded]), seeded]
  have front : (masked seed bs).take Sha1.length =
      Bytes.xor seed (mask (Bytes.xor bs (mask seed bs.length)) Sha1.length) :=
    List.take_left' seedLength
  have back : (masked seed bs).drop Sha1.length = Bytes.xor bs (mask seed bs.length) :=
    List.drop_left' seedLength
  unfold unpad?
  simp only
  rw [if_pos (by omega), front, back, Bytes.xor_xor_cancel (by simp [seeded]), blockLength,
    Bytes.xor_xor_cancel (by simp), if_pos labelled, ended]
  rfl

theorem unpad?_padded : unpad? (padded length seed message) = some message := by
  have long : Sha1.length + 1 ≤ (block (length - message.length - 42) message).length := by
    rw [block_length, Sha1.length]
    omega
  exact unpad?_masked seeded long take_block dropWhile_block

end Oaep

/-! ## Lengths of keys -/

namespace Rsa.PrivateKey

variable (k : PrivateKey)

theorem modulus_lt_capacity : k.modulus < capacity k.length := by
  rw [capacity_eq_two_pow, ← bits_le_iff]
  show bits k.modulus ≤ 8 * ((bits k.modulus + 7) / 8)
  omega

/-- A modulus needs all the bytes that it has. -/
theorem capacity_le_modulus {width : Nat} (h : width < k.length) :
    capacity width ≤ k.modulus := by
  have needed : width < (bits k.modulus + 7) / 8 := h
  rw [capacity_eq_two_pow, ← lt_bits_iff]
  omega

end Rsa.PrivateKey

/-! ## Encryption -/

namespace Oaep

variable {key : Rsa.PrivateKey}

/-- A ciphertext has the length of the modulus and is below it. -/
theorem decrypt_malformed {c : Bytes} (h : c.length ≠ key.length ∨ key.modulus ≤ ofBigEndian c) :
    decrypt key c = .error .malformed := by
  apply if_neg
  rintro ⟨whole, below⟩
  rcases h with other | above
  · exact other whole
  · exact Nat.not_lt.2 above below

variable {seed message : Bytes} (seeded : seed.length = Sha1.length)
  (fits : message.length + 42 ≤ key.length)
include seeded fits

theorem padded_length : (padded key.length seed message).length = key.length := by
  rw [padded, List.length_cons, masked_length seeded, block_length, Sha1.length]
  omega

theorem padded_lt : ofBigEndian (padded key.length seed message) < key.modulus := by
  have whole := padded_length seeded fits
  unfold padded at whole ⊢
  generalize masked seed (block (key.length - message.length - 42) message) = rest at whole
  rw [List.length_cons] at whole
  calc
    ofBigEndian (0 :: rest) = ofBigEndian rest := by
      rw [ofBigEndian_cons]
      simp
    _ < capacity rest.length := ofBigEndian_lt rest
    _ ≤ key.modulus := key.capacity_le_modulus (by omega)

/-- A message that fits has a ciphertext, and is found in it. -/
theorem decrypt_encrypt? (sound : key.Sound) (p_prime : key.p.Prime) (q_prime : key.q.Prime)
    (distinct : key.p ≠ key.q) :
    ∃ c, encrypt? key.toPublic seed message = some c ∧ c.length = key.length ∧
      decrypt key c = .ok message := by
  have accepted : pad? key.length seed message = _ := pad?_eq fits
  have whole := padded_length seeded fits
  have small := padded_lt seeded fits
  have opened : unpad? (padded key.length seed message) = some message := unpad?_padded seeded
  generalize padded key.length seed message = em at accepted whole small opened
  have below : key.toPublic.apply (ofBigEndian em) < key.modulus := by
    show powMod _ _ key.modulus < _
    rw [powMod_eq]
    exact Nat.mod_lt _ (Nat.zero_lt_of_lt small)
  have read : ofBigEndian (bigEndian key.length (key.toPublic.apply (ofBigEndian em))) =
      key.toPublic.apply (ofBigEndian em) := by
    rw [ofBigEndian_bigEndian]
    exact Nat.mod_eq_of_lt (below.trans key.modulus_lt_capacity)
  have root := Rsa.PrivateKey.root?_apply sound p_prime q_prime distinct small
  have restored : bigEndian key.length (ofBigEndian em) = em := by
    rw [← whole]
    exact bigEndian_ofBigEndian em
  refine ⟨bigEndian key.length (key.toPublic.apply (ofBigEndian em)), ?_, bigEndian_length _ _, ?_⟩
  · show (pad? key.length seed message).bind _ = _
    rw [accepted]
    rfl
  · unfold decrypt
    simp only [read, bigEndian_length]
    rw [if_pos ⟨trivial, below⟩, root]
    simp only [restored, opened]

end Oaep

end EncryptedBackup
