/-
Cipher block chaining undoes itself: padding comes off again (`unpad?_pad`), chained blocks are
recovered, and so every byte string is the plaintext of its ciphertext (`decrypt?_encrypt`), which
is at most sixteen bytes longer (`encrypt_length`).
-/
import EncryptedBackup.Crypto.Cbc
import EncryptedBackup.Keyring
import EncryptedBackup.Proofs.Crypto.Aes

namespace EncryptedBackup

/-! ## Blocks as bytes -/

namespace Aes

theorem Word.ofBytes_bytes (w : Word) (bs : Bytes) :
    Word.ofBytes (w.bytes ++ bs) = w :: Word.ofBytes bs := rfl

theorem Block.ofBytes_bytes (b : Block) (bs : Bytes) :
    Block.ofBytes (b.bytes ++ bs) = b :: Block.ofBytes bs := by
  unfold Block.ofBytes Block.bytes
  simp only [List.append_assoc, Word.ofBytes_bytes]
  rfl

theorem Block.ofBytes_flatMap : ∀ bs : List Block, Block.ofBytes (bs.flatMap Block.bytes) = bs
  | [] => rfl
  | b :: bs => by rw [List.flatMap_cons, Block.ofBytes_bytes, Block.ofBytes_flatMap bs]

@[simp] theorem Block.bytes_length (b : Block) : b.bytes.length = 16 := rfl

theorem Block.flatMap_bytes_length : ∀ bs : List Block,
    (bs.flatMap Block.bytes).length = 16 * bs.length
  | [] => rfl
  | b :: bs => by
    rw [List.flatMap_cons, List.length_append, Block.bytes_length, List.length_cons,
      Block.flatMap_bytes_length bs]
    omega

/-- Sixteen bytes make a block. -/
theorem Block.exists_bytes {bs : Bytes} (h : bs.length = 16) : ∃ b : Block, bs = b.bytes := by
  match bs, h with
  | [x0, x1, x2, x3, x4, x5, x6, x7, x8, x9, xa, xb, xc, xd, xe, xf], _ =>
    exact ⟨⟨⟨x0, x1, x2, x3⟩, ⟨x4, x5, x6, x7⟩, ⟨x8, x9, xa, xb⟩, ⟨xc, xd, xe, xf⟩⟩, rfl⟩

/-- Whole blocks are the bytes of their blocks. -/
theorem Block.flatMap_ofBytes : ∀ (n : Nat) (bs : Bytes), bs.length = 16 * n →
    (Block.ofBytes bs).flatMap Block.bytes = bs ∧ (Block.ofBytes bs).length = n
  | 0, bs, h => by
    obtain rfl := List.length_eq_zero_iff.1 h
    exact ⟨rfl, rfl⟩
  | n + 1, bs, h => by
    have sixteen : (bs.take 16).length = 16 := by
      simp
      omega
    obtain ⟨b, hb⟩ := Block.exists_bytes sixteen
    have split : bs = b.bytes ++ bs.drop 16 := by rw [← hb, List.take_append_drop]
    obtain ⟨rest, count⟩ := Block.flatMap_ofBytes n (bs.drop 16) (by simp; omega)
    rw [split, Block.ofBytes_bytes, List.flatMap_cons, rest, List.length_cons, count]
    exact ⟨rfl, rfl⟩

end Aes

namespace Cbc

open Aes

/-! ## Padding -/

theorem unpad?_pad (bs : Bytes) : unpad? (pad bs) = some bs := by
  have count : 1 ≤ 16 - bs.length % 16 ∧ 16 - bs.length % 16 ≤ 16 := by omega
  unfold pad
  simp only
  generalize 16 - bs.length % 16 = n at count
  have byte : (UInt8.ofNat n).toNat = n := by simp; omega
  have last : (bs ++ List.replicate n (UInt8.ofNat n)).getLast? = some (UInt8.ofNat n) := by
    rw [List.getLast?_append, List.getLast?_replicate, if_neg (by omega)]
    rfl
  unfold unpad?
  rw [last]
  simp only [byte, List.length_append, List.length_replicate, Nat.add_sub_cancel,
    List.drop_left', List.take_left']
  rw [if_pos ⟨count.1, count.2, by omega, by simp⟩]

/-! ## Chaining -/

theorem decryptBlocks_encryptBlocks (k : RoundKeys) : ∀ (previous : Block) (bs : List Block),
    decryptBlocks k previous (encryptBlocks k previous bs) = bs
  | _, [] => rfl
  | previous, b :: bs => by
    unfold encryptBlocks decryptBlocks
    simp only [decrypt_encrypt, Block.xor_xor_cancel, decryptBlocks_encryptBlocks]

theorem encryptBlocks_length (k : RoundKeys) : ∀ (previous : Block) (bs : List Block),
    (encryptBlocks k previous bs).length = bs.length
  | _, [] => rfl
  | previous, b :: bs => by
    unfold encryptBlocks
    rw [List.length_cons, encryptBlocks_length k _ bs, List.length_cons]

/-- The ciphertext is the plaintext filled up to whole blocks. -/
theorem encrypt_length (key bs : Bytes) : (encrypt key bs).length = 16 * (bs.length / 16 + 1) := by
  unfold encrypt
  rw [Block.flatMap_bytes_length, encryptBlocks_length, (Block.flatMap_ofBytes _ _ (pad_length bs)).2]

/-- Decrypting undoes encrypting. -/
theorem decrypt?_encrypt (key bs : Bytes) : decrypt? key (encrypt key bs) = some bs := by
  unfold decrypt?
  rw [if_pos (by rw [encrypt_length]; omega)]
  unfold encrypt
  rw [Block.ofBytes_flatMap, decryptBlocks_encryptBlocks,
    (Block.flatMap_ofBytes _ _ (pad_length bs)).1, unpad?_pad]

end Cbc

/-! ## Session keys -/

namespace SessionKey

theorem decrypt?_encrypt (key : SessionKey) (bs : Bytes) :
    key.decrypt? (key.encrypt bs) = some bs := Cbc.decrypt?_encrypt key.bytes bs

theorem encrypt_length_le (key : SessionKey) (bs : Bytes) :
    (key.encrypt bs).length ≤ bs.length + 16 := by
  unfold encrypt
  rw [Cbc.encrypt_length]
  omega

end SessionKey

end EncryptedBackup
