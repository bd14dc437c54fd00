/-
Cipher block chaining with PKCS #7 padding: every block is masked with the ciphertext of the one
before it, and the padding, always at least one byte, makes the last block whole.
-/
import EncryptedBackup.Crypto.Aes

namespace EncryptedBackup.Cbc

open Aes

/-! ## Padding -/

/-- The bytes with one to sixteen more, each of which tells how many they are. -/
def pad (bs : Bytes) : Bytes :=
  let n := 16 - bs.length % 16
  bs ++ List.replicate n (UInt8.ofNat n)

/-- The bytes without their padding, if that is well formed. -/
def unpad? (bs : Bytes) : Option Bytes :=
  match bs.getLast? with
  | none => none
  | some b =>
    let n := b.toNat
    let kept := bs.length - n
    if 1 ≤ n ∧ n ≤ 16 ∧ n ≤ bs.length ∧ bs.drop kept = List.replicate n b then some (bs.take kept)
    else none

@[simp] theorem pad_length (bs : Bytes) : (pad bs).length = 16 * (bs.length / 16 + 1) := by
  simp [pad]; omega

/-! ## Chaining -/

/-- Encrypt blocks, the first of them masked with `previous`. -/
def encryptBlocks (k : RoundKeys) (previous : Block) : List Block → List Block
  | [] => []
  | b :: bs =>
    let c := Aes.encrypt k (b.xor previous)
    c :: encryptBlocks k c bs

/-- Decrypt blocks, the first of them masked with `previous`. -/
def decryptBlocks (k : RoundKeys) (previous : Block) : List Block → List Block
  | [] => []
  | c :: cs => (Aes.decrypt k c).xor previous :: decryptBlocks k c cs

/-- The ciphertext of a byte string under a key of 16, 24 or 32 bytes. The chain starts from
zeros. -/
def encrypt (key bs : Bytes) : Bytes :=
  (encryptBlocks (.ofKey key) .zero (Block.ofBytes (pad bs))).flatMap Block.bytes

/-- The byte string with this ciphertext, if there is one. -/
def decrypt? (key bs : Bytes) : Option Bytes :=
  if bs.length % 16 = 0 then
    unpad? ((decryptBlocks (.ofKey key) .zero (Block.ofBytes bs)).flatMap Block.bytes)
  else none

end EncryptedBackup.Cbc
