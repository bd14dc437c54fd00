/-
Optimal asymmetric encryption padding with SHA-1, its mask function and an empty label: what makes
a message into a number that RSA encrypts, and back.
-/
import EncryptedBackup.Crypto.Rsa
import EncryptedBackup.Crypto.Sha1

namespace EncryptedBackup.Oaep

/-- The first `length` bytes of the mask that a seed stands for: hashes of the seed with a count. -/
def mask (seed : Bytes) (length : Nat) : Bytes :=
  let count := (length + Sha1.length - 1) / Sha1.length
  ((List.range count).flatMap fun i => Sha1.hash (seed ++ bigEndian 4 i)).take length

/-- The hash of the empty label. -/
def labelHash : Bytes := Sha1.hash []

/-- The padded form of a message for a modulus of `length` bytes, if it fits. The seed has as many
bytes as a hash. -/
def pad? (length : Nat) (seed message : Bytes) : Option Bytes :=
  if message.length + 2 * Sha1.length + 2 ≤ length then
    let zeros := List.replicate (length - message.length - 2 * Sha1.length - 2) 0
    let block := labelHash ++ (zeros ++ 1 :: message)
    let maskedBlock := Bytes.xor block (mask seed block.length)
    let maskedSeed := Bytes.xor seed (mask maskedBlock Sha1.length)
    some (0 :: (maskedSeed ++ maskedBlock))
  else none

/-- The message with this padded form, if there is one. -/
def unpad? (padded : Bytes) : Option Bytes :=
  match padded with
  | 0 :: rest =>
    if 2 * Sha1.length + 1 ≤ rest.length then
      let maskedSeed := rest.take Sha1.length
      let maskedBlock := rest.drop Sha1.length
      let seed := Bytes.xor maskedSeed (mask maskedBlock Sha1.length)
      let block := Bytes.xor maskedBlock (mask seed maskedBlock.length)
      if block.take Sha1.length = labelHash then
        match (block.drop Sha1.length).dropWhile (· = 0) with
        | 1 :: message => some message
        | _ => none
      else none
    else none
  | _ => none

/-! ## Encryption -/

/-- Why a ciphertext has no message. -/
inductive Defect where
  /-- It has not the length of the modulus, is not below it, or decrypts to no padded form. -/
  | malformed
  /-- What it decrypts to does not encrypt to it. -/
  | irreversible
  deriving DecidableEq

/-- Encrypt a message to a key, if it fits. -/
def encrypt? (key : Rsa.PublicKey) (seed message : Bytes) : Option Bytes := do
  let padded ← pad? key.length seed message
  some (bigEndian key.length (key.apply (ofBigEndian padded)))

/-- The message that was encrypted to a key. -/
def decrypt (key : Rsa.PrivateKey) (ciphertext : Bytes) : Except Defect Bytes :=
  let c := ofBigEndian ciphertext
  if ciphertext.length = key.length ∧ c < key.modulus then
    match key.root? c with
    | none => .error .irreversible
    | some m =>
      match unpad? (bigEndian key.length m) with
      | none => .error .malformed
      | some message => .ok message
  else .error .malformed

end EncryptedBackup.Oaep
