/-
A session key opens what it sealed, and nothing else. Encrypting a block is a permutation
(`Aes.encrypt_decrypt`) and padding comes off in one way (`Cbc.pad_of_unpad?`), so a ciphertext that
decrypts is the ciphertext of what it decrypts to (`Cbc.decrypt?_eq_some_iff`). The length of the key
tells the number of rounds (`Aes.RoundKeys.middle_length`).
-/
import Mathlib.Data.Fintype.EquivFin
import Mathlib.Data.Finite.Prod
import EncryptedBackup.Keyring.Rsa
import EncryptedBackup.Proofs.Crypto.Cbc

namespace EncryptedBackup

namespace Aes

/-! ## Rounds -/

theorem Word.ofBytes_length : ∀ bs : Bytes, (Word.ofBytes bs).length = bs.length / 4
  | [] | [_] | [_, _] | [_, _, _] => by simp [ofBytes]
  | _ :: _ :: _ :: _ :: bs => by
    show (Word.ofBytes bs).length + 1 = (bs.length + 4) / 4
    rw [Word.ofBytes_length bs]
    omega

theorem Block.ofWords_length : ∀ ws : List Word, (Block.ofWords ws).length = ws.length / 4
  | [] | [_] | [_, _] | [_, _, _] => by simp [ofWords]
  | _ :: _ :: _ :: _ :: ws => by
    show (Block.ofWords ws).length + 1 = (ws.length + 4) / 4
    rw [Block.ofWords_length ws]
    omega

/-- The schedule goes on for as long as it is asked to. -/
theorem expand_length (keyWords : Nat) : ∀ (n i : Nat) (constant : UInt8) {window : List Word},
    window ≠ [] → (expand keyWords n i constant window).length = n
  | 0, _, _, _, _ => rfl
  | n + 1, i, constant, oldest :: window, _ => by
    unfold expand
    split
    · rw [List.length_cons, expand_length keyWords n _ _ (by simp)]
    · rw [List.length_cons, expand_length keyWords n _ _ (by simp)]

/-- There is a full round for every word of the key, and five more. -/
theorem RoundKeys.middle_length {key : Bytes} (h : 4 ≤ key.length) :
    (RoundKeys.ofKey key).middle.length = key.length / 4 + 5 := by
  have count := Word.ofBytes_length key
  have nonempty : Word.ofBytes key ≠ [] := by
    rw [← List.length_pos_iff, count]
    omega
  have blocks : (Block.ofWords (Word.ofBytes key ++ expand (Word.ofBytes key).length
      (4 * ((Word.ofBytes key).length + 7) - (Word.ofBytes key).length)
      (Word.ofBytes key).length 1 (Word.ofBytes key))).length = key.length / 4 + 7 := by
    rw [Block.ofWords_length, List.length_append, expand_length _ _ _ _ nonempty, count]
    omega
  unfold ofKey
  simp only
  generalize Block.ofWords _ = all at blocks
  match all, blocks with
  | first :: rest, blocks =>
    rw [List.length_cons] at blocks
    rw [List.length_dropLast]
    omega

/-! ## Blocks are permuted -/

instance : Finite Word := by
  apply Finite.of_injective fun w : Word => (w.b0.toFin, w.b1.toFin, w.b2.toFin, w.b3.toFin)
  rintro ⟨_, _, _, _⟩ ⟨_, _, _, _⟩ same
  simpa only [Prod.mk.injEq, UInt8.toFin_inj, Word.mk.injEq] using same

instance : Finite Block := by
  apply Finite.of_injective fun b : Block => (b.w0, b.w1, b.w2, b.w3)
  rintro ⟨_, _, _, _⟩ ⟨_, _, _, _⟩ same
  simpa only [Prod.mk.injEq, Block.mk.injEq] using same

/-- There are finitely many blocks, and so what undoes encrypting is undone by it. -/
theorem encrypt_decrypt (k : RoundKeys) (b : Block) : encrypt k (decrypt k b) = b := by
  have injective : Function.Injective (encrypt k) :=
    Function.LeftInverse.injective (decrypt_encrypt k)
  obtain ⟨a, rfl⟩ := Finite.injective_iff_surjective.1 injective b
  rw [decrypt_encrypt]

end Aes

namespace Cbc

open Aes

/-! ## Ciphertexts that decrypt -/

theorem encryptBlocks_decryptBlocks (k : RoundKeys) : ∀ (previous : Block) (cs : List Block),
    encryptBlocks k previous (decryptBlocks k previous cs) = cs
  | _, [] => rfl
  | previous, c :: cs => by
    unfold decryptBlocks encryptBlocks
    simp only [Block.xor_xor_cancel, encrypt_decrypt, encryptBlocks_decryptBlocks]

/-- Padding is taken off only where it was put on. -/
theorem pad_of_unpad? {bs kept : Bytes} (whole : bs.length % 16 = 0) (h : unpad? bs = some kept) :
    pad kept = bs := by
  unfold unpad? at h
  split at h
  · cases h
  rename_i b _
  dsimp only at h
  split at h
  · rename_i sound
    obtain ⟨least, most, short, filled⟩ := sound
    cases h
    have count : 16 - (bs.take (bs.length - b.toNat)).length % 16 = b.toNat := by
      rw [List.length_take]
      omega
    unfold pad
    simp only [count, UInt8.ofNat_toNat]
    rw [← filled, List.take_append_drop]
  · cases h

theorem decrypt?_eq_some_iff {key c data : Bytes} :
    decrypt? key c = some data ↔ encrypt key data = c := by
  constructor
  · intro opened
    unfold decrypt? at opened
    split at opened
    · rename_i whole
      obtain ⟨n, hn⟩ := Nat.dvd_of_mod_eq_zero whole
      have padded := pad_of_unpad? (by rw [Block.flatMap_bytes_length]; omega) opened
      unfold encrypt
      rw [padded, Block.ofBytes_flatMap, encryptBlocks_decryptBlocks]
      exact (Block.flatMap_ofBytes n c hn).1
    · cases opened
  · rintro rfl
    exact decrypt?_encrypt key data

end Cbc

/-! ## Session keys -/

namespace SessionKey

/-- The bytes of a session key are any of a length that is in use. -/
theorem exists_ofBytes_iff {bs : Bytes} : (∃ key, ofBytes bs = .ok key ∧ key.bytes = bs) ↔
    bs.length = 16 ∨ bs.length = 24 ∨ bs.length = 32 := by
  constructor
  · rintro ⟨key, -, rfl⟩
    exact key.length_valid
  · intro valid
    exact ⟨⟨bs, valid⟩, dif_pos valid, rfl⟩

variable (key : SessionKey)

theorem four_le_length : 4 ≤ key.bytes.length := by
  have := key.length_valid
  omega

theorem encrypt_length (data : Bytes) :
    (key.encrypt data).length = 16 * (data.length / 16 + 1) := Cbc.encrypt_length key.bytes data

theorem decrypt?_eq_some_iff {c data : Bytes} :
    key.decrypt? c = some data ↔ key.encrypt data = c := Cbc.decrypt?_eq_some_iff

end SessionKey

namespace RsaKeyring

/-- A keyring seals every byte string under every session key. The sealed form is whole blocks, at
least one byte more than there were, and the key opens it again: to the bytes that were sealed, by as
many rounds as its length asks for. Nothing but a sealed form is opened, and no two byte strings have
the same. -/
theorem seals_everything (r : RsaKeyring) :
    (∀ bs, (∃ key, SessionKey.ofBytes bs = .ok key ∧ key.bytes = bs) ↔
      bs.length = 16 ∨ bs.length = 24 ∨ bs.length = 32) ∧
    ∀ key : SessionKey,
      (Aes.RoundKeys.ofKey key.bytes).middle.length + 1 = key.bytes.length / 4 + 6 ∧
      (∀ data, ∃ c, Keyring.encrypt r key data = .ok c ∧
        c.length = 16 * (data.length / 16 + 1) ∧ key.decrypt? c = some data) ∧
      (∀ c data, key.decrypt? c = some data → Keyring.encrypt r key data = .ok c) ∧
      ∀ data data', Keyring.encrypt r key data = Keyring.encrypt r key data' → data = data' := by
  refine ⟨fun bs => SessionKey.exists_ofBytes_iff, ?_⟩
  intro key
  have rounds := Aes.RoundKeys.middle_length key.four_le_length
  refine ⟨by omega, ?_, ?_, ?_⟩
  · intro data
    exact ⟨key.encrypt data, rfl, key.encrypt_length data, key.decrypt?_encrypt data⟩
  · intro c data opened
    exact congrArg Except.ok (key.decrypt?_eq_some_iff.1 opened)
  · intro data data' same
    have sealed : key.encrypt data = key.encrypt data' := Except.ok.inj same
    have opened := key.decrypt?_encrypt data
    rw [sealed, key.decrypt?_encrypt] at opened
    exact (Option.some.inj opened).symm

end RsaKeyring

end EncryptedBackup
