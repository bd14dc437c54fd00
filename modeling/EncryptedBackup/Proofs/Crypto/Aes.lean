/-
AES undoes itself: each step of a round has an inverse, and so decrypting a block under round keys
undoes encrypting it under them, whatever the keys are (`decrypt_encrypt`).
-/
import EncryptedBackup.Crypto.Aes
import EncryptedBackup.Proofs.Crypto.Field256

namespace EncryptedBackup.Aes

open Field256

/-! ## Substitutions -/

/-- The affine map of `substitute` is undone by that of `unsubstitute`. -/
theorem affine_inverse : ∀ x : UInt8,
    let y := x ^^^ rotate x 1 ^^^ rotate x 2 ^^^ rotate x 3 ^^^ rotate x 4 ^^^ 0x63
    rotate y 1 ^^^ rotate y 3 ^^^ rotate y 6 ^^^ 0x05 = x :=
  forall_byte (by decide +kernel)

theorem unsubstitute_subByte (b : UInt8) : unsubstitute (subByte b) = b := by
  rw [subByte_eq]
  unfold unsubstitute substitute
  simp only
  rw [affine_inverse, inverse_inverse]

theorem map_unsubstitute_subWord (w : Word) : (subWord w).map unsubstitute = w := by
  simp only [subWord, Word.map, unsubstitute_subByte]

theorem map_unsubstitute (b : Block) :
    (b.map subWord).map (·.map unsubstitute) = b := by
  simp only [Block.map, map_unsubstitute_subWord]

/-! ## Columns -/

theorem mul_nine (x : UInt8) : mul x 9 = x ^^^ double (double (double x)) := by
  have : mul x 9 = x ^^^ (0 ^^^ (0 ^^^ (double (double (double x)) ^^^
    (0 ^^^ (0 ^^^ (0 ^^^ (0 ^^^ 0))))))) := rfl
  simpa using this

theorem mul_eleven (x : UInt8) : mul x 11 = x ^^^ (double x ^^^ double (double (double x))) := by
  have : mul x 11 = x ^^^ (double x ^^^ (0 ^^^ (double (double (double x)) ^^^
    (0 ^^^ (0 ^^^ (0 ^^^ (0 ^^^ 0))))))) := rfl
  simpa using this

theorem mul_thirteen (x : UInt8) :
    mul x 13 = x ^^^ (double (double x) ^^^ double (double (double x))) := by
  have : mul x 13 = x ^^^ (0 ^^^ (double (double x) ^^^ (double (double (double x)) ^^^
    (0 ^^^ (0 ^^^ (0 ^^^ (0 ^^^ 0))))))) := rfl
  simpa using this

theorem mul_fourteen (x : UInt8) :
    mul x 14 = double x ^^^ (double (double x) ^^^ double (double (double x))) := by
  have : mul x 14 = 0 ^^^ (double x ^^^ (double (double x) ^^^ (double (double (double x)) ^^^
    (0 ^^^ (0 ^^^ (0 ^^^ (0 ^^^ 0))))))) := rfl
  simpa using this

/-- A row of the inverse matrix, by how often each byte is doubled. -/
theorem unmix_row (x y z w : UInt8) :
    mul x 14 ^^^ mul y 11 ^^^ mul z 13 ^^^ mul w 9 =
      double (double (double (x ^^^ y ^^^ z ^^^ w))) ^^^ (double (double (x ^^^ z)) ^^^
        (double (x ^^^ y) ^^^ (y ^^^ z ^^^ w))) := by
  simp only [mul_nine, mul_eleven, mul_thirteen, mul_fourteen, double_xor]
  ac_rfl

/-- A row of the matrix. -/
def mixRow (a b c d : UInt8) : UInt8 := a ^^^ (a ^^^ b ^^^ c ^^^ d) ^^^ double (a ^^^ b)

/-- A row of the inverse matrix undoes the row of the matrix: what is doubled cancels. -/
theorem unmix_mixRow (a b c d : UInt8) :
    mul (mixRow a b c d) 14 ^^^ mul (mixRow b c d a) 11 ^^^ mul (mixRow c d a b) 13 ^^^
      mul (mixRow d a b c) 9 = a := by
  -- the sums that `unmix_row` doubles thrice, twice, once and not at all
  have all : mixRow a b c d ^^^ mixRow b c d a ^^^ mixRow c d a b ^^^ mixRow d a b c =
      a ^^^ b ^^^ c ^^^ d := by
    simp only [mixRow, double_xor, UInt8.xor_assoc, UInt8.xor_comm, xor_left_comm, xor_left_self,
      UInt8.xor_self, UInt8.xor_zero]
  have even : mixRow a b c d ^^^ mixRow c d a b = (a ^^^ c) ^^^ double (a ^^^ b ^^^ c ^^^ d) := by
    simp only [mixRow, double_xor, UInt8.xor_assoc, UInt8.xor_comm, xor_left_comm, xor_left_self]
  have near : mixRow a b c d ^^^ mixRow b c d a = (a ^^^ b) ^^^ double (a ^^^ c) := by
    simp only [mixRow, double_xor, UInt8.xor_assoc, UInt8.xor_comm, xor_left_comm, xor_left_self]
  have rest : mixRow b c d a ^^^ mixRow c d a b ^^^ mixRow d a b c = a ^^^ double (a ^^^ b) := by
    simp only [mixRow, double_xor, UInt8.xor_assoc, UInt8.xor_comm, xor_left_comm, xor_left_self,
      UInt8.xor_self, UInt8.zero_xor]
  rw [unmix_row, all, even, near, rest]
  simp only [double_xor, UInt8.xor_assoc, UInt8.xor_comm, xor_left_comm, xor_left_self,
    UInt8.xor_self, UInt8.xor_zero]

theorem unmixColumn_mixColumn (w : Word) : unmixColumn (mixColumn w) = w := by
  obtain ⟨a, b, c, d⟩ := w
  have mixed : mixColumn ⟨a, b, c, d⟩ =
      ⟨mixRow a b c d, mixRow b c d a, mixRow c d a b, mixRow d a b c⟩ := by
    simp only [mixColumn, mixRow, Word.mk.injEq, true_and]
    exact ⟨by ac_rfl, by ac_rfl, by ac_rfl⟩
  rw [mixed]
  simp only [unmixColumn, Word.mk.injEq]
  refine ⟨unmix_mixRow a b c d, ?_, ?_, ?_⟩
  · refine Eq.trans ?_ (unmix_mixRow b c d a)
    ac_rfl
  · refine Eq.trans ?_ (unmix_mixRow c d a b)
    ac_rfl
  · refine Eq.trans ?_ (unmix_mixRow d a b c)
    ac_rfl

theorem map_unmixColumn_mixColumn (b : Block) : (b.map mixColumn).map unmixColumn = b := by
  simp only [Block.map, unmixColumn_mixColumn]

/-! ## Rounds -/

theorem unround_round (s k : Block) : unround (round s k) k = s := by
  unfold unround round
  rw [Block.xor_xor_cancel, map_unmixColumn_mixColumn, unshiftRows_shiftRows, map_unsubstitute]

theorem foldl_unround : ∀ (ks : List Block) (s : Block),
    ks.reverse.foldl unround (ks.foldl round s) = s
  | [], s => rfl
  | k :: ks, s => by
    rw [List.reverse_cons, List.foldl_append, List.foldl_cons (f := round), foldl_unround ks,
      List.foldl_cons, List.foldl_nil, unround_round]

/-- Decrypting undoes encrypting, under any round keys. -/
theorem decrypt_encrypt (k : RoundKeys) (b : Block) : decrypt k (encrypt k b) = b := by
  unfold decrypt encrypt
  rw [Block.xor_xor_cancel, unshiftRows_shiftRows, map_unsubstitute, foldl_unround,
    Block.xor_xor_cancel]

end EncryptedBackup.Aes
