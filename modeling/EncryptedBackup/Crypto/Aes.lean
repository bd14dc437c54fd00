/-
The block cipher AES for keys of 16, 24 and 32 bytes, in both directions. A block is four columns
of four bytes; each round of `decrypt` undoes the steps of one of `encrypt` in reverse order.
-/
import EncryptedBackup.Bytes
import EncryptedBackup.Crypto.Field256

namespace EncryptedBackup.Aes

open Field256

/-! ## Columns and blocks -/

/-- Four bytes: a column of a block or a word of the key schedule. -/
structure Word where
  b0 : UInt8
  b1 : UInt8
  b2 : UInt8
  b3 : UInt8
  deriving DecidableEq

/-- A block of sixteen bytes, in columns. -/
structure Block where
  w0 : Word
  w1 : Word
  w2 : Word
  w3 : Word
  deriving DecidableEq

namespace Word

def zero : Word := ⟨0, 0, 0, 0⟩

def map (f : UInt8 → UInt8) (w : Word) : Word := ⟨f w.b0, f w.b1, f w.b2, f w.b3⟩

def xor (v w : Word) : Word := ⟨v.b0 ^^^ w.b0, v.b1 ^^^ w.b1, v.b2 ^^^ w.b2, v.b3 ^^^ w.b3⟩

/-- The bytes of a word. -/
def bytes (w : Word) : Bytes := [w.b0, w.b1, w.b2, w.b3]

/-- The whole words of a byte string. -/
def ofBytes : Bytes → List Word
  | a :: b :: c :: d :: bs => ⟨a, b, c, d⟩ :: ofBytes bs
  | _ => []

end Word

namespace Block

def zero : Block := ⟨.zero, .zero, .zero, .zero⟩

def map (f : Word → Word) (b : Block) : Block := ⟨f b.w0, f b.w1, f b.w2, f b.w3⟩

def xor (a b : Block) : Block := ⟨a.w0.xor b.w0, a.w1.xor b.w1, a.w2.xor b.w2, a.w3.xor b.w3⟩

/-- The bytes of a block, column by column. -/
def bytes (b : Block) : Bytes := b.w0.bytes ++ (b.w1.bytes ++ (b.w2.bytes ++ b.w3.bytes))

/-- The whole blocks of a list of words. -/
def ofWords : List Word → List Block
  | a :: b :: c :: d :: ws => ⟨a, b, c, d⟩ :: ofWords ws
  | _ => []

/-- The whole blocks of a byte string. -/
def ofBytes (bs : Bytes) : List Block := ofWords (Word.ofBytes bs)

theorem xor_xor_cancel (a b : Block) : (a.xor b).xor b = a := by
  simp only [xor, Word.xor, UInt8.xor_assoc, UInt8.xor_self, UInt8.xor_zero]

end Block

/-! ## The steps of a round and their inverses -/

/-- Turn a byte left by `n` places. -/
def rotate (x n : UInt8) : UInt8 := (x <<< n) ||| (x >>> (8 - n))

/-- The substitution of a byte: its inverse under an affine map. -/
def substitute (b : UInt8) : UInt8 :=
  let x := inverse b
  x ^^^ rotate x 1 ^^^ rotate x 2 ^^^ rotate x 3 ^^^ rotate x 4 ^^^ 0x63

/-- The byte that `substitute` takes to this one. -/
def unsubstitute (b : UInt8) : UInt8 :=
  inverse (rotate b 1 ^^^ rotate b 3 ^^^ rotate b 6 ^^^ 0x05)

/-- The substitutions of all bytes. -/
def table : Array UInt8 := Array.ofFn fun i : Fin 256 => substitute (UInt8.ofNat i)

/-- The substitution of a byte, looked up. -/
def subByte (b : UInt8) : UInt8 :=
  have inside : b.toNat < table.size := by simp [table, b.toNat_lt]
  table[b.toNat]

theorem subByte_eq (b : UInt8) : subByte b = substitute b := by
  simp [subByte, table]

/-- The tables' values for all four bytes. -/
def subWord (w : Word) : Word := w.map subByte

/-- Turn row `i` of a block left by `i` places. -/
def shiftRows (s : Block) : Block :=
  ⟨⟨s.w0.b0, s.w1.b1, s.w2.b2, s.w3.b3⟩, ⟨s.w1.b0, s.w2.b1, s.w3.b2, s.w0.b3⟩,
    ⟨s.w2.b0, s.w3.b1, s.w0.b2, s.w1.b3⟩, ⟨s.w3.b0, s.w0.b1, s.w1.b2, s.w2.b3⟩⟩

/-- Turn row `i` of a block right by `i` places. -/
def unshiftRows (s : Block) : Block :=
  ⟨⟨s.w0.b0, s.w3.b1, s.w2.b2, s.w1.b3⟩, ⟨s.w1.b0, s.w0.b1, s.w3.b2, s.w2.b3⟩,
    ⟨s.w2.b0, s.w1.b1, s.w0.b2, s.w3.b3⟩, ⟨s.w3.b0, s.w2.b1, s.w1.b2, s.w0.b3⟩⟩

theorem unshiftRows_shiftRows (s : Block) : unshiftRows (shiftRows s) = s := rfl

/-- Multiply a column by the matrix whose rows are the turns of 2, 3, 1, 1. -/
def mixColumn (w : Word) : Word :=
  let sum := w.b0 ^^^ w.b1 ^^^ w.b2 ^^^ w.b3
  ⟨w.b0 ^^^ sum ^^^ double (w.b0 ^^^ w.b1), w.b1 ^^^ sum ^^^ double (w.b1 ^^^ w.b2),
    w.b2 ^^^ sum ^^^ double (w.b2 ^^^ w.b3), w.b3 ^^^ sum ^^^ double (w.b3 ^^^ w.b0)⟩

/-- Multiply a column by the matrix whose rows are the turns of 14, 11, 13, 9. -/
def unmixColumn (w : Word) : Word :=
  ⟨mul w.b0 14 ^^^ mul w.b1 11 ^^^ mul w.b2 13 ^^^ mul w.b3 9,
    mul w.b0 9 ^^^ mul w.b1 14 ^^^ mul w.b2 11 ^^^ mul w.b3 13,
    mul w.b0 13 ^^^ mul w.b1 9 ^^^ mul w.b2 14 ^^^ mul w.b3 11,
    mul w.b0 11 ^^^ mul w.b1 13 ^^^ mul w.b2 9 ^^^ mul w.b3 14⟩

/-! ## The key schedule -/

/-- The `n` words of the schedule that follow a window as long as the key, the first of them being
number `i`; `constant` is the next round constant. -/
def expand (keyWords : Nat) : (n i : Nat) → (constant : UInt8) → List Word → List Word
  | 0, _, _, _ => []
  | _ + 1, _, _, [] => []
  | n + 1, i, constant, oldest :: window =>
    let previous := (oldest :: window).getLast (by simp)
    if i % keyWords = 0 then
      let turned := subWord ⟨previous.b1, previous.b2, previous.b3, previous.b0⟩
      let next := oldest.xor ⟨turned.b0 ^^^ constant, turned.b1, turned.b2, turned.b3⟩
      next :: expand keyWords n (i + 1) (double constant) (window ++ [next])
    else
      let next := oldest.xor (if 6 < keyWords ∧ i % keyWords = 4 then subWord previous else previous)
      next :: expand keyWords n (i + 1) constant (window ++ [next])

/-- The keys of the rounds: one for the start, one for each full round, one for the last. -/
structure RoundKeys where
  first : Block
  middle : List Block
  last : Block
  deriving DecidableEq

/-- The round keys of a key of 16, 24 or 32 bytes: it has 10, 12 or 14 rounds. -/
def RoundKeys.ofKey (key : Bytes) : RoundKeys :=
  let words := Word.ofBytes key
  let keyWords := words.length
  let all := words ++ expand keyWords (4 * (keyWords + 7) - keyWords) keyWords 1 words
  match Block.ofWords all with
  | [] => ⟨.zero, [], .zero⟩
  | first :: rest => ⟨first, rest.dropLast, rest.getLast?.getD .zero⟩

/-! ## The cipher -/

/-- A full round. -/
def round (s k : Block) : Block :=
  ((shiftRows (s.map subWord)).map mixColumn).xor k

/-- The inverse of a full round. -/
def unround (s k : Block) : Block :=
  (unshiftRows ((s.xor k).map unmixColumn)).map (·.map unsubstitute)

/-- Encrypt a block. -/
def encrypt (k : RoundKeys) (b : Block) : Block :=
  (shiftRows ((k.middle.foldl round (b.xor k.first)).map subWord)).xor k.last

/-- Decrypt a block. -/
def decrypt (k : RoundKeys) (b : Block) : Block :=
  (k.middle.reverse.foldl unround
    ((unshiftRows (b.xor k.last)).map (·.map unsubstitute))).xor k.first

end EncryptedBackup.Aes
