/-
The hash function SHA-1. A message is filled up to whole blocks of 64 bytes, and each block mixes
its sixteen words into a state of five.
-/
import EncryptedBackup.Bytes

namespace EncryptedBackup.Sha1

/-- How many bytes a hash has. -/
def length : Nat := 20

/-- The state of the hash. -/
structure State where
  a : UInt32
  b : UInt32
  c : UInt32
  d : UInt32
  e : UInt32
  deriving DecidableEq

/-- The state before the first block. -/
def initial : State :=
  ⟨0x67452301, 0xEFCDAB89, 0x98BADCFE, 0x10325476, 0xC3D2E1F0⟩

/-- Turn a word left by `n` places. -/
def rotate (x : UInt32) (n : UInt32) : UInt32 :=
  (x <<< n) ||| (x >>> (32 - n))

/-- The first `n` words that a window of sixteen runs through: each leaves it in front, and one
made of four of the others enters at the end. -/
def schedule : (n : Nat) → List UInt32 → List UInt32
  | n + 1, w0 :: w1 :: w2 :: w3 :: w4 :: w5 :: w6 :: w7 :: w8 :: w9 :: w10 :: w11 :: w12 :: w13 ::
      w14 :: w15 :: _ =>
    w0 :: schedule n [w1, w2, w3, w4, w5, w6, w7, w8, w9, w10, w11, w12, w13, w14, w15,
      rotate (w13 ^^^ w8 ^^^ w2 ^^^ w0) 1]
  | _, _ => []

/-- One round with its function value, constant and word. -/
def turn (s : State) (f k w : UInt32) : State :=
  ⟨rotate s.a 5 + f + s.e + k + w, s.a, rotate s.b 30, s.c, s.d⟩

/-- The round with number `i`. -/
def round (s : State) (w : UInt32) (i : Nat) : State :=
  if i < 20 then turn s ((s.b &&& s.c) ||| (~~~ s.b &&& s.d)) 0x5A827999 w
  else if i < 40 then turn s (s.b ^^^ s.c ^^^ s.d) 0x6ED9EBA1 w
  else if i < 60 then turn s ((s.b &&& s.c) ||| (s.b &&& s.d) ||| (s.c &&& s.d)) 0x8F1BBCDC w
  else turn s (s.b ^^^ s.c ^^^ s.d) 0xCA62C1D6 w

/-- The words of a block. -/
def words : Bytes → List UInt32
  | a :: b :: c :: d :: bs =>
    (a.toUInt32 <<< 24 ||| b.toUInt32 <<< 16 ||| c.toUInt32 <<< 8 ||| d.toUInt32) :: words bs
  | _ => []

/-- Mix in a block of 64 bytes. -/
def block (s : State) (bs : Bytes) : State :=
  let t := (schedule 80 (words bs)).zipIdx.foldl (fun t wi => round t wi.1 wi.2) s
  ⟨s.a + t.a, s.b + t.b, s.c + t.c, s.d + t.d, s.e + t.e⟩

/-- A message filled up to whole blocks: a one bit, zeros, and its length in bits. -/
def fill (bs : Bytes) : Bytes :=
  bs ++ (0x80 :: List.replicate ((119 - bs.length % 64) % 64) 0 ++ bigEndian 8 (8 * bs.length))

/-- The hash of a message. -/
def hash (bs : Bytes) : Bytes :=
  let s := (pieces 64 (fill bs)).foldl block initial
  [s.a, s.b, s.c, s.d, s.e].flatMap fun w => bigEndian 4 w.toNat

theorem hash_length (bs : Bytes) : (hash bs).length = length := by
  simp [hash, length]

end EncryptedBackup.Sha1
