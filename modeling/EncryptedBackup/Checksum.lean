/-
The POSIX checksum of a file: a cyclic redundancy check over its bytes followed by the octets of
its length. A digest takes the bytes in pieces of any size (`Digest.feed_append`).
-/
import EncryptedBackup.Bytes

namespace EncryptedBackup

namespace Checksum

/-- The generator, without its leading term: the exponents 26, 23, 22, 16, 12, 11, 10, 8, 7, 5, 4,
2, 1 and 0. -/
def generator : UInt32 := 0x04C11DB7

/-- Multiply the remainder by the indeterminate and reduce it again. -/
def shift (r : UInt32) : UInt32 :=
  if r &&& 0x80000000 = 0 then r <<< 1 else (r <<< 1) ^^^ generator

/-- Take in one byte, most significant bit first. -/
def step (r : UInt32) (b : UInt8) : UInt32 :=
  shift (shift (shift (shift (shift (shift (shift (shift (r ^^^ (b.toUInt32 <<< 24)))))))))

/-- The remainder after more bytes. -/
def remainder (r : UInt32) (bs : Bytes) : UInt32 :=
  bs.foldl step r

theorem remainder_append (r : UInt32) (a b : Bytes) :
    remainder r (a ++ b) = remainder (remainder r a) b := by
  simp [remainder]

end Checksum

/-- A checksum under way: the remainder so far and the number of bytes taken. -/
structure Digest where
  remainder : UInt32 := 0
  length : Nat := 0
  deriving DecidableEq

namespace Digest

/-- Take in the next bytes. -/
def feed (d : Digest) (bs : Bytes) : Digest :=
  ⟨Checksum.remainder d.remainder bs, d.length + bs.length⟩

/-- The checksum of all that was taken: the complement of the remainder once the octets of the
length, least significant first, are taken too. -/
def value (d : Digest) : UInt32 :=
  ~~~ Checksum.remainder d.remainder (octets d.length)

theorem feed_append (d : Digest) (a b : Bytes) : d.feed (a ++ b) = (d.feed a).feed b := by
  simp [feed, Checksum.remainder_append, Nat.add_assoc]

@[simp] theorem feed_nil (d : Digest) : d.feed [] = d := by
  simp [feed, Checksum.remainder]

end Digest

/-- The checksum of a byte string. -/
def checksum (bs : Bytes) : UInt32 :=
  (Digest.feed {} bs).value

end EncryptedBackup
