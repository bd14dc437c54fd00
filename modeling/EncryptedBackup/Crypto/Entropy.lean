/-
A supply of bytes that follow from a seed: hashes of the seed with a count. With a seed that nobody
knows they are as good as random.
-/
import EncryptedBackup.Crypto.Sha1

namespace EncryptedBackup

/-- A seed and how many hashes of it were used. -/
structure Entropy where
  seed : Bytes
  used : Nat := 0
  deriving DecidableEq

namespace Entropy

/-- The next `length` bytes. -/
def take (source : Entropy) (length : Nat) : Bytes × Entropy :=
  let count := (length + Sha1.length - 1) / Sha1.length
  let blocks := (List.range count).flatMap fun i =>
    Sha1.hash (source.seed ++ bigEndian 8 (source.used + i))
  (blocks.take length, { source with used := source.used + count })

end Entropy

end EncryptedBackup
