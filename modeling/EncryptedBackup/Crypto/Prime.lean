/-
Making keys: numbers drawn from a supply of bytes until they pass a test for primes, and the RSA
key of two of them.
-/
import EncryptedBackup.Crypto.Rsa
import EncryptedBackup.Crypto.Entropy

namespace EncryptedBackup.Rsa

/-! ## A test for primes -/

/-- The primes by which candidates are divided, and the bases of the test. -/
def smallPrimes : List Nat :=
  [2, 3, 5, 7, 11, 13, 17, 19, 23, 29, 31, 37, 41, 43, 47, 53, 59, 61, 67, 71, 73, 79, 83, 89, 97]

/-- Does squaring `x` up to `n` times give `-1` modulo `m`? -/
def reachesMinusOne (m : Nat) : (n : Nat) → (x : Nat) → Bool
  | 0, _ => false
  | n + 1, x => x == m - 1 || reachesMinusOne m n (x * x % m)

/-- How often two divides a number, and what is left; the first argument bounds the count. -/
def splitTwos : (n : Nat) → (m : Nat) → Nat × Nat
  | 0, m => (0, m)
  | n + 1, m =>
    if m % 2 = 1 then (0, m)
    else
      let (count, odd) := splitTwos n (m / 2)
      (count + 1, odd)

/-- Does `m` pass the test of strong pseudoprimes for this base? -/
def passes (m base : Nat) : Bool :=
  let (count, odd) := splitTwos (bits m) (m - 1)
  let x := powMod base odd m
  x == 1 || reachesMinusOne m count x

/-- Is a number a prime, as far as small divisors and the test can tell? -/
def isProbablePrime (m : Nat) : Bool :=
  smallPrimes.contains m ||
    (1 < m && smallPrimes.all (fun p => m % p != 0) && smallPrimes.all (passes m))

/-! ## Keys -/

/-- The public exponent of the keys made here. -/
def exponent : Nat := 17

/-- The size of the modulus of the keys made here, in bits. -/
def modulusBits : Nat := 1024

/-- The bytes of a draw as an odd number whose two highest bits are set. -/
def candidate (bs : Bytes) : Nat :=
  let top := capacity bs.length
  (ofBigEndian bs % (top / 4) + top / 4 * 3) / 2 * 2 + 1

/-- Draw up to `draws` candidates of half the modulus for the first that passes and leaves the
exponent invertible. -/
def drawPrime : (draws : Nat) → Entropy → Option (Nat × Entropy)
  | 0, _ => none
  | draws + 1, source =>
    let (bs, source) := source.take (modulusBits / 16)
    let p := candidate bs
    if p % exponent != 1 && isProbablePrime p then some (p, source) else drawPrime draws source

/-- The key of two factors. -/
def keyOf? (p q : Nat) : Option PrivateKey := do
  let secret ← inverseMod? exponent ((p - 1) * (q - 1))
  some { modulus := p * q, exponent, secret, p, q }

/-- How many candidates are drawn for a prime. -/
def maxDraws : Nat := 100000

/-- A fresh key, and what is left of the supply. -/
def generate? (source : Entropy) : Option (PrivateKey × Entropy) := do
  let (p, source) ← drawPrime maxDraws source
  let (q, source) ← drawPrime maxDraws source
  let key ← keyOf? p q
  if p != q && key.isSound && bits key.modulus == modulusBits then some (key, source) else none

end EncryptedBackup.Rsa
