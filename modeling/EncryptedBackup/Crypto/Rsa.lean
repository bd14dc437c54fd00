/-
RSA keys and what they do to numbers. The secret operation works modulo each factor and puts the two
results together; its outcome counts only if the public operation leads back to where it came from.
-/
import EncryptedBackup.Crypto.PowMod

namespace EncryptedBackup.Rsa

/-- What a sender needs. -/
structure PublicKey where
  modulus : Nat
  exponent : Nat
  deriving DecidableEq

/-- What a receiver keeps. -/
structure PrivateKey where
  modulus : Nat
  exponent : Nat
  secret : Nat
  p : Nat
  q : Nat
  deriving DecidableEq

/-- How many bits a number has. -/
def bits (n : Nat) : Nat := if n = 0 then 0 else n.log2 + 1

/-! ## Public keys -/

namespace PublicKey

/-- How many bytes a ciphertext has. -/
def length (k : PublicKey) : Nat := (bits k.modulus + 7) / 8

/-- Raise a number to the public exponent. -/
def apply (k : PublicKey) (m : Nat) : Nat := powMod m k.exponent k.modulus

/-- Can this be a key? Modulus and exponent are odd, and the exponent is more than 1, has 33 bits at
most and is below the modulus. -/
def isSound (k : PublicKey) : Bool :=
  k.modulus % 2 == 1 && k.exponent % 2 == 1 && 1 < k.exponent && k.exponent < 0x200000000 &&
    k.exponent < k.modulus

end PublicKey

/-! ## Private keys -/

namespace PrivateKey

/-- The public half of a key. -/
def toPublic (k : PrivateKey) : PublicKey := ⟨k.modulus, k.exponent⟩

/-- How many bytes a ciphertext has. -/
def length (k : PrivateKey) : Nat := k.toPublic.length

/-- Does a key hang together? Its public half is sound, its factors make the modulus and none of
them is trivial, and the exponents undo each other modulo each factor less one. That the factors are
prime is taken on trust. -/
def isSound (k : PrivateKey) : Bool :=
  k.toPublic.isSound && 1 < k.p && 1 < k.q && k.p * k.q == k.modulus &&
    k.secret * k.exponent % (k.p - 1) == 1 && k.secret * k.exponent % (k.q - 1) == 1

/-- The inverse of `q` modulo `p`; none for factors that are not coprime. -/
def coefficient? (k : PrivateKey) : Option Nat := inverseMod? k.q k.p

/-- The number below `p * q` that is `x` modulo `p` and `y` modulo `q`, given the coefficient of the
factors. -/
def combine (k : PrivateKey) (coefficient x y : Nat) : Nat :=
  (x + (k.p - y % k.p)) * coefficient % k.p * k.q + y

/-- Raise a number to the secret exponent: modulo each factor, with the exponent reduced modulo the
factor less one, if the results can be combined, else modulo the modulus. -/
def apply (k : PrivateKey) (c : Nat) : Nat :=
  match k.coefficient? with
  | some coefficient =>
    k.combine coefficient (powMod c (k.secret % (k.p - 1)) k.p)
      (powMod c (k.secret % (k.q - 1)) k.q)
  | none => powMod c k.secret k.modulus

/-- The number that the public exponent takes to `c`, as far as the secret exponent finds it; it may
miss it where a factor is not prime. -/
def root? (k : PrivateKey) (c : Nat) : Option Nat :=
  let m := k.apply c
  if k.toPublic.apply m = c then some m else none

end PrivateKey

end EncryptedBackup.Rsa
