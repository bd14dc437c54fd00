/-
Written forms of RSA keys: a private key as PKCS #8, a public key as SubjectPublicKeyInfo. A key is
written in one way. Reading is strict but for what may follow a private key: attributes, the public
key, and extensions, of which nothing is kept.
-/
import EncryptedBackup.Crypto.Rsa
import EncryptedBackup.Crypto.Der

namespace EncryptedBackup.Rsa

/-- The algorithm `rsaEncryption` with its empty parameters. -/
def algorithm : Bytes :=
  Der.element Der.sequenceTag
    (Der.element Der.objectIdTag [0x2A, 0x86, 0x48, 0x86, 0xF7, 0x0D, 0x01, 0x01, 0x01] ++
      Der.element Der.nullTag [])

/-- Drop these bytes from the front. -/
def expect? (front bs : Bytes) : Option Bytes :=
  if front <+: bs then some (bs.drop front.length) else none

/-! ## Public keys -/

namespace PublicKey

/-- The written form of a key. -/
def encode (k : PublicKey) : Bytes :=
  Der.element Der.sequenceTag
    (algorithm ++ Der.element Der.bitStringTag
      (0 :: Der.element Der.sequenceTag (Der.natural k.modulus ++ Der.natural k.exponent)))

/-- The sound key with this written form. -/
def decode? (bs : Bytes) : Option PublicKey := do
  let info ← Der.readAll? Der.sequenceTag bs
  let rest ← expect? algorithm info
  let string ← Der.readAll? Der.bitStringTag rest
  let inner ← expect? [0] string
  let numbers ← Der.readAll? Der.sequenceTag inner
  let (modulus, rest) ← Der.readNatural? numbers
  let (exponent, rest) ← Der.readNatural? rest
  let key : PublicKey := { modulus, exponent }
  if rest.isEmpty && key.isSound then some key else none

end PublicKey

/-! ## Private keys -/

namespace PrivateKey

/-- The numbers of a key in the order in which they are written. The last three follow from the
others. -/
def encodeNumbers (k : PrivateKey) (coefficient : Nat) : Bytes :=
  Der.element Der.sequenceTag ([0, k.modulus, k.exponent, k.secret, k.p, k.q,
    k.secret % (k.p - 1), k.secret % (k.q - 1), coefficient].flatMap Der.natural)

/-- The written form of a key; none for factors that are not coprime. -/
def encode? (k : PrivateKey) : Option Bytes := do
  let numbers := k.encodeNumbers (← k.coefficient?)
  some (Der.element Der.sequenceTag
    (Der.natural 0 ++ (algorithm ++ Der.element Der.octetStringTag numbers)))

/-- The sound key with these numbers. What follows from the others is read but not used. -/
def decodeNumbers? (bs : Bytes) : Option PrivateKey := do
  let numbers ← Der.readAll? Der.sequenceTag bs
  let rest ← expect? (Der.natural 0) numbers
  let (modulus, rest) ← Der.readNatural? rest
  let (exponent, rest) ← Der.readNatural? rest
  let (secret, rest) ← Der.readNatural? rest
  let (p, rest) ← Der.readNatural? rest
  let (q, rest) ← Der.readNatural? rest
  let (_, rest) ← Der.readNatural? rest
  let (_, rest) ← Der.readNatural? rest
  let (_, rest) ← Der.readNatural? rest
  let key : PrivateKey := { modulus, exponent, secret, p, q }
  if rest.isEmpty && key.isSound then some key else none

/-! ## What may follow a private key -/

/-- Are these attributes? -/
def isAttributes (e : Der.Element) : Bool :=
  e.tag == Der.contextTag 0 false || e.tag == Der.contextTag 0 true

/-- Is this a public key: a bit string of whole bytes? -/
def isPublicKey (e : Der.Element) : Bool :=
  e.tag == Der.contextTag 1 false && e.content.head? == some 0

/-- Is this an extension: a tag of its own around one element? -/
def isExtension (e : Der.Element) : Bool :=
  Der.isConstructedContext e.tag && Der.isElement e.content

/-- Can a key of this version be followed by these elements? Attributes come first, then, in version
1 and in no other, the public key, then extensions. -/
def allows (version : Nat) (following : List Der.Element) : Bool :=
  let rest := following.dropWhile isAttributes
  match version, rest with
  | 0, e :: _ => e.tag != Der.contextTag 1 true && rest.all isExtension
  | 0, [] => true
  | 1, e :: extensions => isPublicKey e && extensions.all isExtension
  | _, _ => false

/-- The sound key with this written form. -/
def decode? (bs : Bytes) : Option PrivateKey := do
  let info ← Der.readAll? Der.sequenceTag bs
  let (version, rest) ← Der.readNatural? info
  let rest ← expect? algorithm rest
  let (numbers, rest) ← Der.read? Der.octetStringTag rest
  let following ← Der.elements? rest
  if allows version following then decodeNumbers? numbers else none

end PrivateKey

end EncryptedBackup.Rsa
