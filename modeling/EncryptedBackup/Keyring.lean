/-
Session keys, and what a client needs of a keyring: to make, save and restore its key pair, to
unwrap a session key that was encrypted to it, and to encrypt under a session key.
-/
import EncryptedBackup.Error
import EncryptedBackup.Crypto.Cbc

namespace EncryptedBackup

/-- A key for the slices of files. -/
structure SessionKey where
  bytes : Bytes
  length_valid : bytes.length = 16 ∨ bytes.length = 24 ∨ bytes.length = 32
  deriving DecidableEq

namespace SessionKey

/-- The session key with these bytes. -/
def ofBytes (bs : Bytes) : Except Error SessionKey :=
  if h : bs.length = 16 ∨ bs.length = 24 ∨ bs.length = 32 then .ok ⟨bs, h⟩
  else .error (.sessionKeyLength bs.length)

/-- What messages show of a session key. -/
def text (key : SessionKey) : String := s!"SessionKey({key.bytes.length} bytes)"

/-- The ciphertext of a byte string. -/
def encrypt (key : SessionKey) (bs : Bytes) : Bytes := Cbc.encrypt key.bytes bs

/-- The byte string with this ciphertext, if there is one. -/
def decrypt? (key : SessionKey) (bs : Bytes) : Option Bytes := Cbc.decrypt? key.bytes bs

end SessionKey

/-- A keyring holds at most one private key. -/
class Keyring (κ : Type) where
  /-- Make a key pair, keep the private half and give the public one as it goes into its field. A
  failure may leave a trace in the keyring, but never another key. -/
  generate : κ → Except Error Bytes × κ
  /-- The private key as text. -/
  save : κ → Except Error String
  /-- Hold the private key that a text stands for. -/
  load : κ → String → Except Error κ
  /-- Decrypt what was encrypted to the key pair. -/
  unwrap : κ → Bytes → Except Error Bytes
  /-- Encrypt under a session key. -/
  encrypt : κ → SessionKey → Bytes → Except Error Bytes

end EncryptedBackup
