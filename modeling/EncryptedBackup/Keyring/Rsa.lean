/-
The keyring of a real client: RSA with OAEP for session keys, AES in CBC mode for slices. Private
keys are saved as base64 of their written form.
-/
import EncryptedBackup.Keyring
import EncryptedBackup.Crypto.Oaep
import EncryptedBackup.Crypto.Rsa.Encoding
import EncryptedBackup.Crypto.Prime
import EncryptedBackup.Text.Base64
import EncryptedBackup.Text.Blank
import EncryptedBackup.Wire.Request

namespace EncryptedBackup

/-- An RSA key, if one is held, and the supply of bytes for the next. -/
structure RsaKeyring where
  key : Option Rsa.PrivateKey := none
  source : Entropy
  deriving DecidableEq

namespace RsaKeyring

/-- Hold a key that was made. Its public half has to fill the field of a request. -/
def hold (r : RsaKeyring) : Option (Rsa.PrivateKey × Entropy) → Except Error Bytes × RsaKeyring
  | none => (.error (.keys .noPrimes), r)
  | some (key, source) =>
    let field := key.toPublic.encode
    if field.length = Wire.publicKeyWidth then (.ok field, { key := some key, source })
    else (.error (.publicKeyLength Wire.publicKeyWidth field.length), { r with source })

/-- Make an RSA key. -/
def generate (r : RsaKeyring) : Except Error Bytes × RsaKeyring :=
  r.hold (Rsa.generate? r.source)

/-- The text of the key. -/
def save (r : RsaKeyring) : Except Error String :=
  match r.key with
  | none => .error (.keys .noPrivateKey)
  | some key =>
    match key.encode? with
    | none => .error (.keys .unencodable)
    | some bs => .ok (Text.Base64.encode bs)

/-- Hold the key that a text stands for; white space around it does not matter. -/
def load (r : RsaKeyring) (text : String) : Except Error RsaKeyring :=
  match Text.Base64.decode? (Text.trim text) with
  | none => .error (.keys .notBase64)
  | some bs =>
    match Rsa.PrivateKey.decode? bs with
    | none => .error (.keys .undecodable)
    | some key => .ok { r with key := some key }

/-- Decrypt with the key. -/
def unwrap (r : RsaKeyring) (ciphertext : Bytes) : Except Error Bytes :=
  match r.key with
  | none => .error (.keys .noPrivateKey)
  | some key =>
    match Oaep.decrypt key ciphertext with
    | .error .malformed => .error (.keys .undecryptable)
    | .error .irreversible => .error (.keys .irreversible)
    | .ok message => .ok message

end RsaKeyring

instance : Keyring RsaKeyring where
  generate := RsaKeyring.generate
  save := RsaKeyring.save
  load := RsaKeyring.load
  unwrap := RsaKeyring.unwrap
  encrypt _ key bs := .ok (key.encrypt bs)

/-- An RSA keyring whose next key pair is given beforehand: the private half as text and the public
half as it goes into its field. -/
structure PresetKeyring where
  ring : RsaKeyring
  privateText : String
  publicField : Bytes

instance : Keyring PresetKeyring where
  generate r :=
    match r.ring.load r.privateText with
    | .ok ring => (.ok r.publicField, { r with ring })
    | .error e => (.error e, r)
  save r := r.ring.save
  load r text := (r.ring.load text).map fun ring => { r with ring }
  unwrap r := r.ring.unwrap
  encrypt _ key bs := .ok (key.encrypt bs)

end EncryptedBackup
