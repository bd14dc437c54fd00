/-
A keyring without secrets, to rehearse handshakes and uploads: keys are numbered texts, unwrapping
turns bytes around, and encrypting masks them with the session key.
-/
import EncryptedBackup.Keyring

namespace EncryptedBackup

/-- The operations of a keyring. -/
inductive KeyOperation where
  | generate
  | save
  | load
  | unwrap
  | encrypt
  deriving DecidableEq

/-- The words for an operation. -/
def KeyOperation.text : KeyOperation → String
  | .generate => "generate"
  | .save => "export"
  | .load => "load"
  | .unwrap => "decrypt"
  | .encrypt => "encrypt"

/-- The text of the private key, the number of key pairs made, the length of public keys, and the
operations that fail. -/
structure ToyKeyring where
  key : Option String := none
  made : Nat := 0
  publicLength : Nat := 160
  failing : List KeyOperation := []
  deriving DecidableEq

namespace ToyKeyring

/-- Fail if the operation is to. -/
def attempt (r : ToyKeyring) (operation : KeyOperation) : Except Error Unit :=
  if operation ∈ r.failing then .error (.keys (.staged operation.text)) else .ok ()

/-- The next key pair; all public halves are alike. -/
def generate (r : ToyKeyring) : Except Error Bytes × ToyKeyring :=
  match r.attempt .generate with
  | .error e => (.error e, r)
  | .ok () =>
    let made := r.made + 1
    (.ok (List.replicate r.publicLength 0x5A),
      { r with key := some s!"fake-private-key-{made}", made })

/-- The text of the key. -/
def held (r : ToyKeyring) : Except Error String :=
  match r.key with
  | none => .error (.keys .noPrivateKey)
  | some text => .ok text

/-- The text of the key. -/
def save (r : ToyKeyring) : Except Error String := do
  r.attempt .save
  r.held

/-- Hold any text as the key. -/
def load (r : ToyKeyring) (text : String) : Except Error ToyKeyring := do
  r.attempt .load
  return { r with key := some text }

/-- The bytes from last to first. -/
def unwrap (r : ToyKeyring) (bs : Bytes) : Except Error Bytes := do
  r.attempt .unwrap
  let _ ← r.save
  return bs.reverse

/-- The bytes masked with the session key, which is repeated as often as need be. -/
def encrypt (r : ToyKeyring) (key : SessionKey) (bs : Bytes) : Except Error Bytes := do
  r.attempt .encrypt
  return Bytes.xor bs (List.replicate (bs.length / key.bytes.length + 1) key.bytes).flatten

end ToyKeyring

instance : Keyring ToyKeyring where
  generate := ToyKeyring.generate
  save := ToyKeyring.save
  load := ToyKeyring.load
  unwrap := ToyKeyring.unwrap
  encrypt := ToyKeyring.encrypt

end EncryptedBackup
