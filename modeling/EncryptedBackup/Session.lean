/-
Sessions: who a client is to its server and which key they share. A session changes only by the
operations of a handshake; it keeps what it has become when one of them fails.
-/
import EncryptedBackup.Keyring
import EncryptedBackup.Identity

namespace EncryptedBackup

/-- Where a client stands with its server. -/
inductive Phase where
  | unregistered
  | registering
  /-- Registered, with a key of its own if the exchange of keys succeeded. -/
  | registered
  /-- An identity was loaded, which the server has not confirmed. -/
  | hasIdentity
  | reconnecting
  | connected
  deriving DecidableEq

/-- The words for a phase. -/
def Phase.text : Phase → String
  | .unregistered => "unregistered"
  | .registering => "registering"
  | .registered => "registered"
  | .hasIdentity => "has identity"
  | .reconnecting => "reconnecting"
  | .connected => "connected"

/-- A client's side of a session; `store` is the file that keeps its identity. -/
structure Session (κ : Type) where
  name : String
  clientId : ClientId
  key : Option SessionKey
  phase : Phase
  keyring : κ
  store : Path

namespace Session

variable {κ : Type}

/-- The session of a client that has never registered. -/
def fresh (name : String) (keyring : κ) (store : Path) : Session κ :=
  { name, clientId := .unset, key := none, phase := .unregistered, keyring, store }

/-- The session of a client with a saved identity. -/
def resume [Keyring κ] (identity : Identity) (keyring : κ) (store : Path) :
    Except Error (Session κ) := do
  let keyring ← Keyring.load keyring identity.privateKey
  return { name := identity.name, clientId := identity.clientId, key := none,
           phase := .hasIdentity, keyring, store }

/-- Is a handshake complete and a key held? -/
def isEstablished (s : Session κ) : Bool :=
  (s.phase == .registered || s.phase == .connected) && s.key.isSome

end Session

end EncryptedBackup
