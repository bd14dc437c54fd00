/-
Handshakes: register with a server, exchange keys, or reconnect, until a session key is held. Each
step sends the same request up to three times. A client that its server has forgotten registers
again.
-/
import EncryptedBackup.Session
import EncryptedBackup.Exchange

namespace EncryptedBackup

/-- Something done on a machine with a session at hand. An error keeps the session as it has
become. -/
abbrev Handshake (κ : Type) (m : Type → Type) := ExceptT Error (StateT (Session κ) m)

namespace Handshake

/-- How often a request of a handshake is sent. -/
def maxTries : Nat := 3

variable {κ : Type} {m : Type → Type} {File α : Type} [Monad m]

/-- Something done on the machine alone. -/
def perform (x : Act m α) : Handshake κ m α :=
  ExceptT.mk (StateT.lift x.run)

/-- An outcome as a step. -/
def settle (x : Except Error α) : Handshake κ m α :=
  ExceptT.mk (pure x)

/-- Do something up to `left` times, with the number of each time from `attempt` on, until it has
a result. -/
def retry (body : Nat → Handshake κ m (Option α)) :
    (left : Nat) → (attempt : Nat) → Handshake κ m (Option α)
  | 0, _ => return none
  | left + 1, attempt => do
    match ← body attempt with
    | some a => return some a
    | none => retry body left (attempt + 1)

/-- Change the phase of the session. -/
def enter (phase : Phase) : Handshake κ m Unit :=
  modify fun s => { s with phase }

variable [Machine m File]

/-- Put an event into the log. -/
def log (e : Event) : Handshake κ m Unit :=
  perform (Act.log e)

variable [Keyring κ]

/-- Take the session key that the server encrypted to the key pair. -/
def adoptKey (encrypted : Bytes) : Handshake κ m Unit := do
  let bytes ← settle (Keyring.unwrap (← get).keyring encrypted)
  let key ← settle (SessionKey.ofBytes bytes)
  modify fun s => { s with key := some key }

/-- Save the identity of the session. -/
def saveIdentity : Handshake κ m Unit := do
  let s ← get
  let privateKey ← settle (Keyring.save s.keyring)
  perform (Identity.store s.store { name := s.name, clientId := s.clientId, privateKey })
  log (.identitySaved s.store)

/-- Make a key pair and keep its private half. -/
def makeKeyPair : Handshake κ m Bytes := do
  let s ← get
  let (made, keyring) := Keyring.generate s.keyring
  set { s with keyring }
  settle made

/-- Send a fresh public key and take the session key that the server answers with. -/
def sendPublicKey : Handshake κ m Unit := do
  let publicKey ← makeKeyPair
  let s ← get
  let request ← settle (Request.publicKey s.clientId s.name publicKey)
  log .publicKeyMade
  let taken ← retry (fun attempt => do
    let response ← perform (exchange request)
    if response.code = .publicKeyReceived then
      adoptKey (← settle response.encryptedKey)
      log .sessionKeyReceived
      return some ()
    else
      log (.publicKeyRejected attempt response.code)
      return none) maxTries 1
  if taken.isNone then throw (.keyExchangeFailed maxTries)

/-- Register the name, exchange keys and save the new identity. -/
def register (peer : String) : Handshake κ m Unit := do
  log (.registering peer (← get).name)
  enter .registering
  let s ← get
  let request ← settle (Request.plain s.clientId .register s.name)
  let assigned ← retry (fun attempt => do
    let response ← perform (exchange request)
    if response.code = .registered then
      return some (← settle response.clientId)
    else
      log (.registrationRejected attempt response.code)
      return none) maxTries 1
  match assigned with
  | none =>
    enter .unregistered
    throw (.registrationFailed maxTries)
  | some clientId =>
    modify fun s => { s with clientId, phase := .registered }
    log (.registered clientId)
    sendPublicKey
    saveIdentity

/-- How a server that answers a reconnection in so many words takes it. -/
inductive Reception where
  | resumed
  | forgotten

/-- Resume a saved identity; a client that the server has forgotten registers again. -/
def reconnect (peer : String) : Handshake κ m Unit := do
  let s ← get
  log (.reconnecting peer s.name s.clientId)
  enter .reconnecting
  let request ← settle (Request.plain s.clientId .reconnect s.name)
  let received ← retry (fun attempt => do
    let response ← perform (exchange request)
    match response.code with
    | .reconnected =>
      adoptKey (← settle response.encryptedKey)
      return some Reception.resumed
    | .reconnectionFailed => return some Reception.forgotten
    | code =>
      log (.reconnectionAnswered attempt code)
      return none) maxTries 1
  match received with
  | some .resumed =>
    enter .connected
    log .reconnected
  | some .forgotten =>
    log .forgotten
    modify fun s => { s with clientId := .unset, key := none }
    register peer
  | none =>
    enter .hasIdentity
    throw (.reconnectionRefused maxTries)

/-- Reconnect with a saved identity, register without one. -/
def establish (peer : String) : Handshake κ m Unit := do
  match (← get).phase with
  | .hasIdentity => reconnect peer
  | _ => register peer

end Handshake

end EncryptedBackup
