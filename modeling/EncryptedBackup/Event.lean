/-
The events a client logs, as data. What a reader of the log sees follows from them: a level, a
message, and fields by name.
-/
import EncryptedBackup.ClientId
import EncryptedBackup.Path
import EncryptedBackup.Text.Duration
import EncryptedBackup.Wire.Response

namespace EncryptedBackup

/-- How much an event matters. -/
inductive Level where
  | debug
  | info
  | warning
  deriving DecidableEq

/-- The words for a level. -/
def Level.text : Level → String
  | .debug => "DEBUG"
  | .info => "INFO"
  | .warning => "WARN"

/-- Something worth a line in the log. -/
inductive Event where
  | sendingRequest (code : UInt16) (payloadSize : UInt32)
  | answered (code : ResponseCode) (version : UInt8) (payloadSize : UInt32)
  | connected (peer : String)
  | closed (peer : String)
  | closeFailed (peer : String) (fault : Fault)
  | noIdentity (name : String)
  | namesDiffer (identityPath jobPath : Path) (saved configured : String)
  | identityWritten (path : Path)
  | identitySaved (path : Path)
  | registering (peer name : String)
  | registrationRejected (attempt : Nat) (code : ResponseCode)
  | registered (clientId : ClientId)
  | publicKeyMade
  | publicKeyRejected (attempt : Nat) (code : ResponseCode)
  | sessionKeyReceived
  | reconnecting (peer name : String) (clientId : ClientId)
  | reconnectionAnswered (attempt : Nat) (code : ResponseCode)
  | reconnected
  | forgotten
  | sendingFile (path : Path) (bytes : Nat) (packets : UInt16) (checksum : UInt32)
  | allSent (packets : UInt16)
  | checksumConfirmed (attempts : Nat) (elapsed : Duration)
  | checksumsDiffer (attempt : Nat) (ours theirs : UInt32)
  | notAcknowledged (code : ResponseCode)
  deriving DecidableEq

namespace Event

/-- How much an event matters. -/
def level : Event → Level
  | sendingRequest .. | answered .. | closed .. | identityWritten .. | publicKeyMade
  | allSent .. => .debug
  | closeFailed .. | namesDiffer .. | registrationRejected .. | publicKeyRejected ..
  | reconnectionAnswered .. | forgotten | checksumsDiffer .. | notAcknowledged .. => .warning
  | connected .. | noIdentity .. | identitySaved .. | registering .. | registered ..
  | sessionKeyReceived | reconnecting .. | reconnected | sendingFile .. | checksumConfirmed .. =>
    .info

/-- The message of an event; `shown` has the words for a length of time. -/
def message (shown : Duration → String) : Event → String
  | sendingRequest .. => "Sending request"
  | answered code .. => s!"Server responded with code {code.text}"
  | connected peer => s!"Connected to {peer}"
  | closed _ => "Connection closed"
  | closeFailed _ fault => s!"Error while closing the connection: {fault.message}"
  | noIdentity _ => "No saved identity, this client will register"
  | namesDiffer identityPath jobPath _ _ =>
    s!"Name in {identityPath.text} differs from {jobPath.text}, using the saved one"
  | identityWritten _ | identitySaved _ => "Identity saved"
  | registering peer _ => s!"Registering with {peer}"
  | registrationRejected _ code => s!"Registration rejected with {code.text}"
  | registered _ => "Registered"
  | publicKeyMade => "Public key generated"
  | publicKeyRejected _ code => s!"Public key rejected with {code.text}"
  | sessionKeyReceived => "Session key received"
  | reconnecting peer _ _ => s!"Reconnecting to {peer}"
  | reconnectionAnswered _ code => s!"Reconnection answered with {code.text}"
  | reconnected => "Reconnected"
  | forgotten => "Server does not recognize this client, registering again"
  | sendingFile .. => "Sending file"
  | allSent _ => "All chunks sent, waiting for checksum"
  | checksumConfirmed _ elapsed => s!"Checksum confirmed, transfer finished in {shown elapsed}"
  | checksumsDiffer .. => "Checksum mismatch"
  | notAcknowledged code => s!"Expected an acknowledgement, server sent {code.text}"

/-- The fields of an event. -/
def fields : Event → List (String × String)
  | sendingRequest code payloadSize =>
    [("code", s!"{code}"), ("payload_size", s!"{payloadSize}")]
  | answered _ version payloadSize =>
    [("version", s!"{version}"), ("payload_size", s!"{payloadSize}")]
  | closed peer | closeFailed peer _ => [("peer", peer)]
  | noIdentity name | registering _ name => [("name", name)]
  | namesDiffer _ _ saved configured => [("saved", saved), ("configured", configured)]
  | identityWritten path | identitySaved path => [("path", path.text)]
  | registrationRejected attempt _ | publicKeyRejected attempt _ | reconnectionAnswered attempt _ =>
    [("attempt", s!"{attempt}")]
  | registered clientId => [("client_id", clientId.text)]
  | reconnecting _ name clientId => [("name", name), ("client_id", clientId.text)]
  | sendingFile path bytes packets checksum =>
    [("file", path.text), ("bytes", s!"{bytes}"), ("chunks", s!"{packets}"),
      ("checksum", s!"{checksum}")]
  | allSent packets => [("chunks", s!"{packets}")]
  | checksumConfirmed attempts _ => [("attempts", s!"{attempts}")]
  | checksumsDiffer attempt ours theirs =>
    [("attempt", s!"{attempt}"), ("local", s!"{ours}"), ("server", s!"{theirs}")]
  | connected _ | publicKeyMade | sessionKeyReceived | reconnected | forgotten
  | notAcknowledged _ => []

/-- Is an event shown? Those that only matter for debugging are when the log is verbose. -/
def isShown (verbose : Bool) (e : Event) : Bool :=
  verbose || e.level != .debug

/-- An event as one line: its level, its message, and its fields. -/
def line (e : Event) : String :=
  let fields := e.fields.map fun (name, value) => s!" {name}={value}"
  s!"{e.level.text} {e.message Duration.text}{String.join fields}"

end Event

end EncryptedBackup
