/-
A server that keeps what it is sent. It gives out ids by a counter and a session key for each exchange
of keys, decrypts packets, answers the last of a file with a checksum, and keeps the file once its
client confirms the checksum. It says nothing to frames that make no sense to it.
-/
import EncryptedBackup.World.Line
import EncryptedBackup.Keyring
import EncryptedBackup.Checksum

namespace EncryptedBackup

/-- A server with its clients and their files. `wrap` encrypts a session key to a public key field
and `sessionKeys` has the keys of all exchanges to come; `key` and `collected` belong to the client
that is on the line. -/
structure Archive where
  wrap : (publicField : Bytes) → SessionKey → Bytes
  sessionKeys : (exchange : Nat) → SessionKey
  exchanges : Nat := 0
  /-- How many ids were given out. -/
  assigned : Nat := 0
  /-- The public key field of each client, newest first. -/
  clients : List (ClientId × Bytes) := []
  /-- How many of the checksums to come are misreported. -/
  misreports : Nat := 0
  key : Option SessionKey := none
  /-- What was decrypted of the file under way. -/
  collected : Bytes := []
  /-- The files kept, with their names, oldest first. -/
  files : List (String × Bytes) := []

namespace Archive

/-! ## Clients and keys -/

/-- The id that is given out as number `n`, which is kept in one byte: that byte throughout. -/
def idOf (n : Nat) : ClientId := ⟨List.replicate ClientId.length (.ofNat n), List.length_replicate⟩

/-- The bytes of a response. -/
def say (code : ResponseCode) (body : ResponseBody) : Bytes :=
  ((Response.encode Wire.version code body).toOption).getD []

/-- Give out an id. -/
def register (a : Archive) : Bytes × Archive :=
  let a := { a with assigned := a.assigned + 1 }
  (say .registered (.bare (some (idOf a.assigned))), a)

/-- Give a client a session key, encrypted to its public key. -/
def exchangeKeys (a : Archive) (code : ResponseCode) (id : ClientId) (publicField : Bytes) :
    Bytes × Archive :=
  let key := a.sessionKeys a.exchanges
  (say code (.withKey id (a.wrap publicField key)),
    { a with key := some key, exchanges := a.exchanges + 1 })

/-- Take a client's public key. -/
def takeKey (a : Archive) (id : ClientId) (publicField : Bytes) : Bytes × Archive :=
  { a with clients := (id, publicField) :: a.clients }.exchangeKeys .publicKeyReceived id publicField

/-- Take a client on again, if its public key is known. -/
def reconnect (a : Archive) (id : ClientId) : Bytes × Archive :=
  match a.clients.lookup id with
  | some publicField => a.exchangeKeys .reconnected id publicField
  | none => (say .reconnectionFailed (.bare (some id)), a)

/-! ## Files -/

/-- The checksum that is reported: a wrong one as long as there are misreports left. -/
def reported (a : Archive) : UInt32 :=
  let sum := checksum a.collected
  if a.misreports = 0 then sum else sum ^^^ 0xDEAD

/-- Report the checksum of what was collected. -/
def report (a : Archive) (id : ClientId) (fileName : String) : Bytes × Archive :=
  (say .fileReceived (.checksum id (.ofNat a.collected.length) fileName a.reported),
    { a with misreports := a.misreports - 1 })

/-- The plaintext of a packet under the key of the client on the line. -/
def plaintext? (a : Archive) (p : Packet) : Option Bytes := do
  (← a.key).decrypt? p.ciphertext

/-- Take a packet, and report on the file if it is the last. -/
def takePacket (a : Archive) (id : ClientId) (p : Packet) : Bytes × Archive :=
  match a.plaintext? p with
  | none => ([], a)
  | some bs =>
    let a := { a with collected := a.collected ++ bs }
    if p.number = p.total then a.report id p.fileName else ([], a)

/-- Keep what was collected as a file. -/
def keep (a : Archive) (fileName : String) : Archive :=
  { a with files := a.files ++ [(fileName, a.collected)], collected := [] }

/-- Drop what was collected. -/
def drop (a : Archive) : Archive := { a with collected := [] }

/-! ## Answering -/

/-- The acknowledgement. -/
def acknowledgement : Bytes := say .messageReceived (.bare none)

/-- Answer a frame. -/
def answer (a : Archive) (f : Frame) : Bytes × Archive :=
  let id := f.header.clientId
  match RequestCode.ofNumber? f.header.code with
  | none => ([], a)
  | some .register => a.register
  | some .sendPublicKey => a.takeKey id (f.payload.drop Wire.nameWidth)
  | some .reconnect => a.reconnect id
  | some .sendFile =>
    match Packet.decode f.payload with
    | .ok p => a.takePacket id p
    | .error _ => ([], a)
  | some .checksumMatches =>
    match Field.name f.payload 0 Wire.nameWidth with
    | .ok (fileName, _) => (acknowledgement, a.keep fileName)
    | .error _ => ([], a)
  | some .checksumDiffers => ([], a.drop)
  | some .checksumDiffersForGood => (acknowledgement, a.drop)

/-- A new client is on the line. -/
def accept (a : Archive) : Archive := { a with key := none, collected := [] }

instance : Server Archive where
  accept := accept
  answer := answer

end Archive

end EncryptedBackup
