/-
Uploads: send a file slice by slice, encrypted, and settle with the server whether it arrived. All
is sent again as long as the checksums differ, four times at most; each comparison ends in a verdict
that the server is told.
-/
import EncryptedBackup.Handshake
import EncryptedBackup.Slicer

namespace EncryptedBackup

/-- How a file is sent. -/
structure UploadOptions where
  sliceSize : Nat := 1024
  showProgress : Bool := true
  deriving DecidableEq

/-- What is known of an upload that the server confirmed. -/
structure Report where
  fileName : String
  bytes : Nat
  packets : UInt16
  attempts : Nat
  checksum : UInt32
  elapsed : Duration
  deriving DecidableEq

/-- The words for a confirmed upload. -/
def Report.text (r : Report) : String :=
  let size := s!"{r.bytes} bytes, {r.packets} chunks, checksum {r.checksum}"
  s!"✓ {r.fileName} backed up ({size}) in {r.elapsed.text}"

/-- What stays the same through all attempts of an upload. -/
structure Upload (κ : Type) where
  keyring : κ
  clientId : ClientId
  key : SessionKey
  fileName : String
  bytes : Nat
  packets : UInt16
  checksum : UInt32
  started : Nat
  showProgress : Bool

namespace Upload

/-- How often a file is sent again before the client gives up. -/
def maxResends : Nat := 3

/-- The greatest number of packets that their counter can tell apart. -/
def maxPackets : Nat := 65535

variable {κ : Type} {m : Type → Type} {File : Type} [Monad m] [Machine m File]

/-- Tell the server how the checksums compare. -/
def tell (u : Upload κ) (verdict : RequestCode) : Act m Unit := do
  sendRequest (← Act.ofExcept (Request.plain u.clientId verdict u.fileName))

/-- Read an acknowledgement; anything else the server says in its place is taken for one. -/
def readAcknowledgement : Act m Unit := do
  let response ← readResponse
  if response.code ≠ .messageReceived then Act.log (.notAcknowledged response.code)

/-- Show how far an attempt is. -/
def showSent (u : Upload κ) (sent : UInt16) : Act m Unit := do
  if u.showProgress then Act.sure (Machine.progress sent.toNat u.packets.toNat)

/-- What is known once the server has confirmed the given attempt. -/
def report (u : Upload κ) (attempt finished : Nat) : Report :=
  { fileName := u.fileName, bytes := u.bytes, packets := u.packets, attempts := attempt
    checksum := u.checksum, elapsed := .ofNanos (finished - u.started) }

variable [Keyring κ]

/-- The request with a slice. -/
def packetRequest (u : Upload κ) (number : UInt16) (slice : Bytes) : Except Error Request := do
  let ciphertext ← Keyring.encrypt u.keyring u.key slice
  let packet ← Packet.make number u.packets u.fileName slice.length ciphertext
  Request.packet u.clientId packet

/-- Send up to `left` more slices, of which `sent` have gone before. -/
def sendSlices (u : Upload κ) :
    (left : Nat) → (sent : UInt16) → Slicer File → Act m (UInt16 × Slicer File)
  | 0, sent, s => return (sent, s)
  | left + 1, sent, s => do
    let (outcome, s) ← Act.sure s.next
    match ← Act.ofExcept outcome with
    | none => return (sent, s)
    | some slice =>
      sendRequest (← Act.ofExcept (u.packetRequest (sent + 1) slice))
      u.showSent (sent + 1)
      u.sendSlices left (sent + 1) s

/-- Send the whole file once; gives the checksum that the server answers with. -/
def sendAll (u : Upload κ) (s : Slicer File) : Act m (UInt32 × Slicer File) := do
  let (outcome, s) ← Act.sure s.rewind
  Act.ofExcept outcome
  u.showSent 0
  let (sent, s) ← u.sendSlices s.slices 0 s
  Act.log (.allSent sent)
  let response ← readResponse
  return (← Act.ofExcept response.checksum, s)

/-- Send the file until the server's checksum is ours, up to `resends` times after this one, which
is number `attempt`. -/
def settle (u : Upload κ) : (resends attempt : Nat) → Slicer File → Act m Report
  | resends, attempt, s => do
    let (theirs, s) ← u.sendAll s
    if theirs = u.checksum then
      u.tell .checksumMatches
      readAcknowledgement
      let report := u.report attempt (← Act.sure Machine.clock)
      Act.log (.checksumConfirmed attempt report.elapsed)
      return report
    else
      Act.log (.checksumsDiffer attempt u.checksum theirs)
      match resends with
      | 0 =>
        u.tell .checksumDiffersForGood
        readAcknowledgement
        throw (.checksumsDiffer attempt)
      | resends + 1 =>
        u.tell .checksumDiffers
        u.settle resends (attempt + 1) s

/-- Send a file in a session that holds a key. Everything that can be checked is, before the first
packet. -/
def sendFile (session : Session κ) (path : Path) (options : UploadOptions) : Act m Report := do
  let some key := session.key | throw (.keys .noSessionKey)
  let some name := path.fileName? | throw (.setup (.namesNoFile path.text))
  let fileName := Utf8.lossy name
  Act.ofExcept (Field.checkName Wire.nameWidth fileName)
  let slicer : Slicer File ← Slicer.openFile path options.sliceSize
  if maxPackets < slicer.slices then throw (.fileTooLarge slicer.slices maxPackets)
  let checksum ← fileChecksum path
  let packets := UInt16.ofNat slicer.slices
  Act.log (.sendingFile path slicer.length packets checksum)
  let upload : Upload κ :=
    { keyring := session.keyring, clientId := session.clientId, key, fileName
      bytes := slicer.length, packets, checksum, started := ← Act.sure Machine.clock
      showProgress := options.showProgress }
  upload.settle maxResends 1 slicer

end Upload

end EncryptedBackup
