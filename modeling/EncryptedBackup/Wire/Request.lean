/-
Requests, the messages of a client: a header of 23 bytes, then a body. A `Request` is one whose
body fits the size field of the header; its header follows from the rest.
-/
import EncryptedBackup.Wire.Field

namespace EncryptedBackup

namespace Wire

/-- The version of the protocol, in every header a client writes. -/
def version : UInt8 := 3

/-- The width of a name field. -/
def nameWidth : Nat := 255

/-- The width of the public key field. -/
def publicKeyWidth : Nat := 160

/-- The greatest number of bytes that the size field of a header can announce. -/
def maxPayload : Nat := 0xFFFFFFFF

end Wire

open Wire

/-! ## Codes -/

/-- What a client asks for or tells. -/
inductive RequestCode where
  | register
  | sendPublicKey
  | reconnect
  | sendFile
  | checksumMatches
  | checksumDiffers
  | checksumDiffersForGood
  deriving DecidableEq

namespace RequestCode

/-- The number of a code. -/
def number : RequestCode → UInt16
  | .register => 825
  | .sendPublicKey => 826
  | .reconnect => 827
  | .sendFile => 828
  | .checksumMatches => 900
  | .checksumDiffers => 901
  | .checksumDiffersForGood => 902

/-- The code with a number. -/
def ofNumber? (n : UInt16) : Option RequestCode :=
  [register, sendPublicKey, reconnect, sendFile, checksumMatches, checksumDiffers,
    checksumDiffersForGood].find? (·.number == n)

theorem ofNumber?_number (c : RequestCode) : ofNumber? c.number = some c := by
  cases c <;> decide

end RequestCode

/-! ## Headers -/

/-- The header of a request. -/
structure RequestHeader where
  clientId : ClientId
  version : UInt8
  code : UInt16
  payloadSize : UInt32
  deriving DecidableEq

namespace RequestHeader

/-- How many bytes a header has. -/
def length : Nat := 23

/-- The bytes of a header. -/
def encode (h : RequestHeader) : Bytes :=
  h.clientId.bytes ++ (Field.ofOctet h.version ++ (Field.ofWord h.code ++ Field.ofLong h.payloadSize))

/-- The header at the start of a buffer. -/
def decode (buffer : Bytes) : Except Error RequestHeader := do
  let (clientId, offset) ← Field.clientId buffer 0
  let (version, offset) ← Field.octet buffer offset
  let (code, offset) ← Field.word buffer offset
  let (payloadSize, _) ← Field.long buffer offset
  return { clientId, version, code, payloadSize }

@[simp] theorem encode_length (h : RequestHeader) : h.encode.length = length := by
  simp [encode, length, h.clientId.length_eq, Field.ofOctet, Field.ofWord, Field.ofLong]

end RequestHeader

/-! ## Bodies -/

/-- One encrypted slice of a file, with its place among the packets. -/
structure Packet where
  contentSize : UInt32
  plainSize : UInt32
  number : UInt16
  total : UInt16
  fileName : String
  ciphertext : Bytes
  deriving DecidableEq

namespace Packet

/-- How many bytes of a packet are not ciphertext. -/
def overhead : Nat := 4 + 4 + 2 + 2 + nameWidth

/-- A packet whose name and sizes fit their fields. -/
def make (number total : UInt16) (fileName : String) (plainSize : Nat) (ciphertext : Bytes) :
    Except Error Packet := do
  Field.checkName nameWidth fileName
  if maxPayload < ciphertext.length then throw (.payloadTooLarge ciphertext.length)
  if maxPayload < plainSize then throw (.payloadTooLarge plainSize)
  return { contentSize := .ofNat ciphertext.length, plainSize := .ofNat plainSize, number,
           total, fileName, ciphertext }

/-- The bytes of everything but the ciphertext. -/
def encodeFields (p : Packet) : Except Error Bytes := do
  let name ← Field.ofName nameWidth p.fileName
  return Field.ofLong p.contentSize ++ (Field.ofLong p.plainSize ++
    (Field.ofWord p.number ++ (Field.ofWord p.total ++ name)))

/-- The packet that a body holds. -/
def decode (body : Bytes) : Except Error Packet := do
  let (contentSize, offset) ← Field.long body 0
  let (plainSize, offset) ← Field.long body offset
  let (number, offset) ← Field.word body offset
  let (total, offset) ← Field.word body offset
  let (fileName, offset) ← Field.name body offset nameWidth
  return { contentSize, plainSize, number, total, fileName, ciphertext := body.drop offset }

end Packet

/-- The body of a request, by layout. -/
inductive RequestBody where
  | plain (name : String)
  | withKey (name : String) (publicKey : Bytes)
  | packet (p : Packet)
  deriving DecidableEq

namespace RequestBody

/-- How many bytes a body is announced with. The key field counts in full, whatever the key. -/
def announcedLength : RequestBody → Nat
  | .plain _ => nameWidth
  | .withKey _ _ => nameWidth + publicKeyWidth
  | .packet p => Packet.overhead + p.ciphertext.length

/-- The bytes of a body. -/
def encode : RequestBody → Except Error Bytes
  | .plain name => Field.ofName nameWidth name
  | .withKey name publicKey => do
    let field ← Field.ofName nameWidth name
    return field ++ publicKey
  | .packet p => do
    let fields ← p.encodeFields
    return fields ++ p.ciphertext

end RequestBody

/-! ## Requests -/

/-- A request that can be announced. -/
structure Request where
  clientId : ClientId
  code : RequestCode
  body : RequestBody
  fits : body.announcedLength ≤ maxPayload

namespace Request

/-- The request with this body, if it can be announced. -/
def ofBody (clientId : ClientId) (code : RequestCode) (body : RequestBody) :
    Except Error Request :=
  if h : body.announcedLength ≤ maxPayload then .ok ⟨clientId, code, body, h⟩
  else .error (.payloadTooLarge body.announcedLength)

/-- A request that carries no more than a name. -/
def plain (clientId : ClientId) (code : RequestCode) (name : String) : Except Error Request := do
  Field.checkName nameWidth name
  ofBody clientId code (.plain name)

/-- The request that carries a client's public key. -/
def publicKey (clientId : ClientId) (name : String) (key : Bytes) : Except Error Request := do
  Field.checkName nameWidth name
  if key.length ≠ publicKeyWidth then throw (.publicKeyLength publicKeyWidth key.length)
  ofBody clientId .sendPublicKey (.withKey name key)

/-- The request that carries a packet. -/
def packet (clientId : ClientId) (p : Packet) : Except Error Request := do
  Field.checkName nameWidth p.fileName
  ofBody clientId .sendFile (.packet p)

/-- The header of a request. -/
def header (r : Request) : RequestHeader :=
  { clientId := r.clientId, version := Wire.version, code := r.code.number
    payloadSize := .ofNat r.body.announcedLength }

/-- The bytes of a request: its header, then its body. -/
def encode (r : Request) : Except Error Bytes := do
  let body ← r.body.encode
  return r.header.encode ++ body

end Request

/-! ## The receiving side -/

/-- A whole request as the server takes it from the line. -/
structure Frame where
  header : RequestHeader
  payload : Bytes
  deriving DecidableEq

namespace Frame

/-- The bytes of a frame. -/
def encode (f : Frame) : Bytes := f.header.encode ++ f.payload

/-- The first whole frame of a stream and what follows it, if it is all there. -/
def take? (stream : Bytes) : Option (Frame × Bytes) :=
  match RequestHeader.decode stream with
  | .error _ => none
  | .ok header =>
    let rest := stream.drop RequestHeader.length
    let size := header.payloadSize.toNat
    if size ≤ rest.length then some (⟨header, rest.take size⟩, rest.drop size) else none

/-- Cut a stream into whole frames; what is left is the start of one. -/
def cut (stream : Bytes) : List Frame × Bytes :=
  go stream.length stream
where
  /-- The first argument bounds the number of frames. -/
  go : Nat → Bytes → List Frame × Bytes
    | 0, stream => ([], stream)
    | fuel + 1, stream =>
      match take? stream with
      | none => ([], stream)
      | some (frame, rest) =>
        let (frames, left) := go fuel rest
        (frame :: frames, left)

end Frame

end EncryptedBackup
