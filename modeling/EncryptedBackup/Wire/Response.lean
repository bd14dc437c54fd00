/-
Responses, the messages of the server: a header of seven bytes, then a body whose layout follows
from the code alone. Bytes behind what the layout needs are ignored.
-/
import EncryptedBackup.Wire.Request

namespace EncryptedBackup

open Wire

/-! ## Codes -/

/-- What the server answers. -/
inductive ResponseCode where
  | registered
  | registrationFailed
  | publicKeyReceived
  | fileReceived
  | messageReceived
  | reconnected
  | reconnectionFailed
  | generalIssue
  deriving DecidableEq

namespace ResponseCode

/-- The number of a code. -/
def number : ResponseCode → UInt16
  | .registered => 1600
  | .registrationFailed => 1601
  | .publicKeyReceived => 1602
  | .fileReceived => 1603
  | .messageReceived => 1604
  | .reconnected => 1605
  | .reconnectionFailed => 1606
  | .generalIssue => 1607

/-- What a code means. -/
def meaning : ResponseCode → String
  | .registered => "Successful Registration"
  | .registrationFailed => "Registration Failed"
  | .publicKeyReceived => "Public Key Received"
  | .fileReceived => "File Received"
  | .messageReceived => "Message Received"
  | .reconnected => "Successful Reconnection"
  | .reconnectionFailed => "Reconnection Failed"
  | .generalIssue => "General Issue"

/-- A code with its meaning, as messages show it. -/
def text (c : ResponseCode) : String := s!"{c.number} ({c.meaning})"

/-- The code with a number. -/
def ofNumber (n : UInt16) : Except Error ResponseCode :=
  match [registered, registrationFailed, publicKeyReceived, fileReceived, messageReceived,
    reconnected, reconnectionFailed, generalIssue].find? (·.number == n) with
  | some c => .ok c
  | none => .error (.unknownResponse n)

theorem ofNumber_number (c : ResponseCode) : ofNumber c.number = .ok c := by
  cases c <;> rfl

end ResponseCode

/-! ## Headers -/

/-- The header of a response. -/
structure ResponseHeader where
  version : UInt8
  code : UInt16
  payloadSize : UInt32
  deriving DecidableEq

namespace ResponseHeader

/-- How many bytes a header has. -/
def length : Nat := 7

/-- The bytes of a header. -/
def encode (h : ResponseHeader) : Bytes :=
  Field.ofOctet h.version ++ (Field.ofWord h.code ++ Field.ofLong h.payloadSize)

/-- The header at the start of a buffer. -/
def decode (buffer : Bytes) : Except Error ResponseHeader := do
  let (version, offset) ← Field.octet buffer 0
  let (code, offset) ← Field.word buffer offset
  let (payloadSize, _) ← Field.long buffer offset
  return { version, code, payloadSize }

@[simp] theorem encode_length (h : ResponseHeader) : h.encode.length = length := by
  simp [encode, length, Field.ofOctet, Field.ofWord, Field.ofLong]

end ResponseHeader

/-! ## Bodies -/

/-- The body of a response, by layout. -/
inductive ResponseBody where
  /-- Failures and acknowledgements may leave the id out. -/
  | bare (clientId : Option ClientId)
  | withKey (clientId : ClientId) (encryptedKey : Bytes)
  | checksum (clientId : ClientId) (contentSize : UInt32) (fileName : String) (sum : UInt32)
  deriving DecidableEq

namespace ResponseBody

/-- The body that a payload holds under a code. -/
def decode (code : ResponseCode) (payload : Bytes) : Except Error ResponseBody :=
  match code with
  | .fileReceived => do
    let (clientId, offset) ← Field.clientId payload 0
    let (contentSize, offset) ← Field.long payload offset
    let (fileName, offset) ← Field.name payload offset nameWidth
    let (sum, _) ← Field.long payload offset
    return .checksum clientId contentSize fileName sum
  | .publicKeyReceived | .reconnected => do
    let (clientId, offset) ← Field.clientId payload 0
    return .withKey clientId (payload.drop offset)
  | _ => .ok (.bare (ClientId.ofBytes? (payload.take ClientId.length)))

/-- The bytes of a body. A file name too long for its field is cut. -/
def encode : ResponseBody → Bytes
  | .bare none => []
  | .bare (some clientId) => clientId.bytes
  | .withKey clientId encryptedKey => clientId.bytes ++ encryptedKey
  | .checksum clientId contentSize fileName sum =>
    clientId.bytes ++ (Field.ofLong contentSize ++
      (Field.padded nameWidth (Utf8.encode fileName) ++ Field.ofLong sum))

end ResponseBody

/-! ## Responses -/

/-- A response that was understood. -/
structure Response where
  header : ResponseHeader
  code : ResponseCode
  body : ResponseBody
  deriving DecidableEq

namespace Response

/-- The greatest payload that is read: the largest legitimate one is a key. -/
def maxPayload : Nat := 65536

/-- The response with this header and payload. -/
def decode (header : ResponseHeader) (payload : Bytes) : Except Error Response := do
  let code ← ResponseCode.ofNumber header.code
  let body ← ResponseBody.decode code payload
  return { header, code, body }

/-- The bytes of a response as the server frames it. -/
def encode (version : UInt8) (code : ResponseCode) (body : ResponseBody) : Except Error Bytes :=
  let payload := body.encode
  if payload.length ≤ Wire.maxPayload then
    let header : ResponseHeader :=
      { version, code := code.number, payloadSize := .ofNat payload.length }
    .ok (header.encode ++ payload)
  else .error (.payloadTooLarge payload.length)

/-- The id that a response carries. -/
def clientId (r : Response) : Except Error ClientId :=
  match r.body with
  | .bare (some id) | .withKey id _ | .checksum id _ _ _ => .ok id
  | .bare none => .error (.notCarried r.code.number "client id")

/-- The checksum that a response carries. -/
def checksum (r : Response) : Except Error UInt32 :=
  match r.body with
  | .checksum _ _ _ sum => .ok sum
  | _ => .error (.notCarried r.code.number "checksum")

/-- The encrypted session key that a response carries. -/
def encryptedKey (r : Response) : Except Error Bytes :=
  match r.body with
  | .withKey _ key => .ok key
  | _ => .error (.notCarried r.code.number "encrypted key")

end Response

end EncryptedBackup
