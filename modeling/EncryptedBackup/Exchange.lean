/-
Requests out, responses in. A response is read to its end before anything about its body is
decided; an unknown code or a payload too large to read ends the reading behind the header.
-/
import EncryptedBackup.Machine

namespace EncryptedBackup

variable {m : Type → Type} {File : Type} [Monad m] [Machine m File]

/-- Write a request to the line. -/
def sendRequest (r : Request) : Act m Unit := do
  let bytes ← Act.ofExcept r.encode
  Act.log (.sendingRequest r.header.code r.header.payloadSize)
  Act.orElse .line (Machine.send bytes)

/-- Read so many bytes from the line. -/
def receiveBytes (n : Nat) : Act m Bytes :=
  Act.orElse .line (Machine.receive n)

/-- Read a response from the line. -/
def readResponse : Act m Response := do
  let header ← Act.ofExcept (ResponseHeader.decode (← receiveBytes ResponseHeader.length))
  let _ ← Act.ofExcept (ResponseCode.ofNumber header.code)
  let size := header.payloadSize.toNat
  if Response.maxPayload < size then throw (.payloadTooLarge size)
  let payload ← receiveBytes size
  let response ← Act.ofExcept (Response.decode header payload)
  Act.log (.answered response.code header.version header.payloadSize)
  return response

/-- Write a request and read what the server answers. -/
def exchange (r : Request) : Act m Response := do
  sendRequest r
  readResponse

/-- Close the line. A failure goes into the log and nowhere else. -/
def closeLine (peer : String) : m Unit := do
  match ← Machine.hangUp (m := m) with
  | .ok () => Machine.note (.closed peer)
  | .error fault => Machine.note (.closeFailed peer fault)

end EncryptedBackup
