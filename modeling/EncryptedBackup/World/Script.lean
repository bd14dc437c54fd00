/-
A server that follows a script: one reply for each frame, silence when the script is used up. It
remembers the last public key it was sent, so that a reply can hand out a session key.
-/
import EncryptedBackup.World.Line
import EncryptedBackup.Crypto.Oaep
import EncryptedBackup.Crypto.Rsa.Encoding
import EncryptedBackup.Crypto.Entropy

namespace EncryptedBackup

/-- What the server says to a frame. -/
inductive Reply where
  | silent
  | bytes (bs : Bytes)
  /-- A response whose key is this session key, encrypted to the last public key. -/
  | wrapped (version : UInt8) (code : ResponseCode) (clientId : ClientId) (sessionKey : Bytes)
  deriving DecidableEq

/-- The replies to come, the last public key field, and the supply of bytes for encryption. -/
structure Script where
  replies : List Reply := []
  publicField : Bytes := []
  source : Entropy := { seed := [] }
  deriving DecidableEq

namespace Script

/-- The key field of a frame, if it has one. -/
def keyField? (f : Frame) : Option Bytes :=
  if f.header.code = RequestCode.sendPublicKey.number then some (f.payload.drop Wire.nameWidth)
  else none

/-- A session key encrypted to the last public key; nothing if that is no key. -/
def wrap (s : Script) (sessionKey : Bytes) : Bytes × Script :=
  let (seed, source) := s.source.take Sha1.length
  let wrapped := do Oaep.encrypt? (← Rsa.PublicKey.decode? s.publicField) seed sessionKey
  (wrapped.getD [], { s with source })

/-- Give one reply. -/
def say (s : Script) : Reply → Bytes × Script
  | .silent => ([], s)
  | .bytes bs => (bs, s)
  | .wrapped version code clientId sessionKey =>
    let (encrypted, s) := s.wrap sessionKey
    (((Response.encode version code (.withKey clientId encrypted)).toOption).getD [], s)

/-- Take note of a frame and give the next reply. -/
def answer (s : Script) (f : Frame) : Bytes × Script :=
  let s := { s with publicField := (keyField? f).getD s.publicField }
  match s.replies with
  | [] => ([], s)
  | reply :: replies => say { s with replies } reply

instance : Server Script where
  accept s := s
  answer := answer

end Script

end EncryptedBackup
