/-
Why an operation failed, as a cause and not as a text; `Error.message` has the words.
-/
import EncryptedBackup.Fault
import EncryptedBackup.Text.Quoted
import EncryptedBackup.Text.Hex
import EncryptedBackup.Text.Decimal

namespace EncryptedBackup

/-! ## Causes with parts of their own -/

/-- Why a text is no client id. -/
inductive ClientIdDefect where
  | badHex (text : String) (defect : Text.Hex.Defect)
  | wrongLength (length : Nat)
  deriving DecidableEq

/-- Why a text describes no job. -/
inductive JobDefect where
  | noAddress
  | noName
  | noFile
  | badPort (text : String) (defect : Text.Decimal.Defect)
  | noHost
  deriving DecidableEq

/-- Which line of a saved identity is missing or blank. -/
inductive IdentityDefect where
  | noName
  | noClientId
  | noPrivateKey
  deriving DecidableEq

/-- What is wrong with what the user set up. File names are as shown, not as stored. -/
inductive SetupDefect where
  | unreadable (path : String) (fault : Fault)
  | job (path : String) (defect : JobDefect)
  | identity (path : String) (defect : IdentityDefect)
  | clientId (defect : ClientIdDefect)
  | namesNoFile (path : String)
  | sliceSize (max size : Nat)
  deriving DecidableEq

/-- Why an operation on keys failed. -/
inductive KeyDefect where
  | noSessionKey
  | noPrivateKey
  | notBase64
  | undecodable
  | unencodable
  | undecryptable
  | irreversible
  | noPrimes
  /-- A stand-in keyring was told to fail this operation. -/
  | staged (operation : String)
  deriving DecidableEq

/-! ## The error -/

/-- Why an operation failed. -/
inductive Error where
  | setup (defect : SetupDefect)
  | line (fault : Fault)
  | nameTooLong (length max : Nat)
  | publicKeyLength (expected actual : Nat)
  | payloadTooLarge (length : Nat)
  | fileTooLarge (slices max : Nat)
  | truncated (offset needed available : Nat)
  | notCarried (code : UInt16) (field : String)
  | unknownResponse (code : UInt16)
  | registrationFailed (attempts : Nat)
  | keyExchangeFailed (attempts : Nat)
  | reconnectionRefused (attempts : Nat)
  | sessionKeyLength (length : Nat)
  | keys (defect : KeyDefect)
  | file (fault : Fault)
  | checksumsDiffer (attempts : Nat)
  deriving DecidableEq

/-! ## Words -/

/-- The words for a defect of hexadecimal digits; the bad byte is shown as the character of its
number. -/
def Text.Hex.Defect.message : Text.Hex.Defect → String
  | .oddLength => "Odd number of digits"
  | .badDigit found position =>
    let shown := Text.Quoted.char (Char.ofNat found.toNat)
    s!"Invalid character {shown} at position {position}"

def ClientIdDefect.message : ClientIdDefect → String
  | .badHex text defect => s!"Invalid client id {Text.Quoted.text text}: {defect.message}"
  | .wrongLength length => s!"Client id must be 16 bytes, got {length}"

def JobDefect.message : JobDefect → String
  | .noAddress => "missing server address on line 1"
  | .noName => "missing client name on line 2"
  | .noFile => "missing file path on line 3"
  | .badPort text defect => s!"invalid port {Text.Quoted.text text}: {defect.message}"
  | .noHost => "empty server host"

def IdentityDefect.message : IdentityDefect → String
  | .noName => "missing name on line 1"
  | .noClientId => "missing client id on line 2"
  | .noPrivateKey => "missing private key on line 3"

def SetupDefect.message : SetupDefect → String
  | .unreadable path fault => s!"Cannot read {path}: {fault.message}"
  | .job path defect => s!"{path}: {defect.message}"
  | .identity path defect => s!"{path}: {defect.message}"
  | .clientId defect => defect.message
  | .namesNoFile path => s!"{path} does not name a file"
  | .sliceSize max size => s!"Chunk size must be between 1 and {max} bytes, got {size}"

def KeyDefect.message : KeyDefect → String
  | .noSessionKey => "No session key, handshake not completed"
  | .noPrivateKey => "No private key loaded"
  | .notBase64 => "Private key is not valid base64"
  | .undecodable => "Private key decoding failed"
  | .unencodable => "Private key encoding failed: PKCS#8 cryptographic key data malformed"
  | .undecryptable => "Decryption failed: decryption error"
  | .irreversible => "Decryption failed: internal error"
  | .noPrimes => "Key generation failed"
  | .staged operation => s!"fake {operation} failure"

/-- The words for an error. -/
def Error.message : Error → String
  | .setup defect => s!"Config error: {defect.message}"
  | .line fault => s!"Connection error: {fault.message}"
  | .nameTooLong length max =>
    s!"Name is {length} bytes long, at most {max} bytes fit the name field"
  | .publicKeyLength expected actual =>
    s!"Public key must be exactly {expected} bytes, got {actual}"
  | .payloadTooLarge length => s!"Payload of {length} bytes does not fit the payload size field"
  | .fileTooLarge slices max =>
    s!"File needs {slices} chunks, at most {max} fit the packet counter"
  | .truncated offset needed available =>
    s!"Truncated buffer: needed {needed} bytes at offset {offset}, {available} available"
  | .notCarried code field => s!"Response {code} carries no {field}"
  | .unknownResponse code => s!"Unknown response code {code}"
  | .registrationFailed attempts => s!"Registration failed after {attempts} attempts"
  | .keyExchangeFailed attempts => s!"Key exchange failed after {attempts} attempts"
  | .reconnectionRefused attempts => s!"Server refused reconnection {attempts} times"
  | .sessionKeyLength length => s!"Session key of {length} bytes is not a valid AES key"
  | .keys defect => s!"Crypto error: {defect.message}"
  | .file fault => s!"IO error: {fault.message}"
  | .checksumsDiffer attempts =>
    s!"Server checksum did not match after {attempts} attempts, transfer aborted"

end EncryptedBackup
