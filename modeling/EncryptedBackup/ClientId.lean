/-
Client ids: sixteen bytes that the server assigns, written as hexadecimal digits in lower case. All
zero stands for a client that has none.
-/
import EncryptedBackup.Error
import EncryptedBackup.Text.Blank

namespace EncryptedBackup

/-- The id that a server assigned to a client. -/
structure ClientId where
  bytes : Bytes
  length_eq : bytes.length = 16
  deriving DecidableEq

namespace ClientId

/-- How many bytes an id has. -/
def length : Nat := 16

/-- The id of a client that has none. -/
def unset : ClientId := ⟨List.replicate 16 0, rfl⟩

instance : Inhabited ClientId := ⟨unset⟩

/-- The id with these bytes, if they are sixteen. -/
def ofBytes? (bs : Bytes) : Option ClientId :=
  if h : bs.length = 16 then some ⟨bs, h⟩ else none

/-- Does this stand for no id? -/
def isUnset (id : ClientId) : Bool := id == unset

/-- The id as text. -/
def text (id : ClientId) : String := Text.Hex.encode id.bytes

/-- The id that a text denotes; white space around it does not matter. -/
def ofText (s : String) : Except ClientIdDefect ClientId :=
  match Text.Hex.decode (Text.trim s) with
  | .error defect => .error (.badHex s defect)
  | .ok bs => if h : bs.length = 16 then .ok ⟨bs, h⟩ else .error (.wrongLength bs.length)

end ClientId

end EncryptedBackup
