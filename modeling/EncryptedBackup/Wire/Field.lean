/-
Fields of fixed width. Every reader takes a buffer and the offset of its field and gives the value
and the offset behind the field; a field that does not fit is an error that says how much is there.
Numbers are least significant octet first. A name ends at its first NUL or fills the field.
-/
import EncryptedBackup.ClientId

namespace EncryptedBackup.Field

/-! ## Reading -/

/-- The `width` bytes at `offset`. -/
def slice (buffer : Bytes) (offset width : Nat) : Except Error (Bytes × Nat) :=
  if offset + width ≤ buffer.length then .ok ((buffer.drop offset).take width, offset + width)
  else .error (.truncated offset width (buffer.length - offset))

/-- An octet. -/
def octet (buffer : Bytes) (offset : Nat) : Except Error (UInt8 × Nat) := do
  let (bs, next) ← slice buffer offset 1
  return (.ofNat (ofLittleEndian bs), next)

/-- A number of two octets. -/
def word (buffer : Bytes) (offset : Nat) : Except Error (UInt16 × Nat) := do
  let (bs, next) ← slice buffer offset 2
  return (.ofNat (ofLittleEndian bs), next)

/-- A number of four octets. -/
def long (buffer : Bytes) (offset : Nat) : Except Error (UInt32 × Nat) := do
  let (bs, next) ← slice buffer offset 4
  return (.ofNat (ofLittleEndian bs), next)

/-- A client id. -/
def clientId (buffer : Bytes) (offset : Nat) : Except Error (ClientId × Nat) :=
  if h : offset + 16 ≤ buffer.length then
    .ok (⟨(buffer.drop offset).take 16, by simp; omega⟩, offset + 16)
  else .error (.truncated offset 16 (buffer.length - offset))

/-- The text that a name field holds: what stands before its first NUL. -/
def nameText (field : Bytes) : String :=
  Utf8.lossy (field.takeWhile (· ≠ 0))

/-- A name in a field of the given width. -/
def name (buffer : Bytes) (offset width : Nat) : Except Error (String × Nat) := do
  let (bs, next) ← slice buffer offset width
  return (nameText bs, next)

/-! ## Writing -/

/-- The field of an octet. -/
def ofOctet (v : UInt8) : Bytes := [v]

/-- The field of a number of two octets. -/
def ofWord (v : UInt16) : Bytes := littleEndian 2 v.toNat

/-- The field of a number of four octets. -/
def ofLong (v : UInt32) : Bytes := littleEndian 4 v.toNat

/-- Does a name leave room for a NUL in its field? -/
def checkName (width : Nat) (name : String) : Except Error Unit :=
  let length := (Utf8.encode name).length
  if length < width then .ok () else .error (.nameTooLong length (width - 1))

/-- These bytes cut or filled up with NULs to the given width. -/
def padded (width : Nat) (bs : Bytes) : Bytes :=
  bs.take width ++ List.replicate (width - bs.length) 0

/-- The field of a name. -/
def ofName (width : Nat) (name : String) : Except Error Bytes := do
  checkName width name
  return padded width (Utf8.encode name)

@[simp] theorem padded_length (width : Nat) (bs : Bytes) : (padded width bs).length = width := by
  simp [padded]; omega

end EncryptedBackup.Field
