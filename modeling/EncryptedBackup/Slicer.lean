/-
Cutting a file into slices of one size, in order, as often as need be. An empty file has one empty
slice. What is handed out is counted apart from where the machine stands in the file: a slice that
comes short moves the one and not the other. The checksum of a file is taken on its own, read by
read.
-/
import EncryptedBackup.Machine
import EncryptedBackup.Checksum

namespace EncryptedBackup

/-- The greatest size of a slice: its ciphertext, up to sixteen bytes longer, still fits a
packet. -/
def maxSlice : Nat := Wire.maxPayload - Packet.overhead - 16

/-- An open file, the size of its slices, its length when it was opened, and what was handed out
since the start: bytes and slices. -/
structure Slicer (File : Type) where
  file : File
  size : Nat
  length : Nat
  taken : Nat := 0
  count : Nat := 0

namespace Slicer

variable {File : Type}

/-- How many slices the file has. -/
def slices (s : Slicer File) : Nat :=
  max 1 ((s.length + s.size - 1) / s.size)

/-- How many bytes the next slice has. -/
def nextLength (s : Slicer File) : Nat := min (s.length - s.taken) s.size

/-- What the bytes read for the next slice amount to. -/
def accept (s : Slicer File) (bs : Bytes) : Except Error (Option Bytes) × Slicer File :=
  if bs.length < s.nextLength then
    (.error (.file (.cameShort s.nextLength s.taken bs.length)), s)
  else (.ok (some bs), { s with taken := s.taken + s.nextLength, count := s.count + 1 })

variable {m : Type → Type} [Monad m] [Machine m File]

/-- Open a file to be cut into slices of the given size. -/
def openFile (path : Path) (size : Nat) : Act m (Slicer File) := do
  if size = 0 ∨ maxSlice < size then throw (.setup (.sliceSize maxSlice size))
  let (file, length) ← Act.orElse .file (Machine.openFile path)
  return { file, size, length }

/-- The next slice; none when all were handed out. -/
def next (s : Slicer File) : m (Except Error (Option Bytes) × Slicer File) := do
  if s.slices ≤ s.count then return (.ok none, s)
  let (outcome, file) ← Machine.readNext s.file s.nextLength
  let s := { s with file }
  match outcome with
  | .error fault => return (.error (.file fault), s)
  | .ok bs => return s.accept bs

/-- Start over from the first slice. -/
def rewind (s : Slicer File) : m (Except Error Unit × Slicer File) := do
  let (outcome, file) ← Machine.rewind s.file
  let s := { s with file }
  match outcome with
  | .error fault => return (.error (.file fault), s)
  | .ok () => return (.ok (), { s with taken := 0, count := 0 })

end Slicer

/-! ## The checksum of a file -/

section

variable {m : Type → Type} {File : Type} [Monad m] [Machine m File]

/-- The size of the buffer that a file is read into for its checksum. -/
def bufferSize : Nat := 0x10000

/-- How often a file of a length is read at most. It may grow meanwhile; but every read except the
last brings a byte, and bytes are counted in 64 bits. -/
def readLimit (length : Nat) : Nat := length + 0x10000000000000000

/-- Take in the rest of an open file, one read after the other, until one brings nothing; there are
at most `left` reads. -/
def Digest.takeRest : (left : Nat) → Digest → File → Act m Digest
  | 0, d, _ => return d
  | left + 1, d, file => do
    let (outcome, file) ← Act.sure (Machine.readSome file bufferSize)
    let bs ← Act.ofExcept (outcome.mapError .file)
    if bs.isEmpty then return d
    takeRest left (d.feed bs) file

/-- The checksum of a file, taken read by read. -/
def fileChecksum (path : Path) : Act m UInt32 := do
  let (file, length) ← Act.orElse .file (Machine.openFile path)
  let digest ← Digest.takeRest (readLimit length) {} file
  return digest.value

end

end EncryptedBackup
