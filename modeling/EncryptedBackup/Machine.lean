/-
The machine a client runs on: its log and clock, its files, and the line to the server. What a
client does is written once for every machine; actions of `Act m` stop at the first error.
-/
import EncryptedBackup.Event

namespace EncryptedBackup

/-- What a client asks of its machine. `File` is what an open file is to it. -/
class Machine (m : Type → Type) (File : outParam Type) where
  /-- Put an event into the log. -/
  note : Event → m Unit
  /-- Nanoseconds on a clock that never goes back. -/
  clock : m Nat
  /-- Show how many of the packets of an upload are sent. -/
  progress : (sent total : Nat) → m Unit
  /-- Is there a file, and not a directory, at a path? -/
  isFile : Path → m Bool
  /-- The content of a file. -/
  readFile : Path → m (Except Fault Bytes)
  /-- Make a file or replace its content. -/
  writeFile : Path → Bytes → m (Except Fault Unit)
  /-- Open a file at its start; its length at this time comes with it. -/
  openFile : Path → m (Except Fault (File × Nat))
  /-- Read once from an open file, at most so many bytes; none come only at its end. -/
  readSome : File → Nat → m (Except Fault Bytes × File)
  /-- Read up to so many bytes of an open file; fewer come only at its end. -/
  readNext : File → Nat → m (Except Fault Bytes × File)
  /-- Go back to the start of an open file. -/
  rewind : File → m (Except Fault Unit × File)
  /-- Open the line to a host and port; gives what the other end is called. -/
  dial : String → UInt16 → m (Except Fault String)
  /-- Write bytes to the line. -/
  send : Bytes → m (Except Fault Unit)
  /-- Read so many bytes from the line. -/
  receive : Nat → m (Except Fault Bytes)
  /-- Close the line. -/
  hangUp : m (Except Fault Unit)

/-- Something done on a machine that may fail. -/
abbrev Act (m : Type → Type) := ExceptT Error m

namespace Act

variable {m : Type → Type} {File α : Type} [Monad m] [Machine m File]

/-- Something that cannot fail. -/
def sure (x : m α) : Act m α := ExceptT.lift x

/-- Something whose failure becomes an error. -/
def orElse (error : Fault → Error) (x : m (Except Fault α)) : Act m α :=
  ExceptT.mk (Except.mapError error <$> x)

/-- An outcome as an action. -/
def ofExcept (x : Except Error α) : Act m α := ExceptT.mk (pure x)

/-- Put an event into the log. -/
def log (e : Event) : Act m Unit := sure (Machine.note e)

end Act

end EncryptedBackup
