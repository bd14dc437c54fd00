/-
A machine in memory: a disk, a log, a clock that stands still, and a network with one server. All
that a client does on it is a function from worlds to worlds.
-/
import EncryptedBackup.Machine
import EncryptedBackup.World.Disk
import EncryptedBackup.World.Line

namespace EncryptedBackup

/-- A world: its disk, its log, newest event first, the line to the server, and what comes of
dialing: a failure, or the conditions of the line. -/
structure World (σ : Type) where
  disk : Disk
  log : List Event := []
  line : Line σ
  network : Except Fault Conditions

/-- What is done in a world. -/
abbrev InWorld (σ : Type) := StateM (World σ)

/-- An open file: what it is, and how far it is read. -/
structure OpenFile where
  entry : Entry
  position : Nat := 0
  deriving DecidableEq

namespace Disk

/-- Open a file or a directory. -/
def openFile (d : Disk) (p : Path) : Except Fault (OpenFile × Nat) := do
  match ← d.find p with
  | .directory => return ({ entry := .directory }, directoryLength)
  | .file number => return ({ entry := .file number }, (d.stored number).size)

/-- Read on in an open file. -/
def readNext (d : Disk) (f : OpenFile) (n : Nat) : Except Fault Bytes × OpenFile :=
  match f.entry with
  | .directory => (.error .isDirectory, f)
  | .file number =>
    let bs := d.slice number f.position n
    (.ok bs, { f with position := f.position + bs.length })

theorem readNext_file (d : Disk) {f : OpenFile} {number : Nat} (entry : f.entry = .file number)
    (n : Nat) : d.readNext f n = (.ok (d.slice number f.position n),
      { f with position := f.position + (d.slice number f.position n).length }) := by
  obtain ⟨_, position⟩ := f
  cases entry
  rfl

end Disk

namespace World

variable {σ : Type} [Server σ]

/-- Open the line. -/
def dial (w : World σ) (host : String) (port : UInt16) : Except Fault String × World σ :=
  match w.network with
  | .error fault => (.error fault, w)
  | .ok conditions => (.ok s!"{host}:{port}", { w with line := w.line.connect conditions })

/-- Write to the line. -/
def send (w : World σ) (bs : Bytes) : Except Fault Unit × World σ :=
  let (outcome, line) := w.line.write bs
  (outcome, { w with line })

omit [Server σ] in
/-- Read from the line. -/
def receive (w : World σ) (n : Nat) : Except Fault Bytes × World σ :=
  let (outcome, line) := w.line.read n
  (outcome, { w with line })

omit [Server σ] in
/-- Close the line. -/
def hangUp (w : World σ) : Except Fault Unit × World σ :=
  let (outcome, line) := w.line.close
  (outcome, { w with line })

omit [Server σ] in
/-- Replace the content of a file. -/
def writeFile (w : World σ) (p : Path) (bs : Bytes) : Except Fault Unit × World σ :=
  match w.disk.write p bs with
  | .error fault => (.error fault, w)
  | .ok disk => (.ok (), { w with disk })

instance : Machine (InWorld σ) OpenFile where
  note e := modify fun w => { w with log := e :: w.log }
  clock := return 0
  progress _ _ := return ()
  isFile p := return (← get).disk.isFile p
  readFile p := return (← get).disk.read p
  writeFile p bs := fun w => w.writeFile p bs
  openFile p := return (← get).disk.openFile p
  readSome f n := return (← get).disk.readNext f n
  readNext f n := return (← get).disk.readNext f n
  rewind f := return (.ok (), { f with position := 0 })
  dial host port := fun w => w.dial host port
  send bs := fun w => w.send bs
  receive n := fun w => w.receive n
  hangUp := fun w => w.hangUp

end World

end EncryptedBackup
