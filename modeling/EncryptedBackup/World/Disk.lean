/-
Files in memory. A disk holds directories and files by their places. A file keeps its number while
its content changes, so that whoever has it open sees the change, and its content outlives its
place.
-/
import EncryptedBackup.Path
import EncryptedBackup.Fault

namespace EncryptedBackup

/-- Where something is: the names on the way from the root. -/
abbrev Place := List Bytes

/-- What is at a place. -/
inductive Entry where
  | directory
  | file (number : Nat)
  deriving DecidableEq

/-- The entries below the root, the contents of files by number, and the directory from which
relative paths start. -/
structure Disk where
  entries : List (Place × Entry) := []
  contents : List (Array UInt8) := []
  start : Place := []
  deriving DecidableEq

namespace Disk

/-- The longest component of a path, in bytes. -/
def maxName : Nat := 255

/-- The longest path, in bytes. -/
def maxPath : Nat := 4095

/-- The length that the system reports for a directory. -/
def directoryLength : Nat := 4096

/-- A disk with one empty directory, from which relative paths start. -/
def withStart (name : Bytes) : Disk :=
  { entries := [([name], .directory)], start := [name] }

/-- What is at a place. -/
def at? (d : Disk) (place : Place) : Option Entry :=
  if place = [] then some .directory else d.entries.lookup place

/-- The content of the file with a number, as it is kept. -/
def stored (d : Disk) (number : Nat) : Array UInt8 :=
  d.contents[number]?.getD #[]

/-- The content of the file with a number. -/
def content (d : Disk) (number : Nat) : Bytes :=
  (d.stored number).toList

/-- Up to `n` bytes of the file with a number, from a position on. -/
def slice (d : Disk) (number position n : Nat) : Bytes :=
  ((d.stored number).extract position (position + n)).toList

theorem slice_eq (d : Disk) (number position n : Nat) :
    d.slice number position n = ((d.content number).drop position).take n := by
  simp [slice, content]

/-! ## Finding places -/

/-- Go from a place, which has to be a directory, to the place that a component leads to. -/
def step (d : Disk) (place : Place) (component : Bytes) : Except Fault Place :=
  match d.at? place with
  | none => .error .notFound
  | some (.file _) => .error .notDirectory
  | some .directory =>
    if component = [] ∨ component = Path.dot then .ok place
    else if component = Path.dotDot then .ok place.dropLast
    else if maxName < component.length then .error .nameTooLong
    else .ok (place ++ [component])

/-- The place that components lead to. -/
def walk (d : Disk) (place : Place) : List Bytes → Except Fault Place
  | [] => .ok place
  | c :: cs =>
    match d.step place c with
    | .error e => .error e
    | .ok next => d.walk next cs

/-- Is this a path at all? -/
def checkPath (p : Path) : Except Fault Unit :=
  if p.bytes.contains 0 then .error .nulInPath
  else if p.bytes = [] then .error .notFound
  else if maxPath < p.bytes.length then .error .nameTooLong
  else .ok ()

/-- The place from which a path starts. -/
def startOf (d : Disk) (p : Path) : Place := if p.isAbsolute then [] else d.start

/-- The place that a path leads to, whether something is there or not. -/
def place (d : Disk) (p : Path) : Except Fault Place := do
  checkPath p
  d.walk (d.startOf p) p.components

/-- What a path leads to. -/
def find (d : Disk) (p : Path) : Except Fault Entry := do
  match d.at? (← d.place p) with
  | none => .error .notFound
  | some entry => .ok entry

/-! ## Reading -/

/-- Does a path lead to a file? -/
def isFile (d : Disk) (p : Path) : Bool :=
  match d.find p with
  | .ok (.file _) => true
  | _ => false

/-- The number of the file that a path leads to. -/
def fileNumber (d : Disk) (p : Path) : Except Fault Nat := do
  match ← d.find p with
  | .directory => .error .isDirectory
  | .file number => .ok number

/-- The content of a file. -/
def read (d : Disk) (p : Path) : Except Fault Bytes := do
  return d.content (← d.fileNumber p)

/-! ## Writing -/

/-- Replace the content of the file with a number. -/
def setContent (d : Disk) (number : Nat) (bs : Bytes) : Disk :=
  { d with contents := d.contents.set number bs.toArray }

/-- Put an entry at a place. -/
def put (d : Disk) (place : Place) (entry : Entry) : Disk :=
  { d with entries := (place, entry) :: d.entries }

/-- Put a new file with this content at a place. -/
def create (d : Disk) (place : Place) (bs : Bytes) : Disk :=
  { d.put place (.file d.contents.length) with contents := d.contents ++ [bs.toArray] }

/-- The directory in which the last of some components is looked up. -/
def directoryOf (d : Disk) (start : Place) (components : List Bytes) : Except Fault Place := do
  d.step (← d.walk start components.dropLast) Path.dot

/-- The place of the file that writing to a path makes or replaces: a path that ends in a slash, or
in the directory itself or the one above, can only mean a directory. -/
def writePlace (d : Disk) (p : Path) : Except Fault Place := do
  checkPath p
  let directory ← d.directoryOf (d.startOf p) (Path.dropEnd false p.components)
  match p.components.getLast? with
  | none | some [] => .error .isDirectory
  | some name =>
    let place ← d.step directory name
    if name = Path.dot ∨ name = Path.dotDot then .error .isDirectory else .ok place

/-- Make a file or replace its content. -/
def write (d : Disk) (p : Path) (bs : Bytes) : Except Fault Disk := do
  let place ← d.writePlace p
  match d.at? place with
  | none => .ok (d.create place bs)
  | some .directory => .error .isDirectory
  | some (.file number) => .ok (d.setContent number bs)

/-- Cut the content of a file to a length, or fill it up with zeros. -/
def truncate (d : Disk) (p : Path) (length : Nat) : Except Fault Disk := do
  let number ← d.fileNumber p
  let bs := d.content number
  return d.setContent number (bs.take length ++ List.replicate (length - bs.length) 0)

/-- Remove the file that a path leads to; who has it open keeps it. -/
def remove (d : Disk) (p : Path) : Except Fault Disk := do
  let place ← d.place p
  match d.at? place with
  | none => .error .notFound
  | some .directory => .error .isDirectory
  | some (.file _) => return { d with entries := d.entries.filter (·.1 ≠ place) }

/-- Do components lead to a directory? -/
def isDirectory (d : Disk) (start : Place) (components : List Bytes) : Bool :=
  match d.walk start components with
  | .ok place => d.at? place = some .directory
  | .error _ => false

/-- Make the directory that components lead to, in one that is there. -/
def makeDirectory (d : Disk) (start : Place) (components : List Bytes) : Except Fault Disk := do
  let components := Path.dropEnd false components
  let directory ← d.directoryOf start components
  match components.getLast? with
  | none => .error .alreadyExists
  | some name =>
    if name = Path.dot ∨ name = Path.dotDot then .error .alreadyExists
    else
      let place ← d.step directory name
      if (d.at? place).isSome then .error .alreadyExists else .ok (d.put place .directory)

/-- Make the directory that components lead to, unless it is there. -/
def ensureDirectory (d : Disk) (start : Place) (components : List Bytes) : Except Fault Disk :=
  match d.makeDirectory start components with
  | .error .alreadyExists =>
    if d.isDirectory start components then .ok d else .error .alreadyExists
  | outcome => outcome

/-- Make the first of some directories, each of which is in the next; the others are made as far as
they are missing. Those made before a failure stay. -/
def makeChain (d : Disk) (start : Place) : List (List Bytes) → Except Fault Unit × Disk
  | [] => (.ok (), d)
  | components :: above =>
    match d.ensureDirectory start components with
    | .ok made => (.ok (), made)
    | .error .notFound =>
      match d.makeChain start above with
      | (.error fault, made) => (.error fault, made)
      | (.ok (), made) =>
        match made.ensureDirectory start components with
        | .ok made => (.ok (), made)
        | .error fault => (.error fault, made)
    | .error fault => (.error fault, d)

/-- Make a directory and those above it. -/
def makeDirectories (d : Disk) (p : Path) : Except Fault Unit × Disk :=
  if p.bytes = [] then (.ok (), d)
  else
    match checkPath p with
    | .error fault => (.error fault, d)
    | .ok () => d.makeChain (d.startOf p) (p.components :: Path.above p.components)

end Disk

end EncryptedBackup
