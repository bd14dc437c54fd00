/-
Jobs: which file to back up, under which name, and where. A job file has the address of the server,
the name of the client and the path of the file on its first three lines.
-/
import EncryptedBackup.Machine
import EncryptedBackup.Text.Lines

namespace EncryptedBackup

/-- What to back up, and where. -/
structure Job where
  host : String
  port : UInt16
  name : String
  file : Path
  deriving DecidableEq

namespace Job

/-- The port of an address that names none. -/
def defaultPort : UInt16 := 1256

/-- The greatest port. -/
def maxPort : Nat := 65535

/-- The `i`-th line of a text without white space at its ends, if there is such a line and it is
not blank. -/
def line? (lines : List String) (i : Nat) : Option String :=
  match lines[i]? with
  | none => none
  | some l =>
    let t := Text.trim l
    if t = "" then none else some t

/-- What stands before and after the last colon. -/
def splitAddress (address : String) : Option (String × String) :=
  let cs := address.toList.reverse
  if cs.contains ':' then
    let port := (cs.takeWhile (· ≠ ':')).reverse
    let host := ((cs.dropWhile (· ≠ ':')).drop 1).reverse
    some (String.ofList host, String.ofList port)
  else none

/-- The host and port of an address. -/
def parseAddress (address : String) : Except JobDefect (String × UInt16) :=
  match splitAddress address with
  | none => .ok (address, defaultPort)
  | some (host, port) =>
    match Text.Decimal.parse maxPort port with
    | .error defect => .error (.badPort port defect)
    | .ok n => .ok (host, .ofNat n)

/-- The job that a text describes. -/
def parse (content : String) : Except JobDefect Job := do
  let lines := Text.lines content
  let some address := line? lines 0 | throw .noAddress
  let some name := line? lines 1 | throw .noName
  let some file := line? lines 2 | throw .noFile
  let (host, port) ← parseAddress address
  if host = "" then throw .noHost
  return { host, port, name, file := .ofText file }

variable {m : Type → Type} {File : Type} [Monad m] [Machine m File]

/-- The text of a file that was set up by the user. -/
def readText (path : Path) : Act m String := do
  let unreadable fault := Error.setup (.unreadable path.text fault)
  let bytes ← Act.orElse unreadable (Machine.readFile path)
  match Utf8.decode? bytes with
  | none => throw (unreadable .notUtf8)
  | some text => return text

/-- The job that a file describes. -/
def read (path : Path) : Act m Job := do
  let content ← readText path
  match parse content with
  | .error defect => throw (.setup (.job path.text defect))
  | .ok job => return job

end Job

end EncryptedBackup
