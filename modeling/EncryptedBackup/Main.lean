/-
The program: a client on the machine it was started on, with its clock, its files, its network and
its output. It moves bytes and shows texts; everything else is decided by the modules it calls.
-/
import EncryptedBackup.CommandLine
import Std.Async.TCP
import Std.Async.DNS

namespace EncryptedBackup

open Std.Async

/-- The machine the program runs on: how much it shows, and its line, if there is one. -/
structure Host where
  verbose : Bool
  line : IO.Ref (Option TCP.Socket.Client)

/-- What is done on the machine the program runs on. -/
abbrev OnHost := ReaderT Host IO

namespace Host

/-! ## Failures -/

/-- The number that the system has for a failure. -/
def numberOf : IO.Error → Nat
  | .alreadyExists _ n _ | .otherError n _ | .resourceBusy n _ | .resourceVanished n _
  | .unsupportedOperation n _ | .hardwareFault n _ | .unsatisfiedConstraints n _
  | .illegalOperation n _ | .protocolError n _ | .timeExpired n _ | .interrupted _ n _
  | .noFileOrDirectory _ n _ | .invalidArgument _ n _ | .permissionDenied _ n _
  | .resourceExhausted _ n _ | .inappropriateType _ n _ | .noSuchThing _ n _ =>
    if n < 0x80000000 then n.toNat else (0 - n).toNat
  | .unexpectedEof | .userError _ => 0

/-- What the system refused. -/
def faultOf (e : IO.Error) : Fault :=
  match numberOf e with
  | 2 => .notFound
  | 17 => .alreadyExists
  | 20 => .notDirectory
  | 21 => .isDirectory
  | 36 => .nameTooLong
  | 101 => .networkUnreachable
  | 111 => .connectionRefused
  | _ => .other (toString e)

/-- Do something that the system may refuse. -/
def attempt {α : Type} (x : IO α) : OnHost (Except Fault α) := do
  try return .ok (← x) catch e => return .error (faultOf e)

/-- A path in the form that the system takes. -/
def nameOf (p : Path) : IO String :=
  match Utf8.decode? p.bytes with
  | some name => return name
  | none => throw (.userError "file name is not valid UTF-8")

/-! ## Files -/

/-- Does anything have this name? -/
def isThere (name : String) : IO Bool := do
  try
    discard (IO.FS.realPath name)
    return true
  catch _ => return false

/-- How many bytes are left in an open file, beyond those that were counted. -/
partial def measure (h : IO.FS.Handle) (counted : Nat) : IO Nat := do
  let piece ← h.read 65536
  if piece.isEmpty then return counted else measure h (counted + piece.size)

/-- Read up to so many bytes of an open file. -/
partial def readHandle (h : IO.FS.Handle) (n : Nat) (got : Bytes) : IO Bytes := do
  if n ≤ got.length then return got
  let piece ← h.read (.ofNat (min 65536 (n - got.length)))
  if piece.isEmpty then return got else readHandle h n (got ++ piece.toList)

/-- Open a file at its start. -/
def openAt (p : Path) : IO IO.FS.Handle := do
  IO.FS.Handle.mk (← nameOf p) .read

/-! ## The line -/

/-- Try one address after the other. -/
def connectFirst (port : UInt16) : List Std.Net.IPAddr → IO TCP.Socket.Client
  | [] => throw (.userError "could not resolve to any addresses")
  | address :: rest => do
    let client ← TCP.Socket.Client.mk
    let target : Std.Net.SocketAddress := match address with
      | .v4 a => .v4 ⟨a, port⟩
      | .v6 a => .v6 ⟨a, port⟩
    try
      (client.connect target).block
      return client
    catch e => if rest.isEmpty then throw e else connectFirst port rest

/-- The line, which has to be open. -/
def openLine : OnHost TCP.Socket.Client := do
  match ← (← read).line.get with
  | some client => return client
  | none => throw (.userError Fault.notConnected.message)

/-- Read so many bytes from the line. -/
partial def receiveAll (client : TCP.Socket.Client) (n : Nat) (got : Bytes) :
    IO (Except Fault Bytes) := do
  if n ≤ got.length then return .ok got
  match ← (client.recv? (.ofNat (n - got.length))).block with
  | none => return .error .earlyEnd
  | some piece => receiveAll client n (got ++ piece.toList)

/-- What the other end of a line is called. -/
def nameOfPeer : Std.Net.SocketAddress → String
  | .v4 a => s!"{a.addr}:{a.port}"
  | .v6 a => s!"[{a.addr}]:{a.port}"

/-- Open a line to a host and port, which stand for the name of the other end if that has none. -/
def dial (host : String) (port : UInt16) : OnHost String := do
  let addresses ← (DNS.getAddrInfo host s!"{port}").block
  let client ← connectFirst port addresses.toList
  (← read).line.set (some client)
  try return nameOfPeer (← client.getPeerName) catch _ => return s!"{host}:{port}"

end Host

open Host

instance : Machine OnHost IO.FS.Handle where
  note e := do if e.isShown (← read).verbose then IO.println e.line
  clock := IO.monoNanosNow
  progress sent total := IO.eprint s!"\r{sent}/{total} chunks"
  isFile p := do
    -- Only of a directory is the dot below it a name, too.
    let outcome ← attempt do
      let name ← nameOf p
      return (← isThere name) && !(← isThere (name ++ "/."))
    return outcome.toOption.getD false
  readFile p := attempt do return (← IO.FS.readBinFile (← nameOf p)).toList
  writeFile p bs := attempt do IO.FS.writeBinFile (← nameOf p) bs.toByteArray
  openFile p := attempt do
    let h ← openAt p
    let length ← measure h 0
    h.rewind
    return (h, length)
  readSome h n := do return (← attempt do return (← h.read (.ofNat n)).toList, h)
  readNext h n := do return (← attempt (readHandle h n []), h)
  rewind h := do return (← attempt h.rewind, h)
  dial host port := do
    let here ← read
    attempt ((dial host port).run here)
  send bs := do
    let here ← read
    attempt do (((← openLine.run here).send bs.toByteArray).block)
  receive n := do
    let here ← read
    let outcome ← attempt do receiveAll (← openLine.run here) n []
    return outcome.bind id
  hangUp := do
    let here ← read
    attempt do ((← openLine.run here).shutdown.block)

/-- Run a backup as the command line asks. -/
def start (command : CommandLine) : IO UInt32 := do
  let host : Host := { verbose := command.verbose, line := ← IO.mkRef none }
  let source : Entropy := { seed := (← IO.getRandomBytes 32).toList }
  let keyring : RsaKeyring := { source }
  let act : Act OnHost Report := Client.run command.config keyring
  match ← act.run.run host with
  | .ok report =>
    IO.println report.text
    return 0
  | .error e =>
    IO.eprintln (command.config.failureText e)
    return 1

/-- Do what the arguments ask; gives the exit code. -/
def obey (arguments : List String) : IO UInt32 := do
  match CommandLine.parse arguments with
  | .ok command => start command
  | .error .helpWanted =>
    IO.println CommandLine.helpText
    return 0
  | .error .versionWanted =>
    IO.println CommandLine.versionText
    return 0
  | .error usage =>
    IO.eprintln usage.text
    return 2

end EncryptedBackup

/-- Back up a file as the arguments ask. -/
def main (arguments : List String) : IO UInt32 := EncryptedBackup.obey arguments
