/-
The command line: three options that take a value and four that do not, in any order and in long
and short spellings. Each may be given once. The value of an option is looked at when the next
known option, or the end, is reached.
-/
import EncryptedBackup.Client

namespace EncryptedBackup

/-- What the command line asks for. -/
structure CommandLine where
  config : ClientConfig := {}
  verbose : Bool := false
  deriving DecidableEq

/-- Why the arguments do not start a backup. -/
inductive Usage where
  | helpWanted
  | versionWanted
  | unknownArgument
  /-- An option without its value, or with an empty path. -/
  | noValue
  | notANumber
  | repeated
  /-- A value for an option that takes none. -/
  | unneededValue
  deriving DecidableEq

/-- What is wrong with the arguments, in words. -/
def Usage.text : Usage → String
  | .helpWanted => "help is wanted"
  | .versionWanted => "the version is wanted"
  | .unknownArgument => "error: unexpected argument found"
  | .noValue => "error: a value is required but none was supplied"
  | .notANumber => "error: invalid number for '--chunk-size'"
  | .repeated => "error: an argument cannot be used multiple times"
  | .unneededValue => "error: unexpected value for an argument that takes none"

namespace CommandLine

/-- The name of the program, with its version. -/
def versionText : String := "backup-client 0.1.0"

/-- How the program is used. -/
def helpText : String :=
  "\n".intercalate [
    "Back a file up to an encrypted backup server",
    "",
    "Usage: backup-client [OPTIONS]",
    "",
    "Options:",
    "      --transfer-info <PATH>   Server address, client name and file, one per line",
    "      --me-info <PATH>         Saved identity, written after the first registration",
    "  -c, --chunk-size <NUMBER>    Plaintext bytes per file chunk",
    "      --no-progress            Disable the progress bar",
    "  -v, --verbose                Verbose output",
    "  -h, --help                   Print help",
    "  -V, --version                Print version"]

/-! ## Options -/

/-- The options that take a value. -/
inductive Setting where
  | jobPath
  | identityPath
  | sliceSize
  deriving DecidableEq

/-- The options that take none. -/
inductive Switch where
  | noProgress
  | verbose
  | help
  | version
  deriving DecidableEq

/-- An option with its long name. -/
def long? : String → Option (Setting ⊕ Switch)
  | "transfer-info" => some (.inl .jobPath)
  | "me-info" => some (.inl .identityPath)
  | "chunk-size" => some (.inl .sliceSize)
  | "no-progress" => some (.inr .noProgress)
  | "verbose" => some (.inr .verbose)
  | "help" => some (.inr .help)
  | "version" => some (.inr .version)
  | _ => none

/-- An option with its letter. -/
def short? : Char → Option (Setting ⊕ Switch)
  | 'c' => some (.inl .sliceSize)
  | 'v' => some (.inr .verbose)
  | 'h' => some (.inr .help)
  | 'V' => some (.inr .version)
  | _ => none

/-! ## Reading arguments -/

/-- What was read: the options given, and one that is not settled yet, with its value as soon as
there is one. -/
structure Progress where
  jobPath : Option Path := none
  identityPath : Option Path := none
  sliceSize : Option Nat := none
  noProgress : Bool := false
  verbose : Bool := false
  pending : Option (Setting × Option String) := none
  deriving DecidableEq

/-- The greatest slice size that can be written. -/
def maxNumber : Nat := 0xFFFFFFFFFFFFFFFF

/-- The path that a value stands for. -/
def pathValue (value : String) : Except Usage Path :=
  if value = "" then .error .noValue else .ok (.ofText value)

/-- The number that a value stands for. -/
def numberValue (value : String) : Except Usage Nat :=
  match Text.Decimal.parse maxNumber value with
  | .ok n => .ok n
  | .error _ => .error .notANumber

namespace Progress

/-- Give an option its value. -/
def assign (p : Progress) (s : Setting) (value : String) : Except Usage Progress :=
  match s with
  | .jobPath => do
    if p.jobPath.isSome then throw .repeated
    return { p with jobPath := some (← pathValue value) }
  | .identityPath => do
    if p.identityPath.isSome then throw .repeated
    return { p with identityPath := some (← pathValue value) }
  | .sliceSize => do
    if p.sliceSize.isSome then throw .repeated
    return { p with sliceSize := some (← numberValue value) }

/-- Settle the option that is not. -/
def resolve (p : Progress) : Except Usage Progress :=
  match p.pending with
  | none => .ok p
  | some (_, none) => .error .noValue
  | some (s, some value) => { p with pending := none }.assign s value

/-- An option that takes no value. -/
def turnOn (p : Progress) (w : Switch) : Except Usage Progress := do
  let p ← p.resolve
  match w with
  | .help => throw .helpWanted
  | .version => throw .versionWanted
  | .noProgress => if p.noProgress then throw .repeated else return { p with noProgress := true }
  | .verbose => if p.verbose then throw .repeated else return { p with verbose := true }

/-- An option with the value that is attached to it, or to which one has yet to come. -/
def setTo (p : Progress) (s : Setting) (value : Option String) : Except Usage Progress := do
  let p ← p.resolve
  match value with
  | some value => p.assign s value
  | none => return { p with pending := some (s, none) }

/-- What stands behind a letter of an option that takes a value, with or without an equals sign. -/
def attached? : List Char → Option String
  | [] => none
  | '=' :: cs => some (String.ofList cs)
  | cs => some (String.ofList cs)

/-- The letters behind a single dash. -/
def letters (p : Progress) : List Char → Except Usage Progress
  | [] => .ok p
  | c :: cs =>
    match short? c with
    | none => .error .unknownArgument
    | some (.inl s) => p.setTo s (attached? cs)
    | some (.inr w) =>
      match p.turnOn w with
      | .error e => .error e
      | .ok p => p.letters cs

/-- What stands behind two dashes: a name, and a value behind an equals sign if there is one. -/
def named (p : Progress) (cs : List Char) : Except Usage Progress :=
  let name := String.ofList (cs.takeWhile (· ≠ '='))
  let value := if cs.contains '=' then some (String.ofList ((cs.dropWhile (· ≠ '=')).drop 1)) else none
  match long? name, value with
  | none, _ => .error .unknownArgument
  | some (.inl s), _ => p.setTo s value
  | some (.inr w), none => p.turnOn w
  | some (.inr _), some _ => .error .unneededValue

/-- What stands alone: the value of the option that waits for one. -/
def standalone (p : Progress) (value : String) : Except Usage Progress :=
  match p.pending with
  | some (s, none) => .ok { p with pending := some (s, some value) }
  | _ => .error .unknownArgument

/-- One argument. -/
def take (p : Progress) (argument : String) : Except Usage Progress :=
  match argument.toList with
  | '-' :: '-' :: cs => p.named cs
  | '-' :: c :: cs => p.letters (c :: cs)
  | _ => p.standalone argument

/-- All arguments. Two dashes alone end the options, and nothing may follow them. -/
def takeAll (p : Progress) : List String → Except Usage Progress
  | [] => p.resolve
  | "--" :: rest => if rest.isEmpty then p.resolve else .error .unknownArgument
  | argument :: rest =>
    match p.take argument with
    | .error e => .error e
    | .ok p => p.takeAll rest

/-- What was asked for, with the defaults for what was not given. -/
def finish (p : Progress) : CommandLine :=
  let config : ClientConfig := {}
  { config :=
      { jobPath := p.jobPath.getD config.jobPath
        identityPath := p.identityPath.getD config.identityPath
        upload :=
          { sliceSize := p.sliceSize.getD config.upload.sliceSize
            showProgress := !p.noProgress } }
    verbose := p.verbose }

end Progress

/-- What the arguments ask for. -/
def parse (arguments : List String) : Except Usage CommandLine :=
  (Progress.takeAll {} arguments).map Progress.finish

end CommandLine

end EncryptedBackup
