/-
What the machine refuses to do: the failures of files and of the line to the server, each with the
words that the system has for it.
-/

namespace EncryptedBackup

/-- A failure of a file or of the line. -/
inductive Fault where
  | notFound
  | alreadyExists
  | notDirectory
  | isDirectory
  | nameTooLong
  | networkUnreachable
  | connectionRefused
  | nulInPath
  | notUtf8
  | earlyEnd
  | reset
  | brokenPipe
  | notConnected
  /-- A file gave fewer bytes than it had when it was opened. -/
  | cameShort (expected offset read : Nat)
  /-- Any other, in the words of the system. -/
  | other (text : String)
  deriving DecidableEq

/-- The words for a failure. -/
def Fault.message : Fault → String
  | .notFound => "No such file or directory (os error 2)"
  | .alreadyExists => "File exists (os error 17)"
  | .notDirectory => "Not a directory (os error 20)"
  | .isDirectory => "Is a directory (os error 21)"
  | .nameTooLong => "File name too long (os error 36)"
  | .networkUnreachable => "Network is unreachable (os error 101)"
  | .connectionRefused => "Connection refused (os error 111)"
  | .nulInPath => "file name contained an unexpected NUL byte"
  | .notUtf8 => "stream did not contain valid UTF-8"
  | .earlyEnd => "early eof"
  | .reset => "connection reset"
  | .brokenPipe => "broken pipe"
  | .notConnected => "not connected"
  | .cameShort expected offset read =>
    s!"file changed during upload: expected {expected} bytes at offset {offset}, read {read}"
  | .other text => text

end EncryptedBackup
