/-
Identities: what a client remembers once it is registered. An identity file has the name, the
client id and the private key on its first three lines.
-/
import EncryptedBackup.Job

namespace EncryptedBackup

/-- What a client remembers between its runs. -/
structure Identity where
  name : String
  clientId : ClientId
  privateKey : String
  deriving DecidableEq

namespace Identity

/-- The text of an identity. -/
def render (i : Identity) : String :=
  s!"{i.name}\n{i.clientId.text}\n{i.privateKey}\n"

/-- The identity that the text of a file describes; messages show the path. -/
def parse (shownPath : String) (content : String) : Except SetupDefect Identity := do
  let lines := Text.lines content
  let some name := Job.line? lines 0 | throw (.identity shownPath .noName)
  let some id := Job.line? lines 1 | throw (.identity shownPath .noClientId)
  let some privateKey := Job.line? lines 2 | throw (.identity shownPath .noPrivateKey)
  match ClientId.ofText id with
  | .error defect => throw (.clientId defect)
  | .ok clientId => return { name, clientId, privateKey }

variable {m : Type → Type} {File : Type} [Monad m] [Machine m File]

/-- The identity in a file. -/
def load (path : Path) : Act m Identity := do
  let content ← Job.readText path
  match parse path.text content with
  | .error defect => throw (.setup defect)
  | .ok identity => return identity

/-- Replace the content of a file by an identity. -/
def store (path : Path) (i : Identity) : Act m Unit := do
  Act.orElse .file (Machine.writeFile path (Utf8.encode i.render))
  Act.log (.identityWritten path)

end Identity

end EncryptedBackup
