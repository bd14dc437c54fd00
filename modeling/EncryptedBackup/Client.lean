/-
A whole backup: read the job, take up the saved identity or start without one, connect, agree on a
session key, send the file, and close the line whatever came of it.
-/
import EncryptedBackup.Upload
import EncryptedBackup.Keyring.Rsa

namespace EncryptedBackup

/-- Where a client finds its files, and how it sends. -/
structure ClientConfig where
  jobPath : Path := .ofText "transfer.info"
  identityPath : Path := .ofText "me.info"
  upload : UploadOptions := {}
  deriving DecidableEq

/-- The words for a backup that failed. -/
def ClientConfig.failureText (config : ClientConfig) (e : Error) : String :=
  s!"Error: Backup using {config.jobPath.text} failed\n\nCaused by:\n    {e.message}"

namespace Client

variable {κ : Type} {m : Type → Type} {File : Type} [Monad m] [Machine m File] [Keyring κ]

/-- Agree on a session key, then send a file, on a line that is open. -/
def backup (peer : String) (path : Path) (options : UploadOptions) : Handshake κ m Report := do
  Handshake.establish peer
  Handshake.perform (Upload.sendFile (← get) path options)

/-- The session of a client for a job: on its saved identity if there is one. -/
def openSession (job : Job) (config : ClientConfig) (keyring : κ) : Act m (Session κ) := do
  if ← Act.sure (Machine.isFile config.identityPath) then
    let identity ← Identity.load config.identityPath
    if identity.name ≠ job.name then
      Act.log (.namesDiffer config.identityPath config.jobPath identity.name job.name)
    Act.ofExcept (Session.resume identity keyring config.identityPath)
  else
    Act.log (.noIdentity job.name)
    return .fresh job.name keyring config.identityPath

/-- A backup from beginning to end. -/
def run (config : ClientConfig) (keyring : κ) : Act m Report := do
  let job ← Job.read config.jobPath
  let session ← openSession job config keyring
  let peer ← Act.orElse .line (Machine.dial job.host job.port)
  Act.log (.connected peer)
  let (outcome, _) ← Act.sure ((backup peer job.file config.upload).run session)
  Act.sure (closeLine peer)
  Act.ofExcept outcome

end Client

end EncryptedBackup
