/-
What uploads do to files: they read them. A step is `ReadOnly` if it leaves the disk alone in every
world; the steps of an upload are, and so is every upload (`readOnly_sendFile`).
-/
import EncryptedBackup.Proofs.Machine.Relating
import EncryptedBackup.World

namespace EncryptedBackup

variable {σ : Type}

/-- A step that leaves the disk alone. -/
def ReadOnly {σ α : Type} (x : InWorld σ α) : Prop := ∀ w, (StateT.run x w).2.disk = w.disk

theorem ReadOnly.bind {α β : Type} {x : InWorld σ α} {f : α → InWorld σ β} (first : ReadOnly x)
    (second : ∀ a, ReadOnly (f a)) : ReadOnly (x >>= f) :=
  fun w => (second (StateT.run x w).1 (StateT.run x w).2).trans (first w)

variable [Server σ]

/-- Each step of an upload leaves the disk alone, and so do sequences of such steps. -/
theorem ReadOnly.keptByUploads :
    Machine.KeptByUploads (m := InWorld σ) (n := InWorld σ) fun x _ => ReadOnly x where
  pure _ _ := rfl
  bind first second := first.bind second
  note _ _ := rfl
  clock _ := rfl
  progress _ _ _ := rfl
  openFile _ _ := rfl
  readSome _ _ _ := rfl
  readNext _ _ _ := rfl
  rewind _ _ := rfl
  send _ _ := rfl
  receive _ _ := rfl

/-- An upload, whatever comes of it, leaves all files as they were. -/
theorem Upload.readOnly_sendFile {κ : Type} [Keyring κ] (session : Session κ) (path : Path)
    (options : UploadOptions) :
    ReadOnly (sendFile session path options : Act (InWorld σ) Report).run :=
  ReadOnly.keptByUploads.sendFile session path options

end EncryptedBackup
