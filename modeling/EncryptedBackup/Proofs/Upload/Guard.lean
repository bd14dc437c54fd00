/-
Which sessions upload. An upload asks whether the session holds a key, and not whether its handshake
is complete. The two are the same as long as a pending key comes with a settled phase; then nothing is
sent on a session that is not established. Otherwise the upload is that of an established session
(`upload_guarded`): so a client that registers again, in vain, can still upload (`guard_broken`).
-/
import EncryptedBackup.Proofs.Handshake.Timeline
import EncryptedBackup.Proofs.Upload.Course

namespace EncryptedBackup

variable {κ : Type} [Keyring κ]

namespace Upload

variable {σ : Type} [Server σ]

/-- Without a key nothing is done. -/
theorem run_sendFile_of_no_key {s : Session κ} (none : s.key = none) (w : World σ) (path : Path)
    (options : UploadOptions) :
    w.run (sendFile s path options) = (.error (.keys .noSessionKey), w) := by
  unfold sendFile
  rw [none]
  rfl

/-- An upload does not ask for the phase. -/
theorem run_sendFile_of_phase (s : Session κ) (phase : Phase) (w : World σ) (path : Path)
    (options : UploadOptions) :
    w.run (sendFile { s with phase } path options) = w.run (sendFile s path options) := rfl

end Upload

/-- Behind calls that leave no key pending, or a settled phase with it, nothing is sent on a session
that is not established. Behind others, whatever is sent on an established session is sent on one that
is not. -/
theorem upload_guarded {alone : Prop} {start s : Session κ} {d₀ d : Disk} {past : List (Record κ)}
    (made : start.Made) (timeline : Timeline alone start d₀ past s d) :
    ((Pending past → Settled past) → s.isEstablished = false →
      ∀ {σ : Type} [Server σ] (w : World σ) (path : Path) (options : UploadOptions),
        w.run (Upload.sendFile s path options) = (.error (.keys .noSessionKey), w)) ∧
    (Pending past → ¬ Settled past →
      s.isEstablished = false ∧ { s with phase := .connected }.isEstablished = true ∧
      ∀ {σ : Type} [Server σ] (w : World σ) (path : Path) (options : UploadOptions),
        w.run (Upload.sendFile s path options) =
          w.run (Upload.sendFile { s with phase := .connected } path options)) := by
  have held := timeline.pending made
  have complete := timeline.established_iff made
  constructor
  · intro comes open_ σ _ w path options
    have idle : ¬ Pending past := by
      intro pending
      rw [complete.2 ⟨comes pending, pending⟩] at open_
      cases open_
    have none : s.key = none := by
      rw [← held, Option.isSome_iff_ne_none] at idle
      exact Classical.not_not.1 idle
    exact Upload.run_sendFile_of_no_key none w path options
  · intro pending unsettled
    have holds : s.key.isSome = true := held.2 pending
    refine ⟨?_, ?_, fun w path options => (Upload.run_sendFile_of_phase s _ w path options).symm⟩
    · rw [Bool.eq_false_iff]
      exact fun established => unsettled (complete.1 established).1
    · rw [Session.isEstablished_iff]
      exact ⟨.inr rfl, holds⟩

/-! ## A client that registers again -/

/-- A client that has registered, and then has tried to register again on a line that says nothing. -/
def restless : Session ToyKeyring :=
  ((Handshake.Call.register "server").conduct (scripted [])
    ((Handshake.Call.register "server").conduct welcoming alice).2.1).2.1

theorem restless_timeline : ∃ past d, Timeline False alice {} past restless d := by
  have first : Timeline False alice {} _ _ _ :=
    .one (s := alice) (w := welcoming) (.register "server") rfl
  have second := first.call (w := scripted []) (.register "server") rfl nofun
  exact ⟨_, _, second⟩

theorem upload_guarded_restless :
    restless.isEstablished = false ∧
      ∀ (w : World Script) (path : Path) (options : UploadOptions),
        w.run (Upload.sendFile restless path options) =
          w.run (Upload.sendFile { restless with phase := .connected } path options) := by
  obtain ⟨past, d, timeline⟩ := restless_timeline
  have made : alice.Made := .inl ⟨_, _, _, rfl⟩
  have pending : Pending past := (timeline.pending made).1 (by decide +kernel)
  have unsettled : ¬ Settled past := by
    rw [← timeline.settled made]
    decide +kernel
  obtain ⟨closed, -, same⟩ := (upload_guarded made timeline).2 pending unsettled
  exact ⟨closed, fun w path options => same w path options⟩

/-- An open line, and notes on the disk. -/
def notebook : World Script := { scripted [] with disk := sampleDisk }

/-- A client that is not established sends its notes nevertheless. -/
theorem guard_broken : ∃ past d, alice.Made ∧ Timeline False alice {} past restless d ∧
    restless.isEstablished = false ∧ notebook.line.taken = [] ∧
    (notebook.run (Upload.sendFile restless (.ofText "notes") {})).2.line.taken.map
      (fun f => f.header.code) = [RequestCode.sendFile.number] := by
  obtain ⟨past, d, timeline⟩ := restless_timeline
  exact ⟨past, d, .inl ⟨_, _, _, rfl⟩, timeline, by decide +kernel, rfl, by decide +kernel⟩

end EncryptedBackup
