/-
What an upload checks before it touches the line. There are seven obstacles, in an order; the first
that is there is the error, and nothing has happened. If there is none, the file can be sent: the
upload begins with its first packet, and does not fail by itself after that (`sendFile_preflight`).
-/
import EncryptedBackup.Proofs.Upload.Dealings
import EncryptedBackup.Proofs.World.Disk

namespace EncryptedBackup

/-! ## Obstacles -/

/-- Under every session key a keyring encrypts anything, and adds sixteen bytes at most. -/
def Seals {κ : Type} [Keyring κ] (keyring : κ) : Prop :=
  ∀ (key : SessionKey) (bs : Bytes), ∃ ciphertext,
    Keyring.encrypt keyring key bs = .ok ciphertext ∧ ciphertext.length ≤ bs.length + 16

theorem RsaKeyring.seals (keyring : RsaKeyring) : Seals keyring :=
  fun key bs => ⟨key.encrypt bs, rfl, key.encrypt_length_le bs⟩

/-- What keeps a session from sending what is at a path, in slices of a size; each obstacle has its
place in the order of checks, and an error. -/
inductive Obstacle {κ : Type} (session : Session κ) (disk : Disk) (path : Path) (size : Nat) :
    Nat → Error → Prop where
  | noKey (none : session.key = none) : Obstacle session disk path size 1 (.keys .noSessionKey)
  | noName (none : path.fileName? = none) :
    Obstacle session disk path size 2 (.setup (.namesNoFile path.text))
  | longName {name : Bytes} (named : path.fileName? = some name)
    (long : 255 ≤ (Utf8.encode (Utf8.lossy name)).length) :
    Obstacle session disk path size 3 (.nameTooLong (Utf8.encode (Utf8.lossy name)).length 254)
  | badSize (bad : size = 0 ∨ 0xFFFFFFFF - 267 - 16 < size) :
    Obstacle session disk path size 4 (.setup (.sliceSize (0xFFFFFFFF - 267 - 16) size))
  | unopened {fault : Fault} (refused : disk.openFile path = .error fault) :
    Obstacle session disk path size 5 (.file fault)
  | tooLarge {file : OpenFile} {length : Nat} (opened : disk.openFile path = .ok (file, length))
    (large : 65535 < max 1 ((length + size - 1) / size)) :
    Obstacle session disk path size 6 (.fileTooLarge (max 1 ((length + size - 1) / size)) 65535)
  | unreadable {fault : Fault} (refused : disk.read path = .error fault) :
    Obstacle session disk path size 7 (.file fault)

section

variable {κ : Type} {session : Session κ} {disk : Disk} {path : Path} {size : Nat}

/-- Each check has one error. -/
theorem Obstacle.eq {n : Nat} {e e' : Error} (h : Obstacle session disk path size n e)
    (h' : Obstacle session disk path size n e') : e = e' := by
  cases h with
  | noKey | noName | badSize =>
    cases h'
    rfl
  | longName named =>
    cases h' with
    | longName named' =>
      rw [named] at named'
      cases named'
      rfl
  | unopened refused =>
    cases h' with
    | unopened refused' =>
      rw [refused] at refused'
      cases refused'
      rfl
  | tooLarge opened =>
    cases h' with
    | tooLarge opened' =>
      rw [opened] at opened'
      cases opened'
      rfl
  | unreadable refused =>
    cases h' with
    | unreadable refused' =>
      rw [refused] at refused'
      cases refused'
      rfl

/-- No check before this one fails. -/
def Clear (session : Session κ) (disk : Disk) (path : Path) (size n : Nat) : Prop :=
  ∀ m < n, ∀ e, ¬ Obstacle session disk path size m e

theorem Clear.one : Clear session disk path size 1 := by
  intro m before e h
  obtain rfl : m = 0 := by omega
  cases h

theorem Clear.next {n : Nat} (clear : Clear session disk path size n)
    (passed : ∀ e, ¬ Obstacle session disk path size n e) : Clear session disk path size (n + 1) := by
  intro m before
  rcases Nat.lt_succ_iff_lt_or_eq.1 before with before | rfl
  · exact clear m before
  · exact passed

/-- The first obstacle is met. -/
structure Meets (session : Session κ) (disk : Disk) (path : Path) (size n : Nat) (e : Error) :
    Prop where
  here : Obstacle session disk path size n e
  clear : Clear session disk path size n

theorem Meets.eq {n n' : Nat} {e e' : Error} (h : Meets session disk path size n e)
    (h' : Meets session disk path size n' e') : e = e' := by
  rcases Nat.lt_trichotomy n n' with before | rfl | behind
  · exact absurd h.here (h'.clear n before e)
  · exact h.here.eq h'.here
  · exact absurd h'.here (h.clear n' behind e')

/-- A file that can be sent meets no obstacle. -/
theorem Sendable.unobstructed [Keyring κ] (file : Sendable session disk path size) (n : Nat)
    (e : Error) : ¬ Obstacle session disk path size n e := by
  have found := file.found
  intro h
  cases h with
  | noKey none =>
    rw [file.held] at none
    cases none
  | noName none =>
    have named := file.named
    rw [none] at named
    cases named
  | longName named long =>
    have shown := file.named
    rw [named] at shown
    rw [show Utf8.lossy _ = file.name from Option.some.inj shown] at long
    exact absurd file.short (Nat.not_lt.2 long)
  | badSize bad =>
    have positive := file.positive
    have bounded : size ≤ 0xFFFFFFFF - 267 - 16 := file.bounded
    omega
  | unopened refused =>
    unfold Disk.openFile at refused
    rw [found] at refused
    cases refused
  | tooLarge opened large =>
    unfold Disk.openFile at opened
    rw [found] at opened
    cases opened
    have countable := file.countable
    unfold sliceCount Disk.content at countable
    exact absurd large (Nat.not_lt.2 countable)
  | unreadable refused =>
    rw [Disk.read_of_find found] at refused
    cases refused

end

/-! ## Meeting them -/

section

variable {κ σ : Type} [Server σ] {w : World σ} {session : Session κ} {path : Path} {size : Nat}

/-- The obstacles that have to do with the file: opening it and reading it once come to the first of
them, or it can be cut into slices that the packets can count. -/
theorem meets_or_found {β : Type} (clear : Clear session w.disk path size 4)
    (next : Slicer OpenFile → UInt32 → Act (InWorld σ) β) :
    (∃ n e, Meets session w.disk path size n e ∧
      w.run (do
        let slicer ← Slicer.openFile path size
        if Upload.maxPackets < slicer.slices then
          throw (.fileTooLarge slicer.slices Upload.maxPackets)
        let checksum ← fileChecksum path
        next slicer checksum) = (.error e, w)) ∨
    ∃ number, w.disk.find path = .ok (.file number) ∧ 0 < size ∧ size ≤ maxSlice ∧
      sliceCount size (w.disk.content number).length ≤ Upload.maxPackets := by
  by_cases bad : size = 0 ∨ maxSlice < size
  · refine .inl ⟨4, _, ⟨.badSize bad, clear⟩, ?_⟩
    exact World.run_bind_of_error (Slicer.run_openFile_of_size bad w)
  have clear := clear.next fun e h => by
    cases h with
    | badSize bad' => exact bad bad'
  obtain ⟨positive, bounded⟩ : 0 < size ∧ size ≤ maxSlice := by omega
  have opens := Slicer.run_openFile_eq positive bounded w path
  cases opened : w.disk.openFile path with
  | error fault =>
    rw [opened] at opens
    exact .inl ⟨5, _, ⟨.unopened opened, clear⟩, World.run_bind_of_error opens⟩
  | ok opening =>
    have clear := clear.next fun e h => by
      cases h with
      | unopened refused =>
        rw [opened] at refused
        cases refused
    obtain ⟨file, length⟩ := opening
    rw [opened] at opens
    rw [World.run_bind_of_ok opens]
    have count : (⟨file, size, length, 0, 0⟩ : Slicer OpenFile).slices = sliceCount size length :=
      rfl
    simp only [count]
    by_cases large : Upload.maxPackets < sliceCount size length
    · refine .inl ⟨6, _, ⟨.tooLarge opened large, clear⟩, ?_⟩
      rw [if_pos large]
      rfl
    have clear := clear.next fun e h => by
      cases h with
      | tooLarge opened' large' =>
        rw [opened] at opened'
        cases opened'
        exact large large'
    rw [if_neg large]
    have sums := run_fileChecksum_eq w path
    cases read : w.disk.read path with
    | error fault =>
      rw [read] at sums
      exact .inl ⟨7, _, ⟨.unreadable read, clear⟩, World.run_bind_of_error sums⟩
    | ok content =>
      obtain ⟨number, found, rfl⟩ := Disk.find_of_read read
      unfold Disk.openFile at opened
      rw [found] at opened
      cases opened
      exact .inr ⟨number, found, positive, bounded, Nat.not_lt.1 large⟩

/-- Under a keyring that seals what it is given, a file can be sent that is found and can be cut. -/
theorem Sendable.of_seals [Keyring κ] {disk : Disk} (seals : Seals session.keyring)
    {key : SessionKey} (held : session.key = some key) {raw : Bytes}
    (named : path.fileName? = some raw)
    (short : (Utf8.encode (Utf8.lossy raw)).length < Wire.nameWidth) {number : Nat}
    (found : disk.find path = .ok (.file number)) (positive : 0 < size) (bounded : size ≤ maxSlice)
    (countable : sliceCount size (disk.content number).length ≤ Upload.maxPackets) :
    Nonempty (Sendable session disk path size) := by
  let ciphertext slice := (Keyring.encrypt session.keyring key slice).toOption.getD []
  have sealed (slice : Bytes) : Keyring.encrypt session.keyring key slice = .ok (ciphertext slice) ∧
      (ciphertext slice).length ≤ slice.length + 16 := by
    obtain ⟨bs, encrypted, length⟩ := seals key slice
    have same : ciphertext slice = bs := by
      show (Keyring.encrypt session.keyring key slice).toOption.getD [] = bs
      rw [encrypted]
      rfl
    rw [same]
    exact ⟨encrypted, length⟩
  exact ⟨{ key, held, name := Utf8.lossy raw, named := by rw [named]; rfl, short, number, found,
           positive, bounded, countable, ciphertext
           encrypts := fun slice _ => (sealed slice).1
           fits := fun slice mem => fits_of_le bounded mem (sealed slice).2 }⟩

/-- An upload meets an obstacle, and nothing happens, or its file can be sent. -/
theorem meets_or_sendable [Keyring κ] (seals : Seals session.keyring) (w : World σ) (path : Path)
    (options : UploadOptions) :
    (∃ n e, Meets session w.disk path options.sliceSize n e ∧
      w.run (Upload.sendFile session path options) = (.error e, w)) ∨
    Nonempty (Sendable session w.disk path options.sliceSize) := by
  unfold Upload.sendFile
  cases held : session.key with
  | none => exact .inl ⟨1, _, ⟨.noKey held, .one⟩, rfl⟩
  | some key =>
    have clear : Clear session w.disk path options.sliceSize 2 := Clear.one.next fun e h => by
      cases h with
      | noKey none =>
        rw [held] at none
        cases none
    cases named : path.fileName? with
    | none => exact .inl ⟨2, _, ⟨.noName named, clear⟩, rfl⟩
    | some raw =>
      have clear := clear.next fun e h => by
        cases h with
        | noName none =>
          rw [named] at none
          cases none
      simp only
      rcases Nat.lt_or_ge (Utf8.encode (Utf8.lossy raw)).length Wire.nameWidth with short | long
      · have clear := clear.next fun e h => by
          cases h with
          | longName named' long =>
            rw [named] at named'
            cases named'
            exact absurd short (Nat.not_lt.2 long)
        rw [Field.checkName_of_lt short, World.run_bind_of_ok (World.run_ofExcept _ _)]
        rcases meets_or_found clear _ with meets | ⟨number, found, positive, bounded, countable⟩
        · exact .inl meets
        · exact .inr (Sendable.of_seals seals held named short found positive bounded countable)
      · rw [Field.checkName_of_le long]
        exact .inl ⟨3, _, ⟨.longName named long, clear⟩,
          World.run_bind_of_error (World.run_ofExcept _ _)⟩

end

/-- An upload of anything, over any line to any server. If a check fails, the first that does gives
the error and nothing has happened. If none does, the upload writes the first packet before all else,
and fails only because of the line, the server's responses, or four checksums that differ. There are
too many packets if and only if the file is longer than as many slices as there can be packets. -/
theorem sendFile_preflight {κ σ : Type} [Keyring κ] [Server σ] (w : World σ) (session : Session κ)
    (path : Path) (options : UploadOptions) (seals : Seals session.keyring) :
    (∀ n e, Meets session w.disk path options.sliceSize n e →
      w.run (Upload.sendFile session path options) = (.error e, w)) ∧
    ((∀ n e, ¬ Obstacle session w.disk path options.sliceSize n e) →
      ∃ (file : Sendable session w.disk path options.sliceSize) (f : Frame) (p : Packet)
        (ds : List Deed) (outcome : Except Error Report) (l : Line σ) (log : List Event),
        file.frames[0]? = some f ∧ file.Brings 0 f p ∧
        w.run (Upload.sendFile session path options) = (outcome, w.talked l log) ∧
        w.line.Does ds l ∧ Begins f ds ∧
        ∀ e, outcome = .error e →
          Interrupted ds e ∨ e = .checksumsDiffer 4 ∧ file.GivesUp 4 ds) ∧
    (0 < options.sliceSize → ∀ length,
      (65535 < max 1 ((length + options.sliceSize - 1) / options.sliceSize) ↔
        65535 * options.sliceSize < length)) := by
  refine ⟨?_, ?_, ?_⟩
  · intro n e meets
    rcases meets_or_sendable seals w path options with ⟨n', e', meets', ran⟩ | ⟨⟨file⟩⟩
    · rw [meets.eq meets']
      exact ran
    · exact absurd meets.here (file.unobstructed n e)
  · intro unobstructed
    rcases meets_or_sendable seals w path options with ⟨n, e, meets, -⟩ | ⟨⟨file⟩⟩
    · exact absurd meets.here (unobstructed n e)
    · obtain ⟨s, log, stands, started⟩ := file.exists_started
      obtain ⟨ds, outcome, l, log', ran, does, dealt⟩ :=
        file.deals_settle options.showProgress Upload.maxResends 1 (w.talked w.line log) s 0 rfl
          stands rfl
      obtain ⟨f, p, framed, brings⟩ := file.frames_bring file.count_pos
      obtain ⟨rest, frames⟩ := file.exists_frames
      have first : file.first = f := by
        rw [frames] at framed
        exact Option.some.inj framed
      exact ⟨file, f, p, ds, outcome, l, log', framed, brings, started.trans ran, does,
        first ▸ dealt.begins, dealt.failure⟩
  · intro positive length
    exact lt_sliceCount_iff positive (by decide)

/-- The notes are sent, and without a key they are not. -/
theorem sendFile_preflight_notes :
    sampleWorld.run (Upload.sendFile { sampleSession with key := none } (.ofText "notes") {}) =
      (.error (.keys .noSessionKey), sampleWorld) ∧
    ∃ f ds outcome l log,
      sampleWorld.run (Upload.sendFile sampleSession (.ofText "notes") { sliceSize := 2 }) =
        (outcome, sampleWorld.talked l log) ∧
      sampleWorld.line.Does ds l ∧ Begins f ds := by
  constructor
  · have checks := sendFile_preflight sampleWorld { sampleSession with key := none }
      (.ofText "notes") {} (RsaKeyring.seals _)
    exact checks.1 1 _ ⟨.noKey rfl, .one⟩
  · have checks := sendFile_preflight sampleWorld sampleSession (.ofText "notes") { sliceSize := 2 }
      (RsaKeyring.seals _)
    obtain ⟨file, f, p, ds, outcome, l, log, -, -, ran, does, begins, -⟩ :=
      checks.2.1 sampleFile.unobstructed
    exact ⟨f, ds, outcome, l, log, ran, does, begins⟩

end EncryptedBackup
