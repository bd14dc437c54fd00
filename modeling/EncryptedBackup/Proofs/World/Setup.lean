/-
What a client reads of the files that were set up for it, and what it writes there. What is read comes
of the text that a file holds (`Disk.Describes`), and reading changes nothing; a file that holds no text,
or not the text of what is read, is an error of the setup.
-/
import EncryptedBackup.Proofs.Text.Lines
import EncryptedBackup.Proofs.World.Disk
import EncryptedBackup.Proofs.World.Run

namespace EncryptedBackup

/-- The file at a path holds a text. -/
def Disk.Holds (d : Disk) (p : Path) (text : String) : Prop := d.read p = .ok (Utf8.encode text)

variable {σ : Type} [Server σ] {w : World σ} {p : Path} {text : String}

theorem World.run_isFile (w : World σ) (p : Path) :
    w.run (Act.sure (Machine.isFile p)) = (.ok (w.disk.isFile p), w) := rfl

theorem Job.run_readText (holds : w.disk.Holds p text) : w.run (readText p) = (.ok text, w) := by
  have read : w.run (Act.orElse (fun fault => .setup (.unreadable p.text fault))
      (Machine.readFile p)) = (.ok (Utf8.encode text), w) := by
    show ((w.disk.read p).mapError _, w) = _
    rw [holds]
    rfl
  unfold readText
  rw [World.run_bind_of_ok read]
  simp only [Utf8.decode?_encode]
  rfl

/-- A file that holds no text cannot be read as one. -/
theorem Job.run_readText_of_not (nothing : ∀ text, ¬ w.disk.Holds p text) :
    ∃ fault, w.run (readText p) = (.error (.setup (.unreadable p.text fault)), w) := by
  have read : w.run (Act.orElse (fun fault => .setup (.unreadable p.text fault))
      (Machine.readFile p)) =
        ((w.disk.read p).mapError fun fault => .setup (.unreadable p.text fault), w) := rfl
  unfold readText
  cases stored : w.disk.read p with
  | error fault =>
    rw [stored] at read
    exact ⟨fault, World.run_bind_of_error read⟩
  | ok bytes =>
    rw [stored] at read
    rw [World.run_bind_of_ok read]
    cases decoded : Utf8.decode? bytes with
    | none => exact ⟨.notUtf8, rfl⟩
    | some text =>
      rw [Utf8.decode?_eq_some_iff.1 decoded] at stored
      exact absurd stored (nothing text)

/-! ## What a file describes -/

/-- The file at a path describes something: it holds a text of which a parser makes it. -/
def Disk.Describes {δ α : Type} (d : Disk) (p : Path) (parse : String → Except δ α) (a : α) : Prop :=
  ∃ text, d.Holds p text ∧ parse text = .ok a

section

variable {δ α : Type} {parse : String → Except δ α}

/-- Read a file and parse it. -/
def Job.readParsed {m : Type → Type} {File : Type} [Monad m] [Machine m File] (p : Path)
    (parse : String → Except δ α) (shown : δ → SetupDefect) : Act m α := do
  let content ← Job.readText p
  match parse content with
  | .error defect => throw (.setup (shown defect))
  | .ok a => return a

theorem Job.run_readParsed (shown : δ → SetupDefect) {a : α}
    (described : w.disk.Describes p parse a) : w.run (readParsed p parse shown) = (.ok a, w) := by
  obtain ⟨text, holds, parsed⟩ := described
  unfold readParsed
  rw [World.run_bind_of_ok (run_readText holds), parsed]
  rfl

theorem Job.run_readParsed_of_not (shown : δ → SetupDefect)
    (nothing : ∀ a, ¬ w.disk.Describes p parse a) :
    ∃ defect, w.run (readParsed p parse shown) = (.error (.setup defect), w) := by
  unfold readParsed
  by_cases holds : ∃ text, w.disk.Holds p text
  · obtain ⟨text, holds⟩ := holds
    rw [World.run_bind_of_ok (run_readText holds)]
    cases parsed : parse text with
    | ok a => exact absurd ⟨text, holds, parsed⟩ (nothing a)
    | error defect => exact ⟨_, rfl⟩
  · obtain ⟨fault, ran⟩ := run_readText_of_not (not_exists.1 holds)
    exact ⟨_, World.run_bind_of_error ran⟩

end

section

variable {m : Type → Type} {File : Type} [Monad m] [Machine m File]

theorem Job.read_eq (p : Path) :
    (read p : Act m Job) = readParsed p parse (.job p.text) := by
  unfold read readParsed
  congr
  funext content
  cases parse content <;> rfl

theorem Identity.load_eq (p : Path) :
    (load p : Act m Identity) = Job.readParsed p (parse p.text) id := by
  unfold load Job.readParsed
  congr
  funext content
  cases parse p.text content <;> rfl

end

/-- The job that a file describes is read. -/
theorem Job.run_read {job : Job} (described : w.disk.Describes p parse job) :
    w.run (read p) = (.ok job, w) := by
  rw [read_eq]
  exact run_readParsed _ described

theorem Job.run_read_of_not (nothing : ∀ job, ¬ w.disk.Describes p parse job) :
    ∃ defect, w.run (read p) = (.error (.setup defect), w) := by
  rw [read_eq]
  exact run_readParsed_of_not _ nothing

/-- The identity that a file describes is loaded. -/
theorem Identity.run_load {i : Identity} (described : w.disk.Describes p (parse p.text) i) :
    w.run (load p) = (.ok i, w) := by
  rw [load_eq]
  exact Job.run_readParsed _ described

theorem Identity.run_load_of_not (nothing : ∀ i, ¬ w.disk.Describes p (parse p.text) i) :
    ∃ defect, w.run (load p) = (.error (.setup defect), w) := by
  rw [load_eq]
  exact Job.run_readParsed_of_not _ nothing

/-- What is loaded is what the file describes. -/
theorem Identity.describes_of_run_load {i : Identity} {w' : World σ}
    (loaded : w.run (load p) = (.ok i, w')) : w' = w ∧ w.disk.Describes p (parse p.text) i := by
  by_cases described : ∃ i, w.disk.Describes p (parse p.text) i
  · obtain ⟨i', described⟩ := described
    rw [run_load described] at loaded
    cases loaded
    exact ⟨rfl, described⟩
  · obtain ⟨defect, ran⟩ := run_load_of_not (not_exists.1 described)
    rw [ran] at loaded
    cases loaded

/-- Storing an identity replaces the file, or fails and changes nothing. -/
theorem Identity.run_store (w : World σ) (path : Path) (i : Identity) :
    ∃ log, w.run (store path i) =
      match w.disk.write path (Utf8.encode i.render) with
      | .error fault => (.error (.file fault), w)
      | .ok disk => (.ok (), { w with disk, log }) := by
  have written : w.run (Act.orElse .file (Machine.writeFile path (Utf8.encode i.render))) =
      ((w.writeFile path (Utf8.encode i.render)).1.mapError .file,
        (w.writeFile path (Utf8.encode i.render)).2) := rfl
  unfold World.writeFile at written
  unfold store
  cases saved : w.disk.write path (Utf8.encode i.render) with
  | error fault =>
    rw [saved] at written
    exact ⟨w.log, World.run_bind_of_error written⟩
  | ok disk =>
    rw [saved] at written
    exact ⟨_, World.run_bind_of_ok written⟩

end EncryptedBackup
