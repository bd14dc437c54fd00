/-
The loop that reads a file for its checksum. On every machine it takes in the pieces that the reads
bring, up to the read that brings nothing, and fails if a read fails (`Digest.takeRest_eq_map`); so
the checksum is that of these pieces together (`fileChecksum_eq_map`). In a world one read brings
what comes next in the file (`run_readRest_of_some`), the loop is at the end of the file before it
may not read any more (`run_readRest`), and the checksum is that of the whole content
(`run_fileChecksum_eq`).
-/
import EncryptedBackup.Proofs.World.Disk
import EncryptedBackup.Proofs.World.Run
import EncryptedBackup.Slicer

namespace EncryptedBackup

/-! ## On every machine -/

section

variable {m : Type → Type} {File : Type} [Monad m] [Machine m File]

/-- The rest of an open file in the pieces that its reads bring, up to the read that brings nothing;
there are at most `left` reads. -/
def readRest : (left : Nat) → File → Act m (List Bytes)
  | 0, _ => return []
  | left + 1, file => do
    let (outcome, file) ← Act.sure (Machine.readSome file bufferSize)
    let bs ← Act.ofExcept (outcome.mapError .file)
    if bs.isEmpty then return []
    return bs :: (← readRest left file)

/-- A file in the pieces that its reads bring. -/
def readPieces (path : Path) : Act m (List Bytes) := do
  let (file, length) ← Act.orElse .file (Machine.openFile path)
  readRest (readLimit length) file

variable [LawfulMonad m]

/-- The digest of what the reads bring, in the order in which they bring it; it fails if they do. -/
theorem Digest.takeRest_eq_map : ∀ (left : Nat) (d : Digest) (file : File),
    (d.takeRest left file : Act m Digest) = (fun ps => d.feed ps.flatten) <$> readRest left file
  | 0, d, file => by
    unfold takeRest readRest
    simp
  | left + 1, d, file => by
    unfold takeRest readRest
    rw [map_bind]
    refine bind_congr fun (outcome, file) => ?_
    rw [map_bind]
    refine bind_congr fun bs => ?_
    split
    · simp
    · rw [takeRest_eq_map left (d.feed bs) file, map_bind, map_eq_pure_bind]
      refine bind_congr fun ps => ?_
      rw [map_pure, List.flatten_cons, feed_append]

/-- However the reads cut a file, its checksum is that of all that they bring. -/
theorem fileChecksum_eq_map (path : Path) : (fileChecksum path : Act m UInt32) =
    (fun ps => checksum ps.flatten) <$> readPieces path := by
  unfold fileChecksum readPieces
  rw [map_bind]
  refine bind_congr fun (file, length) => ?_
  dsimp only
  rw [Digest.takeRest_eq_map, bind_map_left, map_eq_pure_bind]
  rfl

end

/-! ## In a world -/

variable {σ : Type} [Server σ] {w : World σ} {number : Nat}

/-- A read that fails is the last. -/
theorem run_readRest_of_error (left : Nat) {f f' : OpenFile} {fault : Fault}
    (failed : w.disk.readNext f bufferSize = (.error fault, f')) :
    w.run (readRest (left + 1) f) = (.error (.file fault), w) := by
  have read := w.run_readSome f bufferSize
  rw [failed] at read
  unfold readRest
  rw [World.run_bind_of_ok read]
  rfl

/-- At the end of a file a read brings nothing, and is the last. -/
theorem run_readRest_of_none (left : Nat) {f : OpenFile} (entry : f.entry = .file number)
    (done : (w.disk.content number).drop f.position = []) :
    w.run (readRest (left + 1) f) = (.ok [], w) := by
  have read := w.run_readSome f bufferSize
  rw [Disk.readNext_file _ entry, Disk.slice_eq, done] at read
  unfold readRest
  rw [World.run_bind_of_ok read]
  rfl

/-- Before the end of a file a read brings what comes next, and the following one goes on behind
it. -/
theorem run_readRest_of_some (left : Nat) {f : OpenFile} (entry : f.entry = .file number)
    {rest : Bytes} (here : (w.disk.content number).drop f.position = rest) (some : rest ≠ [])
    {ps : List Bytes} {w' : World σ}
    (after : w.run (readRest left { f with position := f.position + (rest.take bufferSize).length }) =
      (.ok ps, w')) : w.run (readRest (left + 1) f) = (.ok (rest.take bufferSize :: ps), w') := by
  have read := w.run_readSome f bufferSize
  rw [Disk.readNext_file _ entry, Disk.slice_eq, here] at read
  unfold readRest
  rw [World.run_bind_of_ok read]
  dsimp only [Except.mapError]
  rw [World.run_bind_of_ok (World.run_ofExcept _ _)]
  obtain ⟨b, bs, rfl⟩ := List.exists_cons_of_ne_nil some
  exact World.run_bind_of_ok after

/-- The reads of a file go on to its end. The induction is on how many may follow; they suffice, as
each brings a byte. -/
theorem run_readRest : ∀ (left : Nat) (f : OpenFile), f.entry = .file number →
    (w.disk.content number).length < f.position + left → w.run (readRest left f) =
      (.ok (pieces bufferSize ((w.disk.content number).drop f.position)), w)
  | 0, f, entry, enough => by
    rw [List.drop_eq_nil_of_le (by omega), pieces_nil]
    rfl
  | left + 1, f, entry, enough => by
    obtain ⟨rest, here⟩ : ∃ rest, (w.disk.content number).drop f.position = rest := ⟨_, rfl⟩
    rw [here]
    by_cases done : rest = []
    · subst done
      rw [run_readRest_of_none left entry here, pieces_nil]
    · have some : 0 < rest.length := List.length_pos_iff.2 done
      have moved : (w.disk.content number).drop (f.position + (rest.take bufferSize).length) =
          rest.drop bufferSize := by
        rw [← List.drop_drop, here]
        simp
      have after := run_readRest left
        { f with position := f.position + (rest.take bufferSize).length } entry (by
          rw [List.length_take]
          simp only [bufferSize]
          omega)
      rw [moved] at after
      rw [pieces_eq_cons (by decide) done]
      exact run_readRest_of_some left entry here done after

/-- What the reads of a file bring is its whole content, if that can be read. -/
theorem run_readPieces (w : World σ) (path : Path) : w.run (readPieces path) =
    (((w.disk.read path).map (pieces bufferSize)).mapError .file, w) := by
  have opened := w.run_openFile path
  unfold readPieces
  unfold Disk.openFile at opened
  unfold Disk.read Disk.fileNumber
  cases found : w.disk.find path with
  | error fault =>
    rw [found] at opened
    exact World.run_bind_of_error opened
  | ok entry =>
    rw [found] at opened
    cases entry with
    | directory => exact (World.run_bind_of_ok opened).trans (run_readRest_of_error _ rfl)
    | file number =>
      refine (World.run_bind_of_ok opened).trans ((run_readRest _ _ rfl ?_).trans rfl)
      simp [readLimit, Disk.content]

/-- Taken read by read, the checksum is that of the whole content, if that can be read. -/
theorem run_fileChecksum_eq (w : World σ) (path : Path) :
    w.run (fileChecksum path) = (((w.disk.read path).map checksum).mapError .file, w) := by
  have brought := run_readPieces w path
  rw [fileChecksum_eq_map, map_eq_pure_bind]
  cases read : w.disk.read path with
  | error fault =>
    rw [read] at brought
    exact World.run_bind_of_error brought
  | ok content =>
    rw [read] at brought
    rw [World.run_bind_of_ok brought]
    exact congrArg (fun bs => (Except.ok (checksum bs), w)) (pieces_flatten bufferSize content)

theorem run_fileChecksum {disk : Disk} {path : Path} (here : w.disk = disk)
    (found : disk.find path = .ok (.file number)) :
    w.run (fileChecksum path) = (.ok (checksum (disk.content number)), w) := by
  subst here
  rw [run_fileChecksum_eq, Disk.read_of_find found]
  rfl

end EncryptedBackup
