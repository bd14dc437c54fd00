/-
The checksum of a file, taken read by read. On every machine, however its reads cut the content, it
is the checksum of the whole (`run_fileChecksum_of_yields`); and it is the one that a receiver comes
to who takes in the slices of the file one after the other, whatever their size
(`fileChecksum_streams`).
-/
import EncryptedBackup.Proofs.Checksum.Reads
import EncryptedBackup.Proofs.Slicer.Partition

namespace EncryptedBackup

/-! ## Reads -/

/-- A content as the reads of a file bring it: in pieces that are not empty and fit the buffer. -/
structure Reading where
  content : Bytes
  pieces : List Bytes
  joined : pieces.flatten = content
  filled : ∀ piece ∈ pieces, 0 < piece.length ∧ piece.length ≤ 65536

/-- On a machine, the reads of the file at a path yield its content in such pieces, up to the one that
brings nothing; or the file cannot be opened, or one of them fails. -/
def Yields {m : Type → Type} {File : Type} [Monad m] [Machine m File] (path : Path)
    (reads : m (Except Fault Reading)) : Prop :=
  (readPieces path : Act m (List Bytes)).run =
    (fun outcome => (outcome.map Reading.pieces).mapError .file) <$> reads

/-- However the reads cut a file, its checksum is that of the whole content. -/
theorem run_fileChecksum_of_yields {m : Type → Type} {File : Type} [Monad m] [LawfulMonad m]
    [Machine m File] {path : Path} {reads : m (Except Fault Reading)} (yields : Yields path reads) :
    (fileChecksum path : Act m UInt32).run =
      (fun outcome => (outcome.map fun r => checksum r.content).mapError .file) <$> reads := by
  rw [fileChecksum_eq_map, ExceptT.run_map, yields, Functor.map_map]
  refine congrArg (· <$> reads) (funext fun outcome => ?_)
  cases outcome with
  | error fault => rfl
  | ok r => exact congrArg (fun bs => Except.ok (checksum bs)) r.joined

/-- A content in pieces as large as can be. -/
def Reading.whole (content : Bytes) : Reading where
  content
  pieces := EncryptedBackup.pieces bufferSize content
  joined := pieces_flatten ..
  filled piece mem :=
    ⟨List.length_pos_iff.2 (ne_nil_of_mem_pieces mem), length_le_of_mem_pieces (by decide) mem⟩

/-- The reads of a file on the disk of a world. -/
def World.reads {σ : Type} (path : Path) : InWorld σ (Except Fault Reading) := do
  return ((← get).disk.read path).map .whole

theorem World.yields {σ : Type} [Server σ] (path : Path) :
    Yields path (World.reads (σ := σ) path) := by
  funext w
  refine (run_readPieces w path).trans ?_
  show _ = (Except.mapError _ (Except.map _ (Except.map _ (w.disk.read path))), w)
  cases w.disk.read path with
  | error fault => rfl
  | ok content => rfl

/-! ## Slices -/

/-- What a receiver comes to who takes in parts one after the other, and then the octets of how long
they are together. -/
def received (parts : List Bytes) : UInt32 :=
  ~~~ Checksum.remainder (parts.foldl Checksum.remainder 0) (octets parts.flatten.length)

theorem Digest.foldl_feed : ∀ (ps : List Bytes) (d : Digest), ps.foldl feed d = d.feed ps.flatten
  | [], d => by simp
  | p :: ps, d => by
    rw [List.foldl_cons, Digest.foldl_feed ps, List.flatten_cons, feed_append]

theorem received_eq (parts : List Bytes) : received parts = checksum parts.flatten := by
  have fed : ∀ (parts : List Bytes) (d : Digest), parts.foldl Checksum.remainder d.remainder =
      (parts.foldl Digest.feed d).remainder := by
    intro parts
    induction parts with
    | nil => exact fun d => rfl
    | cons p parts ih => exact fun d => ih (d.feed p)
  unfold received
  rw [fed parts {}, Digest.foldl_feed]
  show _ = ~~~ Checksum.remainder _ (octets (0 + parts.flatten.length))
  rw [Nat.zero_add]

namespace Slicer

variable {σ : Type} [Server σ] {s₀ s : Slicer OpenFile} {w₀ w : World σ} {number size : Nat}
  {past : List Episode}

/-- As many slices can be asked for as one likes, while nobody touches the file. -/
theorem Chronicle.exists_calls (start : s₀.Stands w₀.disk number size 0) (n : Nat) :
    ∃ past s, Chronicle s₀ w₀ past s w₀ ∧ calls past = n ∧ ∀ disk, .changed disk ∉ past := by
  induction n with
  | zero => exact ⟨[], s₀, .opened, rfl, by simp⟩
  | succ n ih =>
    obtain ⟨past, s, chronicle, count, calm⟩ := ih
    have pass := chronicle.pass start fun disk mem => absurd mem (calm disk)
    obtain ⟨s', ran, -⟩ := pass.run_next
    exact ⟨_, s', chronicle.asked ran, congrArg (· + 1) count, by simpa using calm⟩

theorem Chronicle.given_eq_slices (h : Chronicle s₀ w₀ past s w)
    (start : s₀.Stands w₀.disk number size 0)
    (untouched : Untouched number (w₀.disk.content number) past) (all : s.slices ≤ calls past) :
    given past = EncryptedBackup.slices size (w₀.disk.content number) := by
  have pass := h.pass start untouched
  rw [pass.given, List.take_of_length_le]
  rw [length_slices, ← pass.slices]
  exact all

end Slicer

open Slicer

/-- On every machine the checksum of a file is that of all that its reads bring up to the one that
brings nothing, and none if one fails; so it is that of the whole content, however the reads cut it.
And for every size of slices that is admitted, a pass through a file that nobody changes can go to
its end; a receiver who takes in the slices that were handed out comes to the same checksum. -/
theorem fileChecksum_streams {σ : Type} [Server σ] (w₀ : World σ) {path : Path} {number size : Nat}
    (found : w₀.disk.find path = .ok (.file number)) (positive : 0 < size)
    (bounded : size ≤ maxSlice) :
    (∀ {m : Type → Type} {File : Type} [Monad m] [LawfulMonad m] [Machine m File] (path' : Path),
      (fileChecksum path' : Act m UInt32) = (fun ps => checksum ps.flatten) <$> readPieces path' ∧
      ∀ {reads : m (Except Fault Reading)}, Yields path' reads →
        (fileChecksum path' : Act m UInt32).run =
          (fun outcome => (outcome.map fun r => checksum r.content).mapError .file) <$> reads) ∧
    ∃ s₀ : Slicer OpenFile, w₀.run (Slicer.openFile path size) = (.ok s₀, w₀) ∧
      (∃ past s, Chronicle s₀ w₀ past s w₀ ∧ Untouched number (w₀.disk.content number) past ∧
        s.slices ≤ calls past) ∧
      ∀ past s w, Chronicle s₀ w₀ past s w → Untouched number (w₀.disk.content number) past →
        s.slices ≤ calls past →
        w₀.run (fileChecksum path) = (.ok (received (given past)), w₀) ∧
          received (given past) = checksum (w₀.disk.content number) := by
  refine ⟨fun path' => ⟨fileChecksum_eq_map path', run_fileChecksum_of_yields⟩, ?_⟩
  obtain ⟨s₀, start, opened⟩ := run_openFile (w := w₀) rfl positive bounded found
  refine ⟨s₀, opened, ?_, ?_⟩
  · obtain ⟨past, s, chronicle, count, calm⟩ := Chronicle.exists_calls start
      (sliceCount size (w₀.disk.content number).length)
    have untouched : Untouched number (w₀.disk.content number) past :=
      fun disk mem => absurd mem (calm disk)
    have pass := chronicle.pass start untouched
    exact ⟨past, s, chronicle, untouched, Nat.le_of_eq (pass.slices.trans count.symm)⟩
  · intro past s w chronicle untouched all
    have same : received (given past) = checksum (w₀.disk.content number) := by
      rw [received_eq, chronicle.given_eq_slices start untouched all, slices_flatten positive]
    rw [same]
    exact ⟨run_fileChecksum rfl found, rfl⟩

/-- Five bytes of notes, in slices of two. -/
theorem fileChecksum_streams_jotter :
    (fileChecksum (.ofText "notes") : Act (InWorld Script) UInt32).run =
      (fun outcome => (outcome.map fun r => checksum r.content).mapError .file) <$>
        World.reads (.ofText "notes") ∧
    ∃ s₀ : Slicer OpenFile, jotter.run (Slicer.openFile (.ofText "notes") 2) = (.ok s₀, jotter) ∧
      ∃ past s, Chronicle s₀ jotter past s jotter ∧
        jotter.run (fileChecksum (.ofText "notes")) = (.ok (received (given past)), jotter) ∧
        received (given past) = checksum [1, 2, 3, 4, 5] := by
  have found : jotter.disk.find (.ofText "notes") = .ok (.file 0) := rfl
  obtain ⟨whole, s₀, opened, ⟨past, s, chronicle, untouched, all⟩, slices⟩ :=
    fileChecksum_streams jotter found (show 0 < 2 by decide) (by decide)
  exact ⟨(whole _).2 (World.yields _), s₀, opened, past, s, chronicle,
    slices past s jotter chronicle untouched all⟩

end EncryptedBackup
