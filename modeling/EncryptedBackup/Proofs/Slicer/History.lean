/-
What becomes of an open slicer: slices are asked for, it is rewound, and others change the file, in
any order (`Chronicle`). What a call for a slice can do is said once (`Next`); how the counters of
the slicer stand to what it has handed out follows for every history (`Chronicle.tally`).
-/
import EncryptedBackup.Proofs.Upload.Slices
import EncryptedBackup.World.Script

namespace EncryptedBackup

namespace Slicer

variable {σ : Type} [Server σ] {s s' s₀ : Slicer OpenFile} {w w' w₀ : World σ} {number size : Nat}

/-! ## One call -/

/-- What comes of asking for the next slice of the file with a number, on a disk: nothing if all
were handed out, a slice of the length that is due, or an error if there is less. The machine goes
on in the file by what it has read, be it enough or not. -/
inductive Next (disk : Disk) (number : Nat) (s : Slicer OpenFile) :
    Except Error (Option Bytes) → Slicer OpenFile → Prop where
  | done (all : s.slices ≤ s.count) : Next disk number s (.ok none) s
  | full {bs : Bytes} (more : s.count < s.slices)
    (read : disk.slice number s.file.position s.nextLength = bs)
    (length : bs.length = s.nextLength) :
    Next disk number s (.ok (some bs))
      { s.moved s.nextLength with taken := s.taken + s.nextLength, count := s.count + 1 }
  | short {bs : Bytes} (more : s.count < s.slices)
    (read : disk.slice number s.file.position s.nextLength = bs)
    (short : bs.length < s.nextLength) :
    Next disk number s (.error (.file (.cameShort s.nextLength s.taken bs.length)))
      (s.moved bs.length)

theorem run_next_spec (w : World σ) (file : s.file.entry = .file number) :
    ∃ outcome s', w.run (Act.sure s.next) = (.ok (outcome, s'), w) ∧
      s.Next w.disk number outcome s' := by
  have ran := run_next_eq (w := w) file rfl
  rcases Nat.lt_or_ge s.count s.slices with more | all
  · rw [if_neg (Nat.not_le.2 more)] at ran
    have bound : (w.disk.slice number s.file.position s.nextLength).length ≤ s.nextLength := by
      rw [Disk.slice_eq]
      exact List.length_take_le ..
    rcases Nat.lt_or_eq_of_le bound with short | full
    · rw [accept_of_short (by rwa [moved_nextLength])] at ran
      exact ⟨_, _, ran, .short more rfl short⟩
    · rw [accept_of_full (by simp [full]), full] at ran
      exact ⟨_, _, ran, .full more rfl full⟩
  · rw [if_pos all] at ran
    exact ⟨_, _, ran, .done all⟩

theorem next_of_run {outcome : Except Error (Option Bytes)} (file : s.file.entry = .file number)
    (ran : w.run (Act.sure s.next) = (.ok (outcome, s'), w')) :
    w' = w ∧ s.Next w.disk number outcome s' := by
  obtain ⟨outcome', s'', ran', next⟩ := run_next_spec w file
  rw [ran'] at ran
  cases ran
  exact ⟨rfl, next⟩

/-! ## Histories -/

/-- Something that is done with an open slicer, or by others to the disk. -/
inductive Episode where
  | asked (outcome : Except Error (Option Bytes))
  | rewound
  | changed (disk : Disk)

/-- The slicer and the world that come of some episodes, the newest first. -/
inductive Chronicle (s₀ : Slicer OpenFile) (w₀ : World σ) :
    List Episode → Slicer OpenFile → World σ → Prop where
  | opened : Chronicle s₀ w₀ [] s₀ w₀
  | asked {past : List Episode} {s s' : Slicer OpenFile} {w w' : World σ}
    {outcome : Except Error (Option Bytes)} (earlier : Chronicle s₀ w₀ past s w)
    (ran : w.run (Act.sure s.next) = (.ok (outcome, s'), w')) :
    Chronicle s₀ w₀ (.asked outcome :: past) s' w'
  | rewound {past : List Episode} {s s' : Slicer OpenFile} {w w' : World σ}
    {outcome : Except Error Unit} (earlier : Chronicle s₀ w₀ past s w)
    (ran : w.run (Act.sure s.rewind) = (.ok (outcome, s'), w')) :
    Chronicle s₀ w₀ (.rewound :: past) s' w'
  | changed {past : List Episode} {s : Slicer OpenFile} {w : World σ}
    (earlier : Chronicle s₀ w₀ past s w) (disk : Disk) :
    Chronicle s₀ w₀ (.changed disk :: past) s { w with disk }

/-- How often a slice was asked for since the start or the last rewinding. -/
def calls : List Episode → Nat
  | [] => 0
  | .asked _ :: past => calls past + 1
  | .rewound :: _ => 0
  | .changed _ :: past => calls past

/-- The slices that were handed out since then, in order. -/
def given : List Episode → List Bytes
  | [] => []
  | .asked (.ok (some bs)) :: past => given past ++ [bs]
  | .asked _ :: past => given past
  | .rewound :: _ => []
  | .changed _ :: past => given past

/-- How many bytes were read since then and not handed out, because they were too few. -/
def lost : List Episode → Nat
  | [] => 0
  | .asked (.error (.file (.cameShort _ _ read))) :: past => lost past + read
  | .asked _ :: past => lost past
  | .rewound :: _ => 0
  | .changed _ :: past => lost past

/-! ## What the counters come to -/

/-- A slicer of a size, on a file that had a length, after some episodes: it counts what it has
handed out, and the machine is ahead of that by what was lost. -/
structure Tally (s : Slicer OpenFile) (number size length : Nat) (past : List Episode) : Prop where
  entry : s.file.entry = .file number
  size_eq : s.size = size
  length_eq : s.length = length
  count : s.count = (given past).length
  taken : s.taken = (given past).flatten.length
  filled : s.taken = min (s.count * size) length
  position : s.file.position = s.taken + lost past
  spared : length = 0 → lost past = 0

namespace Tally

variable {length : Nat} {past : List Episode} {disk : Disk}

theorem nextLength (h : s.Tally number size length past) :
    s.nextLength = min (length - s.taken) size := by
  rw [← h.length_eq, ← h.size_eq]
  rfl

theorem lt_sliceCount (h : s.Tally number size length past) (more : s.count < s.slices) :
    s.count < sliceCount size length := by
  rw [← h.length_eq, ← h.size_eq]
  exact more

theorem next {outcome : Except Error (Option Bytes)} (h : s.Tally number size length past)
    (next : s.Next disk number outcome s') :
    s'.Tally number size length (.asked outcome :: past) := by
  cases next with
  | done => exact { h with }
  | full more read full =>
    have due := h.nextLength
    have start := mul_le_of_lt_sliceCount (h.lt_sliceCount more)
    refine ⟨h.entry, h.size_eq, h.length_eq, ?_, ?_, ?_, ?_, h.spared⟩
    · simp [given, h.count]
    · simp [given, h.taken, full]
    · have filled := h.filled
      simp only [Nat.succ_mul]
      omega
    · have position := h.position
      simp only [moved, lost]
      omega
  | short more read short =>
    refine ⟨h.entry, h.size_eq, h.length_eq, h.count, h.taken, h.filled, ?_, ?_⟩
    · have position := h.position
      simp only [moved, lost]
      omega
    -- of an empty file nothing is due, so nothing comes short
    · intro empty
      have due := h.nextLength
      omega

theorem rewind {outcome : Except Error Unit} (h : s.Tally number size length past)
    (ran : w.run (Act.sure s.rewind) = (.ok (outcome, s'), w')) :
    s'.Tally number size length (.rewound :: past) := by
  cases ran
  exact ⟨h.entry, h.size_eq, h.length_eq, rfl, rfl, by simp, rfl, fun _ => rfl⟩

end Tally

omit [Server σ] in
theorem Stands.tally (h : s.Stands w.disk number size 0) :
    s.Tally number size (w.disk.content number).length [] :=
  have zero : s.taken = 0 := by rw [h.taken, Nat.zero_mul, Nat.zero_min]
  ⟨h.entry, h.size_eq, h.length, h.count, zero, by rw [h.count, h.taken], h.position, fun _ => rfl⟩

/-- The counters after any history of a slicer that was opened before its first slice. -/
theorem Chronicle.tally {past : List Episode} (h : Chronicle s₀ w₀ past s w)
    (start : s₀.Stands w₀.disk number size 0) :
    s.Tally number size (w₀.disk.content number).length past := by
  induction h with
  | opened => exact start.tally
  | asked earlier ran ih => exact ih.next (next_of_run ih.entry ran).2
  | rewound earlier ran ih => exact ih.rewind ran
  | changed earlier disk ih => exact { ih with }

/-! ## Five bytes of notes -/

/-- A machine with five bytes of notes, and nobody to send them to. -/
def jotter : World Script :=
  { disk := { entries := [([Utf8.encode "notes"], .file 0)], contents := [#[1, 2, 3, 4, 5]] }
    line := { server := {} }
    network := .error .connectionRefused }

end Slicer

end EncryptedBackup
