/-
The slices of a file as a list: joined they are its content (`slices_flatten`). A slicer on a file
that stays as it is hands them out one after the other, from the start again after rewinding
(`run_next`, `run_rewind`).
-/
import EncryptedBackup.Proofs.World.Run
import EncryptedBackup.Slicer

namespace EncryptedBackup

/-! ## Slices of a content -/

/-- How many slices of a size a content of a length has: an empty one has one. -/
def sliceCount (size length : Nat) : Nat := max 1 ((length + size - 1) / size)

/-- The slice with an index. -/
def sliceAt (size : Nat) (content : Bytes) (i : Nat) : Bytes := (content.drop (i * size)).take size

/-- The bytes of a content from one offset up to another. -/
def between (content : Bytes) (first last : Nat) : Bytes := (content.take last).drop first

/-- The slices of a content, in order. -/
def slices (size : Nat) (content : Bytes) : List Bytes :=
  (List.range (sliceCount size content.length)).map (sliceAt size content)

theorem sliceAt_eq_between (size : Nat) (content : Bytes) (i : Nat) :
    sliceAt size content i = between content (i * size) (min ((i + 1) * size) content.length) := by
  unfold sliceAt between
  rw [List.take_drop, ← List.take_eq_take_min, Nat.succ_mul]

theorem sliceAt_length_le (size : Nat) (content : Bytes) (i : Nat) :
    (sliceAt size content i).length ≤ size := by
  unfold sliceAt
  rw [List.length_take]
  exact Nat.min_le_left ..

theorem flatten_sliceAt (size : Nat) (content : Bytes) : ∀ n : Nat,
    ((List.range n).map (sliceAt size content)).flatten = content.take (n * size)
  | 0 => by simp
  | n + 1 => by
    rw [List.range_succ, List.map_append, List.flatten_append, flatten_sliceAt size content n,
      Nat.succ_mul, List.take_add]
    simp [sliceAt]

theorem le_sliceCount_mul {size : Nat} (positive : 0 < size) (length : Nat) :
    length ≤ sliceCount size length * size := by
  have split := Nat.div_add_mod (length + size - 1) size
  have rest := Nat.mod_lt (length + size - 1) positive
  have upper : (length + size - 1) / size ≤ sliceCount size length := Nat.le_max_right ..
  have grow := Nat.mul_le_mul_left size upper
  rw [Nat.mul_comm]
  omega

/-- A slice starts inside the content, unless that is empty. -/
theorem mul_lt_of_lt_sliceCount {size length i : Nat} (some : 0 < length)
    (h : i < sliceCount size length) : i * size < length := by
  rcases Nat.eq_zero_or_pos size with rfl | positive
  · simpa using some
  · have one : 1 ≤ (length + size - 1) / size := (Nat.one_le_div_iff positive).2 (by omega)
    have inside : i + 1 ≤ (length + size - 1) / size := by
      unfold sliceCount at h
      omega
    have := Nat.mul_le_of_le_div size (i + 1) (length + size - 1) inside
    rw [Nat.succ_mul] at this
    omega

/-- A slice starts inside the content or, for an empty one, at its end. -/
theorem mul_le_of_lt_sliceCount {size length i : Nat} (h : i < sliceCount size length) :
    i * size ≤ length := by
  rcases Nat.eq_zero_or_pos length with rfl | some
  · have count : sliceCount size 0 = 1 := by
      unfold sliceCount
      rcases Nat.eq_zero_or_pos size with rfl | positive
      · rfl
      · rw [Nat.div_eq_of_lt (by omega)]
        rfl
    rw [count, Nat.lt_one_iff] at h
    simp [h]
  · exact Nat.le_of_lt (mul_lt_of_lt_sliceCount some h)

/-- There are more than so many slices if the content is longer than these. -/
theorem lt_sliceCount_iff {size length n : Nat} (positive : 0 < size) (some : 0 < n) :
    n < sliceCount size length ↔ n * size < length := by
  have more : n < (length + size - 1) / size ↔ (n + 1) * size ≤ length + size - 1 :=
    Nat.le_div_iff_mul_le positive
  rw [Nat.succ_mul] at more
  unfold sliceCount
  omega

/-- The slices joined are the content. -/
theorem slices_flatten {size : Nat} (positive : 0 < size) (content : Bytes) :
    (slices size content).flatten = content := by
  unfold slices
  rw [flatten_sliceAt, List.take_of_length_le (le_sliceCount_mul positive content.length)]

/-! ## A slicer at work -/

/-- A slicer on the file with a number has handed out its first `i` slices of a size, and the
machine stands where it should in the file. -/
structure Slicer.Stands (s : Slicer OpenFile) (disk : Disk) (number size i : Nat) : Prop where
  entry : s.file.entry = .file number
  size_eq : s.size = size
  length : s.length = (disk.content number).length
  taken : s.taken = min (i * size) (disk.content number).length
  count : s.count = i
  position : s.file.position = s.taken

namespace Slicer

variable {s : Slicer OpenFile} {disk : Disk} {number size i : Nat}

theorem Stands.slices (h : s.Stands disk number size i) :
    s.slices = sliceCount size (disk.content number).length := by
  unfold Slicer.slices sliceCount
  rw [h.size_eq, h.length]

theorem Stands.slice (h : s.Stands disk number size i) (more : i < s.slices) :
    disk.slice number s.file.position s.nextLength = sliceAt size (disk.content number) i ∧
      (sliceAt size (disk.content number) i).length = s.nextLength := by
  rw [h.slices] at more
  have start := mul_le_of_lt_sliceCount more
  have taken := h.taken
  rw [Nat.min_eq_left start] at taken
  have read : disk.slice number s.file.position s.nextLength =
      sliceAt size (disk.content number) i := by
    unfold nextLength sliceAt
    rw [Disk.slice_eq, h.position, h.length, h.size_eq, taken, ← List.length_drop, Nat.min_comm,
      ← List.take_eq_take_min]
  refine ⟨read, ?_⟩
  unfold nextLength sliceAt
  rw [h.length, h.size_eq, taken, List.length_take, List.length_drop, Nat.min_comm]

/-- A slicer for which the machine has gone on in the file. -/
def moved (s : Slicer OpenFile) (n : Nat) : Slicer OpenFile :=
  { s with file := { s.file with position := s.file.position + n } }

@[simp] theorem moved_nextLength (s : Slicer OpenFile) (n : Nat) :
    (s.moved n).nextLength = s.nextLength := rfl

theorem accept_of_full {s : Slicer OpenFile} {bs : Bytes} (full : s.nextLength ≤ bs.length) :
    s.accept bs =
      (.ok (some bs), { s with taken := s.taken + s.nextLength, count := s.count + 1 }) := by
  unfold accept
  rw [if_neg (by omega)]

theorem accept_of_short {s : Slicer OpenFile} {bs : Bytes} (short : bs.length < s.nextLength) :
    s.accept bs = (.error (.file (.cameShort s.nextLength s.taken bs.length)), s) := by
  unfold accept
  rw [if_pos short]

variable {σ : Type} [Server σ] {w : World σ}

/-- Asked for the next slice, a slicer takes what the machine reads from where it stands, unless all
were handed out. -/
theorem run_next_eq (file : s.file.entry = .file number) {bs : Bytes}
    (read : w.disk.slice number s.file.position s.nextLength = bs) :
    w.run (Act.sure s.next) =
      if s.slices ≤ s.count then (.ok (.ok none, s), w)
      else (.ok ((s.moved bs.length).accept bs), w) := by
  subst read
  have machine : StateT.run (Machine.readNext s.file s.nextLength : InWorld σ _) w =
      (w.disk.readNext s.file s.nextLength, w) := rfl
  rw [World.run_sure]
  unfold next
  by_cases done : s.slices ≤ s.count
  · simp only [if_pos done]
    rfl
  · simp only [if_neg done]
    rw [StateT.run_bind, machine, Disk.readNext_file _ file]
    rfl

/-- As long as there are slices left, the next one is handed out. -/
theorem run_next (here : w.disk = disk) (h : s.Stands disk number size i) (more : i < s.slices) :
    ∃ s' : Slicer OpenFile, s'.Stands disk number size (i + 1) ∧
      w.run (Act.sure s.next) = (.ok (.ok (some (sliceAt size (disk.content number) i)), s'), w) := by
  subst here
  obtain ⟨read, length⟩ := h.slice more
  have bound : i * size ≤ (w.disk.content number).length := by
    rw [h.slices] at more
    exact mul_le_of_lt_sliceCount more
  have taken := h.taken
  have next : s.nextLength = min (s.length - s.taken) s.size := rfl
  rw [h.length, h.size_eq] at next
  refine ⟨{ s.moved s.nextLength with taken := s.taken + s.nextLength, count := s.count + 1 },
    ⟨h.entry, h.size_eq, h.length, ?_, ?_, ?_⟩, ?_⟩
  · rw [Nat.succ_mul]
    simp only
    omega
  · exact congrArg (· + 1) h.count
  · exact congrArg (· + s.nextLength) h.position
  · rw [run_next_eq h.entry read, if_neg (by rw [h.count]; omega), length,
      accept_of_full (by simp [length])]
    rfl

/-- Rewound, a slicer stands before its first slice. -/
theorem run_rewind (h : s.Stands disk number size i) :
    ∃ s' : Slicer OpenFile, s'.Stands disk number size 0 ∧
      w.run (Act.sure s.rewind) = (.ok (.ok (), s'), w) :=
  ⟨⟨{ s.file with position := 0 }, s.size, s.length, 0, 0⟩,
    ⟨h.entry, h.size_eq, h.length, by simp, rfl, rfl⟩, rfl⟩

theorem run_openFile_of_size {path : Path} (bad : size = 0 ∨ maxSlice < size) (w : World σ) :
    w.run (Slicer.openFile path size) = (.error (.setup (.sliceSize maxSlice size)), w) := by
  unfold Slicer.openFile
  rw [if_pos bad]
  rfl

/-- With slices of a size that is admitted, a file is opened as the machine opens it. -/
theorem run_openFile_eq (positive : 0 < size) (bounded : size ≤ maxSlice) (w : World σ)
    (path : Path) : w.run (Slicer.openFile path size) = match w.disk.openFile path with
      | .error fault => (.error (.file fault), w)
      | .ok (file, length) => (.ok { file, size, length }, w) := by
  unfold Slicer.openFile
  rw [if_neg (by omega)]
  have opened := w.run_openFile path
  cases outcome : w.disk.openFile path with
  | error fault =>
    rw [outcome] at opened
    exact World.run_bind_of_error opened
  | ok opening =>
    rw [outcome] at opened
    exact World.run_bind_of_ok opened

/-- A file that is there is opened before its first slice. -/
theorem run_openFile {path : Path} (here : w.disk = disk) (positive : 0 < size)
    (bounded : size ≤ maxSlice) (found : disk.find path = .ok (.file number)) :
    ∃ s' : Slicer OpenFile, s'.Stands disk number size 0 ∧
      w.run (Slicer.openFile path size) = (.ok s', w) := by
  subst here
  refine ⟨⟨⟨.file number, 0⟩, size, (w.disk.stored number).size, 0, 0⟩,
    ⟨rfl, rfl, ?_, by simp, rfl, rfl⟩, ?_⟩
  · simp [Disk.content]
  · rw [run_openFile_eq positive bounded]
    unfold Disk.openFile
    rw [found]
    rfl

end Slicer

end EncryptedBackup
