/-
A slicer on a file that stays as it is: each call hands out the slice that is next since the start
or the last rewinding, and nothing behind the last (`Pass.run_next`). A pass that goes to the end has
cut the content into its parts (`Partition`), whatever was asked for before it
(`openFile_partitions`).
-/
import EncryptedBackup.Proofs.Slicer.History

namespace EncryptedBackup

/-! ## The parts of a content -/

/-- Some parts are those of a content, cut into slices of a size. -/
structure Partition (size : Nat) (content : Bytes) (parts : List Bytes) : Prop where
  joined : parts.flatten = content
  count : parts.length = max 1 ((content.length + size - 1) / size)
  full : ∀ bs ∈ parts.dropLast, bs.length = size
  last : ∀ bs, parts.getLast? = some bs → bs = [] → content = []
  empty : content = [] → parts = [[]]

theorem length_slices (size : Nat) (content : Bytes) :
    (slices size content).length = sliceCount size content.length := by
  simp [slices]

theorem getElem?_slices (size : Nat) (content : Bytes) (i : Nat) :
    (slices size content)[i]? =
      if i < sliceCount size content.length then some (sliceAt size content i) else none := by
  unfold slices
  rw [List.getElem?_map]
  split
  · rename_i more
    rw [List.getElem?_range more, Option.map_some]
  · rename_i all
    rw [List.getElem?_eq_none (by simpa using all), Option.map_none]

theorem length_sliceAt_of_full {size : Nat} {content : Bytes} {i : Nat}
    (full : (i + 1) * size ≤ content.length) : (sliceAt size content i).length = size := by
  rw [Nat.succ_mul] at full
  unfold sliceAt
  rw [List.length_take, List.length_drop]
  omega

theorem slices_partition {size : Nat} (positive : 0 < size) (content : Bytes) :
    Partition size content (slices size content) where
  joined := slices_flatten positive content
  count := length_slices size content
  full bs mem := by
    obtain ⟨i, more, rfl⟩ := List.getElem_of_mem mem
    rw [List.length_dropLast, length_slices] at more
    rw [List.getElem_dropLast]
    simp only [slices, List.getElem_map, List.getElem_range]
    exact length_sliceAt_of_full (mul_le_of_lt_sliceCount (by omega))
  last bs last empty := by
    rw [List.getLast?_eq_getElem?, length_slices, getElem?_slices] at last
    split at last
    · rename_i more
      rcases Nat.eq_zero_or_pos content.length with none | some
      · exact List.length_eq_zero_iff.1 none
      · have inside := mul_lt_of_lt_sliceCount some more
        cases last
        rw [sliceAt, List.take_eq_nil_iff, List.drop_eq_nil_iff] at empty
        omega
    · cases last
  empty := by
    rintro rfl
    have count : sliceCount size 0 = 1 := by
      unfold sliceCount
      rw [Nat.div_eq_of_lt (by omega)]
      rfl
    simp [slices, count, sliceAt]

namespace Slicer

variable {σ : Type} [Server σ] {s s' s₀ : Slicer OpenFile} {w w₀ : World σ} {number size : Nat}
  {content : Bytes} {past : List Episode}

/-! ## A pass through the file -/

/-- Whatever others have done to the disk, the file has kept its content. -/
def Untouched (number : Nat) (content : Bytes) (past : List Episode) : Prop :=
  ∀ disk, .changed disk ∈ past → disk.content number = content

omit [Server σ] in
theorem given_asked_ok (slice : Option Bytes) (past : List Episode) :
    given (.asked (.ok slice) :: past) = given past ++ slice.toList := by
  cases slice with
  | none => exact (List.append_nil _).symm
  | some bs => rfl

/-- A slicer stands where its calls since the last rewinding have brought it, on a file with a
content. -/
structure Pass (s : Slicer OpenFile) (disk : Disk) (number size : Nat) (content : Bytes)
    (past : List Episode) : Prop where
  same : disk.content number = content
  stands : s.Stands disk number size (min (calls past) (sliceCount size content.length))
  given : given past = (EncryptedBackup.slices size content).take (calls past)

omit [Server σ] in
theorem Pass.slices {disk : Disk} (h : s.Pass disk number size content past) :
    s.slices = sliceCount size content.length := by
  rw [h.stands.slices, h.same]

/-- The next call hands out the next slice of the content, if there is one. -/
theorem Pass.run_next (h : s.Pass w.disk number size content past) :
    ∃ s', w.run (Act.sure s.next) =
        (.ok (.ok (EncryptedBackup.slices size content)[calls past]?, s'), w) ∧
      s'.Pass w.disk number size content
        (.asked (.ok (EncryptedBackup.slices size content)[calls past]?) :: past) := by
  have stands := h.stands
  have given : Slicer.given
      (.asked (.ok (EncryptedBackup.slices size content)[calls past]?) :: past) = _ :=
    given_asked_ok _ past
  rw [h.given, ← List.take_add_one] at given
  rw [getElem?_slices] at given ⊢
  rcases Nat.lt_or_ge (calls past) (sliceCount size content.length) with more | all
  · rw [Nat.min_eq_left (Nat.le_of_lt more)] at stands
    obtain ⟨s', stands', ran⟩ := Slicer.run_next rfl stands (by rwa [h.slices])
    rw [h.same] at ran
    rw [if_pos more] at given ⊢
    refine ⟨s', ran, h.same, ?_, given⟩
    rw [calls, Nat.min_eq_left more]
    exact stands'
  · rw [Nat.min_eq_right all] at stands
    rw [if_neg (Nat.not_lt.2 all)] at given ⊢
    refine ⟨s, ?_, h.same, ?_, given⟩
    · rw [run_next_eq stands.entry rfl, if_pos (Nat.le_of_eq (h.slices.trans stands.count.symm))]
    · rw [calls, Nat.min_eq_right (by omega)]
      exact stands

theorem Chronicle.pass (h : Chronicle s₀ w₀ past s w) (start : s₀.Stands w₀.disk number size 0)
    (untouched : Untouched number (w₀.disk.content number) past) :
    s.Pass w.disk number size (w₀.disk.content number) past := by
  induction h with
  | opened =>
    refine ⟨rfl, ?_, rfl⟩
    rw [calls, Nat.zero_min]
    exact start
  | asked earlier ran ih =>
    have pass := ih fun disk mem => untouched disk (List.mem_cons_of_mem _ mem)
    obtain ⟨s', ran', pass'⟩ := pass.run_next
    rw [ran'] at ran
    cases ran
    exact pass'
  | @rewound past s _ w _ _ earlier ran ih =>
    have pass := ih fun disk mem => untouched disk (List.mem_cons_of_mem _ mem)
    obtain ⟨s', stands, ran'⟩ := run_rewind (w := w) pass.stands
    rw [ran'] at ran
    cases ran
    refine ⟨pass.same, ?_, rfl⟩
    rw [calls, Nat.zero_min]
    exact stands
  | changed earlier disk ih =>
    have pass := ih fun disk mem => untouched disk (List.mem_cons_of_mem _ mem)
    have same := untouched disk List.mem_cons_self
    have stands := pass.stands
    refine ⟨same, { stands with length := ?_, taken := ?_ }, pass.given⟩
    · rw [stands.length, pass.same, same]
    · rw [stands.taken, pass.same, same]
      rfl

/-- A slicer cuts a file that nobody changes into its parts, for every order of calls and rewinding.
A call hands out the part whose number is that of the calls since the last rewinding, as long as
there are parts, and nothing after that. It never counts more bytes than the file has. -/
theorem openFile_partitions (w₀ : World σ) {path : Path}
    (found : w₀.disk.find path = .ok (.file number)) (positive : 0 < size)
    (bounded : size ≤ maxSlice) :
    ∃ s₀ : Slicer OpenFile, w₀.run (Slicer.openFile path size) = (.ok s₀, w₀) ∧
      ∀ past s w, Chronicle s₀ w₀ past s w → Untouched number (w₀.disk.content number) past →
        let content := w₀.disk.content number
        s.taken ≤ s.length ∧ s.slices = max 1 ((content.length + size - 1) / size) ∧
        (∃ s', w.run (Act.sure s.next) = (.ok (.ok (if calls past < s.slices then
            some (between content (calls past * size) (min ((calls past + 1) * size) content.length))
          else none), s'), w)) ∧
        (s.slices ≤ calls past →
          Partition size content (given past) ∧ (given past).length = s.slices) := by
  obtain ⟨s₀, start, opened⟩ := run_openFile (w := w₀) rfl positive bounded found
  refine ⟨s₀, opened, ?_⟩
  intro past s w chronicle untouched
  have pass := chronicle.pass start untouched
  refine ⟨?_, pass.slices, ?_, ?_⟩
  · rw [pass.stands.taken, pass.stands.length]
    exact Nat.min_le_right ..
  · obtain ⟨s', ran, -⟩ := pass.run_next
    rw [getElem?_slices, sliceAt_eq_between, ← pass.slices] at ran
    exact ⟨s', ran⟩
  · intro all
    have whole : given past = EncryptedBackup.slices size (w₀.disk.content number) := by
      rw [pass.given, List.take_of_length_le]
      rw [length_slices, ← pass.slices]
      exact all
    rw [whole, pass.slices]
    exact ⟨slices_partition positive _, length_slices ..⟩

/-- The first slice is asked for, then all of them from the start. -/
theorem openFile_partitions_jotter :
    ∃ s₀ : Slicer OpenFile, jotter.run (Slicer.openFile (.ofText "notes") 2) = (.ok s₀, jotter) ∧
      ∃ past s, Chronicle s₀ jotter past s jotter ∧ past.length = 5 ∧ calls past = 3 ∧
        Partition 2 [1, 2, 3, 4, 5] (given past) := by
  have found : jotter.disk.find (.ofText "notes") = .ok (.file 0) := rfl
  obtain ⟨s₀, opened, all⟩ := openFile_partitions jotter found (show 0 < 2 by decide) (by decide)
  refine ⟨s₀, opened, ?_⟩
  have ask {past : List Episode} {s : Slicer OpenFile} (h : Chronicle s₀ jotter past s jotter)
      (calm : ∀ disk, .changed disk ∉ past) :
      ∃ slice s', Chronicle s₀ jotter (.asked (.ok slice) :: past) s' jotter := by
    obtain ⟨-, -, ⟨s', ran⟩, -⟩ := all _ _ _ h fun disk mem => absurd mem (calm disk)
    exact ⟨_, s', h.asked ran⟩
  obtain ⟨_, _, h⟩ := ask .opened (by simp)
  obtain ⟨_, _, h⟩ := ask (h.rewound rfl) (by simp)
  obtain ⟨_, _, h⟩ := ask h (by simp)
  obtain ⟨_, _, h⟩ := ask h (by simp)
  obtain ⟨-, count, -, parts⟩ := all _ _ _ h (by intro disk mem; simp at mem)
  have three : max 1 (((jotter.disk.content 0).length + 2 - 1) / 2) = 3 := rfl
  exact ⟨_, _, h, rfl, rfl, (parts (Nat.le_of_eq (count.trans three))).1⟩

end Slicer

end EncryptedBackup
