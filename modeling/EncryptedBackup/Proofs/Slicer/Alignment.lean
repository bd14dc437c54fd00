/-
Where the slices of a file that others change come from. A slicer hands out what the file then holds
from where the machine stands, and the machine is ahead of the slicer by what was lost in calls that
came short (`Tally.slice`). So slices are aligned with what was handed out exactly as long as
nothing was lost (`openFile_aligned_iff`); a call that comes short leaves its trace
(`alignment_broken`).
-/
import EncryptedBackup.Proofs.Slicer.History

namespace EncryptedBackup

theorem getElem?_between (content : Bytes) {first last : Nat} (some : first < last) :
    (between content first last)[0]? = content[first]? := by
  unfold between
  rw [List.getElem?_drop, Nat.add_zero, List.getElem?_take_of_lt some]

theorem Disk.slice_eq_between (disk : Disk) (number position n : Nat) :
    disk.slice number position n = between (disk.content number) position (position + n) := by
  unfold between
  rw [Disk.slice_eq, List.take_drop]

/-- Any file can hold anything. -/
theorem Disk.exists_content (number : Nat) (content : Bytes) :
    ∃ disk : Disk, disk.content number = content := by
  refine ⟨{ contents := List.replicate number #[] ++ [content.toArray] }, ?_⟩
  unfold Disk.content stored
  rw [List.getElem?_append_right (by simp)]
  simp

namespace Slicer

variable {σ : Type} [Server σ] {s s' : Slicer OpenFile} {number size length : Nat} {disk : Disk}
  {past : List Episode}

namespace Tally

omit [Server σ] in
/-- A slice stands behind what was handed out and what was lost. -/
theorem slice {bs : Bytes} (h : s.Tally number size length past)
    (next : s.Next disk number (.ok (some bs)) s') :
    bs = between (disk.content number) (s.taken + lost past)
      (min (s.taken + size) length + lost past) := by
  cases next with
  | full more read full =>
    have due := h.nextLength
    have filled := h.filled
    have upTo : s.file.position + s.nextLength = min (s.taken + size) length + lost past := by
      rw [h.position]
      omega
    rw [← read, Disk.slice_eq_between, upTo, h.position]

omit [Server σ] in
/-- If something was lost and there is more to come, the file can change so that the next slice is
not what stands behind those handed out. -/
theorem exists_misplaced (h : s.Tally number size length past) (positive : 0 < size)
    (ahead : lost past ≠ 0) (more : s.count < s.slices) :
    ∃ disk : Disk, s.nextLength ≤ (disk.slice number s.file.position s.nextLength).length ∧
      disk.slice number s.file.position s.nextLength ≠
        between (disk.content number) s.taken (min (s.taken + size) length) := by
  have due := h.nextLength
  have filled := h.filled
  have position := h.position
  have long : 0 < length := Nat.pos_of_ne_zero fun empty => ahead (h.spared empty)
  have start := mul_lt_of_lt_sliceCount long (h.lt_sliceCount more)
  -- one byte is marked: the one with which the next slice should begin
  obtain ⟨disk, holds⟩ := Disk.exists_content number
    ((List.replicate (s.file.position + s.nextLength) 0).set s.taken 1)
  refine ⟨disk, ?_, fun same => ?_⟩
  · rw [Disk.slice_eq, holds]
    simp
  · have first := congrArg (·[0]?) same
    rw [Disk.slice_eq_between, getElem?_between _ (by omega), getElem?_between _ (by omega), holds,
      List.getElem?_set_ne (by omega), List.getElem?_set_self (by simp; omega),
      List.getElem?_replicate_of_lt (by omega)] at first
    cases first

end Tally

/-- A slicer that was opened on a file, whatever was done with it and with the file since. It counts
the bytes of the slices handed out. A slice is what the file holds behind these and behind what was
lost; an error means that less was there than is due, and nothing but the machine's position goes on,
by what was read. So the next slice is the right one, whatever the file then holds, if and only if
nothing was lost or nothing is left to hand out. -/
theorem openFile_aligned_iff (w₀ : World σ) {path : Path}
    (found : w₀.disk.find path = .ok (.file number)) (positive : 0 < size)
    (bounded : size ≤ maxSlice) :
    ∃ s₀ : Slicer OpenFile, w₀.run (Slicer.openFile path size) = (.ok s₀, w₀) ∧
      ∀ past s w, Chronicle s₀ w₀ past s w →
        let length := (w₀.disk.content number).length
        let offset := (given past).flatten.length
        s.taken = offset ∧
        (∀ bs s' w', w.run (Act.sure s.next) = (.ok (.ok (some bs), s'), w') →
          bs = between (w.disk.content number) (offset + lost past)
            (min (offset + size) length + lost past)) ∧
        (∀ e s' w', w.run (Act.sure s.next) = (.ok (.error e, s'), w') →
          ∃ read, e = .file (.cameShort (min (length - offset) size) offset read) ∧
            s' = s.moved read) ∧
        ((∀ disk bs s' w',
            World.run { w with disk } (Act.sure s.next) = (.ok (.ok (some bs), s'), w') →
              bs = between (disk.content number) offset (min (offset + size) length)) ↔
          lost past = 0 ∨ s.slices ≤ (given past).length) := by
  obtain ⟨s₀, start, opened⟩ := run_openFile (w := w₀) rfl positive bounded found
  refine ⟨s₀, opened, ?_⟩
  intro past s w chronicle
  have tally := chronicle.tally start
  simp only
  rw [← tally.taken, ← tally.count]
  refine ⟨rfl, ?_, ?_, ?_, ?_⟩
  · intro bs s' w' ran
    exact tally.slice (next_of_run tally.entry ran).2
  · intro e s' w' ran
    cases (next_of_run tally.entry ran).2 with
    | short more read short => exact ⟨_, by rw [tally.nextLength], rfl⟩
  · intro aligned
    rcases Nat.eq_zero_or_pos (lost past) with whole | ahead
    · exact .inl whole
    rcases Nat.lt_or_ge s.count s.slices with more | all
    · obtain ⟨disk, enough, misplaced⟩ :=
        tally.exists_misplaced positive (Nat.ne_of_gt ahead) more
      obtain ⟨outcome, s', ran, next⟩ := run_next_spec { w with disk } tally.entry
      cases next with
      | done all => omega
      | full more read full =>
        rw [← read] at ran
        exact absurd (aligned disk _ _ _ ran) misplaced
      | short more read short =>
        rw [← read] at short
        exact absurd enough (Nat.not_le.2 short)
    · exact .inr all
  · rintro (whole | all) disk bs s' w' ran
    · have slice := tally.slice (next_of_run tally.entry ran).2
      rw [whole] at slice
      exact slice
    · cases (next_of_run tally.entry ran).2 with
      | full more read full => omega

/-! ## A file that is cut short for a while -/

/-- The notes, cut to three bytes. -/
def torn : Disk := { jotter.disk with contents := [#[1, 2, 3]] }

/-- The second slice is asked for while the notes are cut short. -/
def hiccup : List Episode :=
  [.changed jotter.disk, .asked (.error (.file (.cameShort 2 2 1))), .changed torn,
    .asked (.ok (some [1, 2]))]

theorem hiccup_chronicle :
    Chronicle ⟨⟨.file 0, 0⟩, 2, 5, 0, 0⟩ jotter hiccup ⟨⟨.file 0, 3⟩, 2, 5, 2, 1⟩ jotter := by
  have first : Chronicle ⟨⟨.file 0, 0⟩, 2, 5, 0, 0⟩ jotter _ ⟨⟨.file 0, 2⟩, 2, 5, 2, 1⟩ jotter :=
    Chronicle.opened.asked rfl
  have second : Chronicle _ jotter _ ⟨⟨.file 0, 3⟩, 2, 5, 2, 1⟩ { jotter with disk := torn } :=
    (first.changed torn).asked rfl
  exact second.changed jotter.disk

theorem openFile_aligned_iff_jotter :
    ∃ s₀ : Slicer OpenFile, jotter.run (Slicer.openFile (.ofText "notes") 2) = (.ok s₀, jotter) ∧
      ∃ past s, Chronicle s₀ jotter past s jotter ∧ lost past = 1 ∧
        ¬ ∀ disk bs s' w',
          World.run { jotter with disk } (Act.sure s.next) = (.ok (.ok (some bs), s'), w') →
            bs = between (disk.content 0) 2 4 := by
  have found : jotter.disk.find (.ofText "notes") = .ok (.file 0) := rfl
  obtain ⟨s₀, opened, all⟩ := openFile_aligned_iff jotter found (show 0 < 2 by decide) (by decide)
  cases opened
  obtain ⟨-, -, -, aligned⟩ := all _ _ _ hiccup_chronicle
  refine ⟨_, rfl, _, _, hiccup_chronicle, rfl, fun right => ?_⟩
  rcases aligned.1 right with whole | done
  · cases whole
  · exact absurd done (by decide)

/-- A slicer that was asked while the file was cut short hands out the last two bytes next, and not
those behind the two that it has handed out. -/
theorem alignment_broken : ∃ s₀ past s s',
    jotter.run (Slicer.openFile (.ofText "notes") 2) = (.ok s₀, jotter) ∧
      Chronicle s₀ jotter past s jotter ∧ s.taken = 2 ∧ (given past).flatten.length = 2 ∧
      jotter.run (Act.sure s.next) = (.ok (.ok (some [4, 5]), s'), jotter) ∧
      between (jotter.disk.content 0) s.taken (min (s.taken + s.size) s.length) = [3, 4] :=
  ⟨_, _, _, _, rfl, hiccup_chronicle, rfl, rfl, rfl, rfl⟩

end Slicer

end EncryptedBackup
