/-
The counters of a slicer on any machine, whatever the machine reads: asking for the next slice moves
them only if there is one more, by what is due, and going back sets both to nothing.
-/
import EncryptedBackup.Proofs.Machine
import EncryptedBackup.Slicer

namespace EncryptedBackup.Slicer

variable {m : Type → Type} {File : Type} [Monad m] [LawfulMonad m] [Machine m File]

/-! ## The next slice -/

/-- What asking for the next slice does to the counters of a slicer. -/
structure Counted (s : Slicer File) (outcome : Except Error (Option Bytes)) (s' : Slicer File) :
    Prop where
  size : s'.size = s.size
  length : s'.length = s.length
  given : ∀ slice, outcome = .ok (some slice) →
    s.count < s.slices ∧ s'.taken = s.taken + s.nextLength ∧ s'.count = s.count + 1
  kept : (∀ slice, outcome ≠ .ok (some slice)) → s'.taken = s.taken ∧ s'.count = s.count

theorem slices_eq {s s' : Slicer File} (size : s'.size = s.size) (length : s'.length = s.length) :
    s'.slices = s.slices := by
  unfold Slicer.slices
  rw [size, length]

theorem Counted.slices {s s' : Slicer File} {outcome : Except Error (Option Bytes)}
    (h : s.Counted outcome s') : s'.slices = s.slices :=
  slices_eq h.size h.length

theorem counted_none (s : Slicer File) : s.Counted (.ok none) s :=
  ⟨rfl, rfl, nofun, fun _ => ⟨rfl, rfl⟩⟩

theorem counted_error (s : Slicer File) (file : File) (e : Error) :
    s.Counted (.error e) { s with file } :=
  ⟨rfl, rfl, nofun, fun _ => ⟨rfl, rfl⟩⟩

theorem counted_accept {s : Slicer File} (more : s.count < s.slices) (file : File) (bs : Bytes) :
    s.Counted ({ s with file }.accept bs).1 ({ s with file }.accept bs).2 := by
  unfold accept
  split
  · exact counted_error s file _
  · exact ⟨rfl, rfl, fun _ _ => ⟨more, rfl, rfl⟩, fun none => absurd rfl (none bs)⟩

theorem coincide_next (s : Slicer File) :
    Act.Coincide (fun result => s.Counted result.1 result.2)
      (Act.sure s.next : Act m _) (Act.sure s.next) := by
  unfold next
  by_cases all : s.slices ≤ s.count
  · rw [if_pos all, Act.sure_pure]
    exact .pure (counted_none s)
  · simp only [if_neg all]
    rw [Act.sure_bind]
    apply Act.Coincide.andThen
    rintro ⟨outcome, file⟩
    cases outcome with
    | error fault =>
      rw [Act.sure_pure]
      exact .pure (counted_error s file _)
    | ok bs =>
      simp only
      rw [Act.sure_pure]
      exact .pure (counted_accept (Nat.not_le.1 all) file bs)

/-! ## Going back -/

/-- What going back to the start does to the counters of a slicer. -/
structure Rewound (s : Slicer File) (outcome : Except Error Unit) (s' : Slicer File) : Prop where
  size : s'.size = s.size
  length : s'.length = s.length
  start : outcome = .ok () → s'.taken = 0 ∧ s'.count = 0

theorem Rewound.slices {s s' : Slicer File} {outcome : Except Error Unit}
    (h : s.Rewound outcome s') : s'.slices = s.slices :=
  slices_eq h.size h.length

theorem coincide_rewind (s : Slicer File) :
    Act.Coincide (fun result => s.Rewound result.1 result.2)
      (Act.sure s.rewind : Act m _) (Act.sure s.rewind) := by
  unfold rewind
  rw [Act.sure_bind]
  apply Act.Coincide.andThen
  rintro ⟨outcome, file⟩
  cases outcome with
  | error fault =>
    rw [Act.sure_pure]
    exact .pure ⟨rfl, rfl, nofun⟩
  | ok _ =>
    rw [Act.sure_pure]
    exact .pure ⟨rfl, rfl, fun _ => ⟨rfl, rfl⟩⟩

end EncryptedBackup.Slicer
