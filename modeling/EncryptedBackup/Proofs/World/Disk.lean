/-
What writing does to a disk: the path then reads as what was written (`read_write`). A disk is
`Sound` if every file has its content, and writing keeps it so. A file that is found can be written to
again (`write_of_find`).
-/
import EncryptedBackup.Proofs.Wire.Fields
import EncryptedBackup.World.Disk

namespace EncryptedBackup

namespace Disk

/-! ## Walking -/

theorem walk_append (d : Disk) : ∀ (cs : List Bytes) {ds : List Bytes} {place next : Place},
    d.walk place cs = .ok next → d.walk place (cs ++ ds) = d.walk next ds
  | [], _, _, _, h => by
    cases h
    rfl
  | c :: cs, ds, place, next, h => by
    rw [List.cons_append, walk] at *
    cases stepped : d.step place c with
    | error e =>
      rw [stepped] at h
      cases h
    | ok there =>
      rw [stepped] at h
      exact walk_append d cs h

/-- Who comes to a place has taken the last step from another. -/
theorem exists_of_walk_concat (d : Disk) : ∀ (cs : List Bytes) {c : Bytes} {place last : Place},
    d.walk place (cs ++ [c]) = .ok last →
      ∃ next, d.walk place cs = .ok next ∧ d.step next c = .ok last
  | [], c, place, last, h => by
    rw [List.nil_append, walk] at h
    cases stepped : d.step place c with
    | error e =>
      rw [stepped] at h
      cases h
    | ok there =>
      rw [stepped] at h
      cases h
      exact ⟨place, rfl, stepped⟩
  | b :: cs, c, place, last, h => by
    rw [List.cons_append, walk] at h
    rw [walk]
    cases stepped : d.step place b with
    | error e =>
      rw [stepped] at h
      cases h
    | ok there =>
      rw [stepped] at h
      exact exists_of_walk_concat d cs h

/-- Every step starts in a directory. -/
theorem at?_of_step {d : Disk} {place next : Place} {c : Bytes} (h : d.step place c = .ok next) :
    d.at? place = some .directory := by
  unfold step at h
  split at h
  · cases h
  · cases h
  · assumption

/-- A step into the directory itself goes nowhere. -/
theorem eq_of_step_dot {d : Disk} {place next : Place} (h : d.step place Path.dot = .ok next) :
    next = place := by
  have here := at?_of_step h
  unfold step at h
  rw [here] at h
  cases h
  rfl

section

variable {d d' : Disk}

/-- Steps lead to the same places on a disk that has the same directories, and maybe more. -/
theorem step_of_directories (keeps : ∀ q, d.at? q = some .directory → d'.at? q = some .directory)
    {place next : Place} {c : Bytes} (h : d.step place c = .ok next) :
    d'.step place c = .ok next := by
  have here := at?_of_step h
  unfold step at h ⊢
  rw [here] at h
  rw [keeps place here]
  exact h

theorem walk_of_directories (keeps : ∀ q, d.at? q = some .directory → d'.at? q = some .directory) :
    ∀ {cs : List Bytes} {place next : Place}, d.walk place cs = .ok next →
      d'.walk place cs = .ok next
  | [], _, _, h => h
  | c :: cs, place, next, h => by
    unfold walk at h ⊢
    cases stepped : d.step place c with
    | error e =>
      rw [stepped] at h
      cases h
    | ok there =>
      rw [stepped] at h
      rw [step_of_directories keeps stepped]
      exact walk_of_directories keeps h

/-- A path leads to the same place on a disk that has the same directories, and maybe more. -/
theorem place_of_directories (keeps : ∀ q, d.at? q = some .directory → d'.at? q = some .directory)
    (start : d'.start = d.start) {p : Path} {place : Place} (h : d.place p = .ok place) :
    d'.place p = .ok place := by
  unfold Disk.place startOf at h ⊢
  rw [start]
  obtain ⟨_, checked, walked⟩ := exists_of_bind_ok h
  rw [checked]
  exact walk_of_directories keeps walked

end

/-! ## Places to write to -/

theorem dropEnd_of_getLast? {cs : List Bytes} {name : Bytes} (last : cs.getLast? = some name)
    (some : name ≠ []) : Path.dropEnd false cs = cs := by
  unfold Path.dropEnd
  rw [List.getLast?_eq_head?_reverse] at last
  cases backwards : cs.reverse with
  | nil =>
    rw [backwards] at last
    cases last
  | cons c rest =>
    rw [backwards] at last
    cases last
    rw [List.dropWhile_cons_of_neg (by simpa using some), ← backwards, List.reverse_reverse]

/-- What is written to a path is put where the path leads to. -/
theorem place_of_writePlace {d : Disk} {p : Path} {place : Place} (h : d.writePlace p = .ok place) :
    d.place p = .ok place := by
  unfold writePlace at h
  obtain ⟨_, checked, h⟩ := exists_of_bind_ok h
  obtain ⟨directory, found, h⟩ := exists_of_bind_ok h
  unfold Disk.place
  rw [checked]
  split at h
  · cases h
  · cases h
  · rename_i name some last
    obtain ⟨there, stepped, h⟩ := exists_of_bind_ok h
    split at h
    · cases h
    cases h
    rw [dropEnd_of_getLast? last some] at found
    obtain ⟨above, walked, dotted⟩ := exists_of_bind_ok found
    cases eq_of_step_dot dotted
    obtain ⟨cs, components⟩ := List.getLast?_eq_some_iff.1 last
    rw [components, List.dropLast_concat] at walked
    show d.walk (d.startOf p) p.components = _
    rw [components, walk_append d cs walked]
    unfold walk
    rw [stepped]
    rfl

/-! ## Writing and reading -/

/-- Every file has its content. -/
def Sound (d : Disk) : Prop := ∀ x ∈ d.entries, ∀ n, x.2 = .file n → n < d.contents.length

theorem Sound.lt {d : Disk} (sound : d.Sound) {place : Place} {n : Nat}
    (h : d.at? place = some (.file n)) : n < d.contents.length := by
  unfold at? at h
  split at h
  · cases h
  · obtain ⟨before, behind, split, -⟩ := List.lookup_eq_some_iff.1 h
    refine sound (place, .file n) ?_ n rfl
    rw [split]
    exact List.mem_append_right before List.mem_cons_self

theorem at?_create (d : Disk) {place : Place} (bs : Bytes) (new : d.at? place = none) (q : Place) :
    (d.create place bs).at? q = if q = place then some (.file d.contents.length) else d.at? q := by
  have below : place ≠ [] := by
    rintro rfl
    cases new
  unfold at? create put
  simp only [List.lookup_cons]
  by_cases here : q = place
  · rw [here, if_neg below, beq_self_eq_true, if_pos rfl]
  · rw [beq_false_of_ne here, if_neg here]

theorem read_of_place {d : Disk} {p : Path} {place : Place} {n : Nat} (led : d.place p = .ok place)
    (there : d.at? place = some (.file n)) : d.read p = .ok (d.content n) := by
  unfold read fileNumber find
  rw [led]
  simp only [bind, Except.bind, there]
  rfl

/-- A path that was written to reads as what was written. -/
theorem read_write {d d' : Disk} (sound : d.Sound) {p : Path} {bs : Bytes}
    (h : d.write p bs = .ok d') : d'.read p = .ok bs := by
  unfold write at h
  obtain ⟨place, led, h⟩ := exists_of_bind_ok h
  have led := place_of_writePlace led
  cases there : d.at? place with
  | none =>
    rw [there] at h
    cases h
    have here := d.at?_create bs there
    have start : (d.create place bs).start = d.start := rfl
    have led' : (d.create place bs).place p = .ok place := by
      refine place_of_directories (fun q directory => ?_) start led
      rw [here, if_neg, directory]
      -- nothing was at the new place, so it is none of the directories on the way
      rintro rfl
      rw [there] at directory
      cases directory
    rw [read_of_place led' (by rw [here, if_pos rfl])]
    simp [content, stored, create]
  | some entry =>
    rw [there] at h
    cases entry with
    | directory => cases h
    | file n =>
      cases h
      have same (q : Place) : (d.setContent n bs).at? q = d.at? q := rfl
      have start : (d.setContent n bs).start = d.start := rfl
      have led' : (d.setContent n bs).place p = .ok place :=
        place_of_directories (fun q directory => (same q).trans directory) start led
      rw [read_of_place led' there]
      simp [content, stored, setContent, sound.lt there]

theorem Sound.write {d d' : Disk} (sound : d.Sound) {p : Path} {bs : Bytes}
    (h : d.write p bs = .ok d') : d'.Sound := by
  unfold Disk.write at h
  obtain ⟨place, -, h⟩ := exists_of_bind_ok h
  split at h
  · cases h
    intro x mem n file
    rcases List.mem_cons.1 mem with rfl | mem
    · cases file
      simp [create]
    · have before := sound x mem n file
      simp only [create, List.length_append]
      omega
  · cases h
  · cases h
    intro x mem n file
    have before := sound x mem n file
    simpa only [setContent, List.length_set] using before

/-! ## New files -/

/-- There is no file at a path yet, and one can be made. -/
def Fresh (d : Disk) (p : Path) : Prop :=
  ∃ place, d.writePlace p = .ok place ∧ d.at? place = none

theorem find_of_place {d : Disk} {p : Path} {place : Place} {entry : Entry}
    (led : d.place p = .ok place) (there : d.at? place = some entry) : d.find p = .ok entry := by
  unfold find
  rw [led]
  simp only [bind, Except.bind, there]

theorem exists_of_find {d : Disk} {p : Path} {entry : Entry} (found : d.find p = .ok entry) :
    ∃ place, d.place p = .ok place ∧ d.at? place = some entry := by
  unfold find at found
  obtain ⟨place, led, found⟩ := exists_of_bind_ok found
  split at found
  · cases found
  · cases found
    exact ⟨place, led, by assumption⟩

/-- A file can be made where there is none and writing succeeds. -/
theorem fresh_of_write {d d' : Disk} {p : Path} {bs : Bytes} (absent : d.isFile p = false)
    (writable : d.write p bs = .ok d') : d.Fresh p := by
  unfold write at writable
  obtain ⟨place, led, written⟩ := exists_of_bind_ok writable
  refine ⟨place, led, ?_⟩
  cases there : d.at? place with
  | none => rfl
  | some entry =>
    rw [there] at written
    cases entry with
    | directory => cases written
    | file number =>
      have found := find_of_place (place_of_writePlace led) there
      unfold isFile at absent
      rw [found] at absent
      cases absent

/-- A new file takes nothing from the others. -/
theorem Fresh.exists_write {d : Disk} {p : Path} (fresh : d.Fresh p) (sound : d.Sound) (bs : Bytes) :
    ∃ d', d.write p bs = .ok d' ∧ d'.Sound ∧ d'.isFile p = true ∧ d'.read p = .ok bs ∧
      ∀ {q : Path} {n : Nat}, d.find q = .ok (.file n) →
        d'.find q = .ok (.file n) ∧ d'.content n = d.content n := by
  obtain ⟨place, led, new⟩ := fresh
  have written : d.write p bs = .ok (d.create place bs) := by
    unfold write
    rw [led]
    simp only [bind, Except.bind, new]
  have here := d.at?_create bs new
  have stays (q : Place) {entry : Entry} (there : d.at? q = some entry) :
      (d.create place bs).at? q = some entry := by
    rw [here, if_neg, there]
    rintro rfl
    rw [new] at there
    cases there
  have leads {q : Path} {place' : Place} (h : d.place q = .ok place') :
      (d.create place bs).place q = .ok place' :=
    place_of_directories (fun q directory => stays q directory) rfl h
  refine ⟨_, written, sound.write written, ?_, read_write sound written, fun {q n} found => ?_⟩
  · unfold isFile
    rw [find_of_place (leads (place_of_writePlace led)) ((here place).trans (if_pos rfl))]
  · obtain ⟨place', led', there⟩ := exists_of_find found
    refine ⟨find_of_place (leads led') (stays _ there), ?_⟩
    unfold content stored create put
    simp only
    rw [List.getElem?_append_left (sound.lt there)]

theorem find_of_read {d : Disk} {p : Path} {bs : Bytes} (read : d.read p = .ok bs) :
    ∃ n, d.find p = .ok (.file n) ∧ d.content n = bs := by
  unfold Disk.read fileNumber at read
  obtain ⟨n, numbered, read⟩ := exists_of_bind_ok read
  obtain ⟨entry, found, numbered⟩ := exists_of_bind_ok numbered
  cases entry with
  | directory => cases numbered
  | file n' =>
    cases numbered
    cases read
    exact ⟨n, found, rfl⟩

theorem read_of_find {d : Disk} {p : Path} {n : Nat} (found : d.find p = .ok (.file n)) :
    d.read p = .ok (d.content n) := by
  obtain ⟨place, led, there⟩ := exists_of_find found
  exact read_of_place led there

theorem step_dot {d : Disk} {place : Place} (here : d.at? place = some .directory) :
    d.step place Path.dot = .ok place := by
  unfold step
  rw [here]
  exact if_pos (.inr rfl)

/-- Components that lead to a file end in a name. -/
theorem exists_name {d : Disk} {place : Place} {n : Nat} {p : Path} (named : p.fileName? ≠ none)
    (led : d.walk (d.startOf p) p.components = .ok place) (there : d.at? place = some (.file n)) :
    ∃ (cs : List Bytes) (name : Bytes) (directory : Place), p.components = cs ++ [name] ∧
      (name ≠ [] ∧ name ≠ Path.dot ∧ name ≠ Path.dotDot) ∧
      d.walk (d.startOf p) cs = .ok directory ∧ d.step directory name = .ok place := by
  rcases List.eq_nil_or_concat p.components with none | ⟨cs, name, split⟩
  · unfold Path.fileName? at named
    rw [none] at named
    exact absurd rfl named
  rw [List.concat_eq_append] at split
  rw [split] at led
  obtain ⟨directory, walked, stepped⟩ := exists_of_walk_concat d cs led
  have here := at?_of_step stepped
  have proper : ¬ (name = [] ∨ name = Path.dot) := by
    intro same
    unfold step at stepped
    rw [here] at stepped
    simp only [if_pos same] at stepped
    cases stepped
    rw [here] at there
    cases there
  obtain ⟨some, notDot⟩ := not_or.1 proper
  refine ⟨cs, name, directory, split, ⟨some, notDot, fun above => ?_⟩, walked, stepped⟩
  unfold Path.fileName? at named
  rw [split, List.filter_append, List.filter_cons_of_pos (by simp [some, notDot])] at named
  simp [above] at named

/-- A file can be written to again, if the path names it. -/
theorem write_of_find {d : Disk} {p : Path} {n : Nat} (found : d.find p = .ok (.file n))
    (named : p.fileName? ≠ none) (bs : Bytes) : d.write p bs = .ok (d.setContent n bs) := by
  obtain ⟨place, led, there⟩ := exists_of_find found
  have checked : checkPath p = .ok () := by
    unfold Disk.place at led
    obtain ⟨_, checked, -⟩ := exists_of_bind_ok led
    exact checked
  unfold Disk.place at led
  rw [checked] at led
  obtain ⟨cs, name, directory, split, ⟨some, notDot, notAbove⟩, walked, stepped⟩ :=
    exists_name named led there
  have last : p.components.getLast? = .some name := by rw [split, List.getLast?_concat]
  have placed : d.writePlace p = .ok place := by
    unfold writePlace directoryOf
    rw [checked, dropEnd_of_getLast? last some, split, List.dropLast_concat, walked]
    simp only [bind, Except.bind, step_dot (at?_of_step stepped), List.getLast?_concat]
    rw [stepped]
    simp [notDot, notAbove]
  unfold write
  rw [placed]
  simp only [bind, Except.bind, there]

end Disk

end EncryptedBackup
