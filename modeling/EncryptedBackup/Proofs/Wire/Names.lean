/-
Names in fields of fixed width. A name is written if it leaves room for a NUL, and read back up to
its first NUL wherever the field stands; so two names fill their fields alike if they are the same
but for NULs at the end (`padded_eq_iff`). What is read is the text of the bytes before the first NUL
of the field (`exists_name_of_le`), if the field is all there (`name_eq_error_iff`).
-/
import EncryptedBackup.Proofs.Wire.Fields

namespace EncryptedBackup

namespace Field

/-! ## Refusals -/

theorem slice_eq_error_iff {buffer : Bytes} {offset width : Nat} {e : Error} :
    slice buffer offset width = .error e ↔
      buffer.length < offset + width ∧ e = .truncated offset width (buffer.length - offset) := by
  unfold slice
  by_cases fits : offset + width ≤ buffer.length
  · rw [if_pos fits]
    exact ⟨nofun, fun ⟨short, _⟩ => absurd short (Nat.not_lt.2 fits)⟩
  · rw [if_neg fits, Except.error.injEq, eq_comm]
    exact (and_iff_right (Nat.lt_of_not_le fits)).symm

/-- A name is not read if its field is not all there. -/
theorem name_eq_error_iff {buffer : Bytes} {offset width : Nat} {e : Error} :
    name buffer offset width = .error e ↔
      buffer.length < offset + width ∧ e = .truncated offset width (buffer.length - offset) := by
  rw [← slice_eq_error_iff]
  unfold name
  cases slice buffer offset width with
  | error e' =>
    show (Except.error e' : Except Error (String × Nat)) = .error e ↔ _
    rw [Except.error.injEq, Except.error.injEq]
  | ok x => exact ⟨nofun, nofun⟩

/-- A name is not written if it leaves no room for a NUL. -/
theorem ofName_eq_error_iff {width : Nat} {name : String} {e : Error} :
    ofName width name = .error e ↔ width ≤ (Utf8.encode name).length ∧
      e = .nameTooLong (Utf8.encode name).length (width - 1) := by
  by_cases short : (Utf8.encode name).length < width
  · rw [ofName_of_lt short]
    exact ⟨nofun, fun ⟨long, _⟩ => absurd short (Nat.not_lt.2 long)⟩
  · have long := Nat.le_of_not_lt short
    unfold ofName
    rw [checkName_of_le long]
    exact ⟨fun refused => ⟨long, by cases refused; rfl⟩, fun ⟨_, cause⟩ => by rw [cause]; rfl⟩

theorem ofName_eq_ok_iff {width : Nat} {name : String} {field : Bytes} :
    ofName width name = .ok field ↔
      (Utf8.encode name).length < width ∧ field = padded width (Utf8.encode name) := by
  by_cases short : (Utf8.encode name).length < width
  · rw [ofName_of_lt short, Except.ok.injEq, eq_comm]
    exact (and_iff_right short).symm
  · rw [ofName_eq_error_iff.2 ⟨Nat.le_of_not_lt short, rfl⟩]
    exact ⟨nofun, fun ⟨less, _⟩ => absurd less short⟩

/-! ## Filled up with NULs -/

section

variable {width : Nat} {bs : Bytes}

theorem padded_of_le (fits : bs.length ≤ width) :
    padded width bs = bs ++ List.replicate (width - bs.length) 0 := by
  unfold padded
  rw [List.take_of_length_le fits]

theorem getLast?_padded (short : bs.length < width) : (padded width bs).getLast? = some 0 := by
  rw [padded_of_le (Nat.le_of_lt short), List.getLast?_append, List.getLast?_replicate,
    if_neg (by omega)]
  rfl

/-- NULs at the end are as good as none. -/
theorem padded_append_zeros {n : Nat} (fits : (bs ++ List.replicate n 0).length ≤ width) :
    padded width (bs ++ List.replicate n 0) = padded width bs := by
  rw [List.length_append, List.length_replicate] at fits
  rw [padded_of_le (by simpa using fits), padded_of_le (by omega), List.append_assoc,
    List.replicate_append_replicate, List.length_append, List.length_replicate]
  congr 2
  omega

end

/-- Two texts are the same but for NULs at the end. -/
def SameButNuls (s t : String) : Prop :=
  ∃ (stem : List Char) (i j : Nat), s.toList = stem ++ List.replicate i '\x00' ∧
    t.toList = stem ++ List.replicate j '\x00'

theorem encodeChars_nuls (n : Nat) :
    (List.replicate n '\x00').flatMap String.utf8EncodeChar = List.replicate n 0 := by
  have zero : String.utf8EncodeChar '\x00' = [0] := by decide
  induction n with
  | zero => rfl
  | succ n ih => rw [List.replicate_succ, List.flatMap_cons, zero, ih]; rfl

theorem encode_of_toList {s : String} {stem : List Char} {n : Nat}
    (split : s.toList = stem ++ List.replicate n '\x00') :
    Utf8.encode s = stem.flatMap String.utf8EncodeChar ++ List.replicate n 0 := by
  unfold Utf8.encode
  rw [split, List.flatMap_append, encodeChars_nuls]

/-- Two lists that agree when a character is put behind them often enough are the same but for that
character at the end. -/
theorem exists_stem_of_append_eq {α : Type} {c : α} {as bs : List α} {i j : Nat}
    (same : as ++ List.replicate i c = bs ++ List.replicate j c) :
    ∃ stem m n, as = stem ++ List.replicate m c ∧ bs = stem ++ List.replicate n c := by
  rcases Nat.le_total i j with le | le
  · obtain ⟨d, rfl⟩ := Nat.exists_eq_add_of_le' le
    rw [← List.replicate_append_replicate, ← List.append_assoc] at same
    exact ⟨bs, d, 0, List.append_cancel_right same, by simp⟩
  · obtain ⟨d, rfl⟩ := Nat.exists_eq_add_of_le' le
    rw [← List.replicate_append_replicate, ← List.append_assoc] at same
    exact ⟨as, 0, d, by simp, (List.append_cancel_right same).symm⟩

/-- Names fill their fields alike if they are the same but for NULs at the end. -/
theorem padded_eq_iff {width : Nat} {s t : String} (fits : (Utf8.encode s).length ≤ width)
    (fits' : (Utf8.encode t).length ≤ width) :
    padded width (Utf8.encode s) = padded width (Utf8.encode t) ↔ SameButNuls s t := by
  constructor
  · intro same
    rw [padded_of_le fits, padded_of_le fits'] at same
    generalize width - (Utf8.encode s).length = i at same
    generalize width - (Utf8.encode t).length = j at same
    -- the fields are the bytes of the names with NULs behind them
    have chars : s.toList ++ List.replicate i '\x00' = t.toList ++ List.replicate j '\x00' := by
      refine String.ofList_injective (Utf8.eq_of_encode_eq ?_)
      rwa [encode_of_toList (String.toList_ofList ..), encode_of_toList (String.toList_ofList ..)]
    exact exists_stem_of_append_eq chars
  · rintro ⟨stem, i, j, first, second⟩
    rw [encode_of_toList first] at fits ⊢
    rw [encode_of_toList second] at fits' ⊢
    rw [padded_append_zeros fits, padded_append_zeros fits']

/-! ## The bytes before the first NUL -/

/-- These bytes end before the first NUL of a field, or where the field ends. -/
structure Opens (piece rest : Bytes) : Prop where
  clean : 0 ∉ piece
  stop : ∀ b ∈ rest.head?, b = 0

theorem exists_opens (field : Bytes) : ∃ piece rest, field = piece ++ rest ∧ Opens piece rest := by
  by_cases nul : 0 ∈ field
  · obtain ⟨piece, rest, split, clean⟩ := List.eq_append_cons_of_mem nul
    exact ⟨piece, 0 :: rest, split, clean, by simp⟩
  · exact ⟨field, [], (List.append_nil field).symm, nul, nofun⟩

/-- What follows the first NUL of a field is no part of its text. -/
theorem nameText_of_opens {piece rest : Bytes} (opens : Opens piece rest) :
    nameText (piece ++ rest) = Utf8.lossy piece := by
  have kept : ∀ b ∈ piece, decide (b ≠ 0) = true := by
    intro b mem
    refine decide_eq_true ?_
    rintro rfl
    exact opens.clean mem
  have stopped : rest.takeWhile (· ≠ 0) = [] := by
    cases rest with
    | nil => rfl
    | cons b rest => simp [opens.stop b rfl]
  unfold nameText
  rw [List.takeWhile_append_of_pos kept, stopped, List.append_nil]

theorem slice_of_le {buffer : Bytes} {offset width : Nat} (fits : offset + width ≤ buffer.length) :
    slice buffer offset width = .ok ((buffer.drop offset).take width, offset + width) := by
  unfold slice
  rw [if_pos fits]

theorem name_of_le {buffer : Bytes} {offset width : Nat} (fits : offset + width ≤ buffer.length) :
    name buffer offset width =
      .ok (nameText ((buffer.drop offset).take width), offset + width) := by
  unfold name
  rw [slice_of_le fits]
  rfl

/-- A field that is all there stands between other bytes, and is read up to its first NUL. -/
theorem exists_name_of_le {buffer : Bytes} {offset width : Nat}
    (fits : offset + width ≤ buffer.length) :
    ∃ before piece rest behind, buffer = before ++ (piece ++ rest ++ behind) ∧
      before.length = offset ∧ (piece ++ rest).length = width ∧ Opens piece rest ∧
      name buffer offset width = .ok (Utf8.lossy piece, offset + width) := by
  obtain ⟨piece, rest, split, opens⟩ := exists_opens ((buffer.drop offset).take width)
  refine ⟨buffer.take offset, piece, rest, (buffer.drop offset).drop width, ?_, ?_, ?_, opens, ?_⟩
  · rw [← split, List.take_append_drop, List.take_append_drop]
  · rw [List.length_take]
    omega
  · rw [← split, List.length_take, List.length_drop]
    omega
  · rw [name_of_le fits, split, nameText_of_opens opens]

end Field

/-! ## Writing and reading -/

/-- Fixed-width names. A name that leaves no room for a NUL is refused; any other fills a field of
exactly the width, whose last byte is a NUL and from which, wherever it stands, the name is read back
up to its first NUL; and two names fill it alike if they are the same but for NULs at the end. A
field that is not all there is not read; of any other only the bytes before its first NUL matter. -/
theorem fixed_names :
    (∀ (width : Nat) (name : String), 1 ≤ width →
      (∀ e, Field.ofName width name = .error e ↔ width ≤ (Utf8.encode name).length ∧
        e = .nameTooLong (Utf8.encode name).length (width - 1)) ∧
      ((Utf8.encode name).length < width → ∃ field, Field.ofName width name = .ok field ∧
        field.length = width ∧ field.getLast? = some 0 ∧
        (∀ before behind : Bytes, Field.name (before ++ field ++ behind) before.length width =
          .ok (Field.beforeNul name, before.length + width)) ∧
        ('\x00' ∉ name.toList → Field.beforeNul name = name))) ∧
    (∀ (width : Nat) (s t : String) (field field' : Bytes), 1 ≤ width →
      Field.ofName width s = .ok field → Field.ofName width t = .ok field' →
        (field = field' ↔ Field.SameButNuls s t)) ∧
    (∀ (buffer : Bytes) (offset width : Nat) (e : Error), Field.name buffer offset width = .error e ↔
      buffer.length < offset + width ∧ e = .truncated offset width (buffer.length - offset)) ∧
    ∀ (buffer : Bytes) (offset width : Nat), offset + width ≤ buffer.length →
      ∃ before piece rest behind, buffer = before ++ (piece ++ rest ++ behind) ∧
        before.length = offset ∧ (piece ++ rest).length = width ∧ Field.Opens piece rest ∧
        Field.name buffer offset width = .ok (Utf8.lossy piece, offset + width) := by
  refine ⟨fun width name _ => ⟨fun _ => Field.ofName_eq_error_iff, fun short => ?_⟩, ?_,
    fun _ _ _ _ => Field.name_eq_error_iff, fun _ _ _ => Field.exists_name_of_le⟩
  · have fits := Nat.le_of_lt short
    refine ⟨_, Field.ofName_of_lt short, Field.padded_length .., Field.getLast?_padded short, ?_,
      fun clean => Field.beforeNul_of_clean (Utf8.zero_notMem_encode clean)⟩
    intro before behind
    have read := Field.name_at before (Field.padded width (Utf8.encode name)) behind
      (List.append_assoc ..) rfl
    rwa [Field.padded_length, Field.nameText_padded_eq fits] at read
  · intro width s t field field' _ written written'
    obtain ⟨short, rfl⟩ := Field.ofName_eq_ok_iff.1 written
    obtain ⟨short', rfl⟩ := Field.ofName_eq_ok_iff.1 written'
    exact Field.padded_eq_iff (Nat.le_of_lt short) (Nat.le_of_lt short')

/-- A name with a NUL inside, in a field that has no room for it and in one that has; a name with NULs
behind it; and a buffer with a field that is cut off and one that is not. -/
theorem fixed_names_alice :
    Field.ofName 6 "al\x00ice" = .error (.nameTooLong 6 5) ∧
    (∃ field, Field.ofName 7 "al\x00ice" = .ok field ∧ field.length = 7 ∧
      field.getLast? = some 0 ∧ Field.name ([9, 9] ++ field ++ [9]) 2 7 = .ok ("al", 9)) ∧
    Field.beforeNul "alice" = "alice" ∧
    (∃ field field', Field.ofName 8 "alice" = .ok field ∧
      Field.ofName 8 "alice\x00\x00" = .ok field' ∧ field = field') ∧
    Field.name [9, 97, 0, 97] 2 3 = .error (.truncated 2 3 2) ∧
    ∃ before piece rest behind, [9, 97, 0, 97] = before ++ (piece ++ rest ++ behind) ∧
      before.length = 1 ∧ (piece ++ rest).length = 3 ∧ Field.Opens piece rest ∧
      Field.name [9, 97, 0, 97] 1 3 = .ok (Utf8.lossy piece, 4) := by
  obtain ⟨written, alike, refused, read⟩ := fixed_names
  obtain ⟨narrow, -⟩ := written 6 "al\x00ice" (by decide)
  obtain ⟨-, wide⟩ := written 7 "al\x00ice" (by decide)
  obtain ⟨field, filled, length, last, back, -⟩ := wide (by decide)
  obtain ⟨-, fits⟩ := written 8 "alice" (by decide)
  obtain ⟨bare, filledBare, -, -, -, whole⟩ := fits (by decide)
  obtain ⟨-, fits⟩ := written 8 "alice\x00\x00" (by decide)
  obtain ⟨longer, filledLonger, -⟩ := fits (by decide)
  have nuls : Field.SameButNuls "alice" "alice\x00\x00" :=
    ⟨"alice".toList, 0, 2, by decide, by decide⟩
  exact ⟨(narrow _).2 ⟨by decide, rfl⟩, ⟨field, filled, length, last, back [9, 9] [9]⟩,
    whole (by decide), ⟨bare, longer, filledBare, filledLonger,
      (alike 8 _ _ _ _ (by decide) filledBare filledLonger).2 nuls⟩,
    (refused _ _ _ _).2 ⟨by decide, rfl⟩, read _ 1 3 (by decide)⟩

end EncryptedBackup
