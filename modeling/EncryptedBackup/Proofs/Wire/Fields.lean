/-
Fields are read back as they were written, wherever they stand in a buffer: bytes (`slice_at`),
numbers (`octet_at`, `word_at`, `long_at`), ids and names (`name_at`). Headers of both directions
follow, with any bytes behind them.
-/
import EncryptedBackup.Wire.Response
import EncryptedBackup.Proofs.Text.Utf8

namespace EncryptedBackup

/-- A result comes through every step before it. -/
theorem exists_of_bind_ok {ε α β : Type} {x : Except ε α} {f : α → Except ε β} {b : β}
    (h : (x >>= f) = .ok b) : ∃ a, x = .ok a ∧ f a = .ok b := by
  cases x with
  | error e => cases h
  | ok a => exact ⟨a, rfl, h⟩

theorem ok_of_toOption {ε α : Type} {x : Except ε α} {a : α} (h : x.toOption = some a) :
    x = .ok a := by
  cases x with
  | error e => cases h
  | ok _ =>
    cases h
    rfl

/-- Another error makes no result. -/
theorem ok_of_mapError {ε ε' α : Type} {x : Except ε α} {f : ε → ε'} {a : α}
    (h : x.mapError f = .ok a) : x = .ok a := by
  cases x with
  | error e => cases h
  | ok _ =>
    cases h
    rfl

namespace Field

/-! ## Fields in a buffer -/

section

variable {buffer : Bytes} {offset : Nat}

theorem slice_at (before field behind : Bytes)
    (h : buffer = before ++ (field ++ behind)) (at_ : before.length = offset) :
    slice buffer offset field.length = .ok (field, offset + field.length) := by
  subst h at_
  unfold slice
  rw [if_pos (by simp), List.drop_left, List.take_left]

theorem octet_at (before behind : Bytes) (v : UInt8)
    (h : buffer = before ++ (ofOctet v ++ behind)) (at_ : before.length = offset) :
    octet buffer offset = .ok (v, offset + 1) := by
  have read := slice_at before (ofOctet v) behind h at_
  unfold octet
  rw [show slice buffer offset 1 = _ from read]
  simp [ofOctet, ofLittleEndian, bind, Except.bind, pure, Except.pure]

theorem word_at (before behind : Bytes) (v : UInt16)
    (h : buffer = before ++ (ofWord v ++ behind)) (at_ : before.length = offset) :
    word buffer offset = .ok (v, offset + 2) := by
  have read := slice_at before (ofWord v) behind h at_
  unfold word
  rw [show slice buffer offset 2 = _ by simpa [ofWord] using read]
  have fits : v.toNat % capacity 2 = v.toNat := Nat.mod_eq_of_lt v.toNat_lt
  simp [ofLittleEndian_littleEndian, fits, bind, Except.bind, pure, Except.pure]

theorem long_at (before behind : Bytes) (v : UInt32)
    (h : buffer = before ++ (ofLong v ++ behind)) (at_ : before.length = offset) :
    long buffer offset = .ok (v, offset + 4) := by
  have read := slice_at before (ofLong v) behind h at_
  unfold long
  rw [show slice buffer offset 4 = _ by simpa [ofLong] using read]
  have fits : v.toNat % capacity 4 = v.toNat := Nat.mod_eq_of_lt v.toNat_lt
  simp [ofLittleEndian_littleEndian, fits, bind, Except.bind, pure, Except.pure]

theorem clientId_at (before behind : Bytes) (id : ClientId)
    (h : buffer = before ++ (id.bytes ++ behind)) (at_ : before.length = offset) :
    clientId buffer offset = .ok (id, offset + 16) := by
  subst h at_
  unfold clientId
  rw [dif_pos (by simp [id.length_eq])]
  congr 2
  obtain ⟨bytes, length⟩ := id
  simp only [ClientId.mk.injEq]
  rw [List.drop_left, ← length, List.take_left]

/-! ## What a reader needs -/

theorem slice_ok {width next : Nat} {bs : Bytes} (h : slice buffer offset width = .ok (bs, next)) :
    next = offset + width ∧ next ≤ buffer.length := by
  unfold slice at h
  split at h
  · cases h
    exact ⟨rfl, by assumption⟩
  · cases h

theorem octet_ok {v : UInt8} {next : Nat} (h : octet buffer offset = .ok (v, next)) :
    next = offset + 1 ∧ next ≤ buffer.length := by
  unfold octet at h
  obtain ⟨⟨_, _⟩, read, h⟩ := exists_of_bind_ok h
  cases h
  exact slice_ok read

theorem word_ok {v : UInt16} {next : Nat} (h : word buffer offset = .ok (v, next)) :
    next = offset + 2 ∧ next ≤ buffer.length := by
  unfold word at h
  obtain ⟨⟨_, _⟩, read, h⟩ := exists_of_bind_ok h
  cases h
  exact slice_ok read

theorem long_ok {v : UInt32} {next : Nat} (h : long buffer offset = .ok (v, next)) :
    next = offset + 4 ∧ next ≤ buffer.length := by
  unfold long at h
  obtain ⟨⟨_, _⟩, read, h⟩ := exists_of_bind_ok h
  cases h
  exact slice_ok read

theorem clientId_ok {id : ClientId} {next : Nat} (h : clientId buffer offset = .ok (id, next)) :
    next = offset + 16 ∧ next ≤ buffer.length := by
  unfold clientId at h
  split at h
  · cases h
    exact ⟨rfl, by assumption⟩
  · cases h

end

/-! ## Names -/

theorem checkName_of_lt {width : Nat} {name : String} (h : (Utf8.encode name).length < width) :
    checkName width name = .ok () := by
  unfold checkName
  simp only
  rw [if_pos h]

theorem checkName_of_le {width : Nat} {name : String} (h : width ≤ (Utf8.encode name).length) :
    checkName width name = .error (.nameTooLong (Utf8.encode name).length (width - 1)) := by
  unfold checkName
  simp only
  rw [if_neg (Nat.not_lt.2 h)]

theorem ofName_of_lt {width : Nat} {name : String} (h : (Utf8.encode name).length < width) :
    ofName width name = .ok (padded width (Utf8.encode name)) := by
  unfold ofName
  rw [checkName_of_lt h]
  rfl

/-- What stands before the first NUL of a text. -/
def beforeNul (name : String) : String := String.ofList (name.toList.takeWhile (· ≠ '\x00'))

theorem takeWhile_encodeChars (n : Nat) : ∀ cs : List Char,
    (cs.flatMap String.utf8EncodeChar ++ List.replicate n 0).takeWhile (· ≠ 0) =
      (cs.takeWhile (· ≠ '\x00')).flatMap String.utf8EncodeChar
  | [] => by
    cases n with
    | zero => rfl
    | succ n => simp [List.replicate_succ]
  | c :: cs => by
    by_cases nul : c = '\x00'
    · subst nul
      have zero : String.utf8EncodeChar '\x00' = [0] := by decide
      simp [zero]
    -- all bytes of another character are taken
    · have clean := Utf8.zero_notMem_encodeChar nul
      rw [List.flatMap_cons, List.append_assoc, List.takeWhile_append_of_pos fun b hb => by
        simpa using fun zero : b = 0 => clean (zero ▸ hb), takeWhile_encodeChars n cs,
        List.takeWhile_cons_of_pos (by simpa using nul), List.flatMap_cons]

/-- A name is read back from its field up to its first NUL. -/
theorem nameText_padded_eq {width : Nat} {name : String}
    (fits : (Utf8.encode name).length ≤ width) :
    nameText (padded width (Utf8.encode name)) = beforeNul name := by
  have read : (Utf8.encode name ++
      List.replicate (width - (Utf8.encode name).length) 0).takeWhile (· ≠ 0) =
        Utf8.encode (beforeNul name) := by
    have chars := takeWhile_encodeChars (width - (Utf8.encode name).length) name.toList
    unfold Utf8.encode beforeNul at *
    simpa using chars
  unfold nameText padded
  rw [List.take_of_length_le fits, read, Utf8.lossy_encode]

theorem beforeNul_of_clean {name : String} (clean : 0 ∉ Utf8.encode name) :
    beforeNul name = name := by
  have kept : (name.toList ++ []).takeWhile (· ≠ '\x00') =
      name.toList ++ [].takeWhile (· ≠ '\x00') := by
    refine List.takeWhile_append_of_pos fun c hc => ?_
    have other : c ≠ '\x00' := by
      rintro rfl
      exact clean (List.mem_flatMap.2 ⟨_, hc, by decide⟩)
    simpa using other
  rw [List.append_nil, List.takeWhile_nil, List.append_nil] at kept
  unfold beforeNul
  rw [kept, String.ofList_toList]

/-- A name without a NUL is read back from its field. -/
theorem nameText_padded {width : Nat} {name : String} (fits : (Utf8.encode name).length ≤ width)
    (clean : 0 ∉ Utf8.encode name) : nameText (padded width (Utf8.encode name)) = name := by
  rw [nameText_padded_eq fits, beforeNul_of_clean clean]

theorem name_at {buffer : Bytes} {offset : Nat} (before field behind : Bytes)
    (h : buffer = before ++ (field ++ behind)) (at_ : before.length = offset) :
    name buffer offset field.length = .ok (nameText field, offset + field.length) := by
  unfold name
  rw [slice_at before field behind h at_]
  rfl

end Field

/-! ## Headers -/

open EncryptedBackup.Field

namespace RequestHeader

theorem decode_encode (h : RequestHeader) (behind : Bytes) :
    decode (h.encode ++ behind) = .ok h := by
  have length := h.clientId.length_eq
  have id : Field.clientId (h.encode ++ behind) 0 = _ :=
    clientId_at [] (ofOctet h.version ++ (ofWord h.code ++ (ofLong h.payloadSize ++ behind)))
      h.clientId (by simp [encode]) rfl
  have version : octet (h.encode ++ behind) 16 = _ :=
    octet_at h.clientId.bytes (ofWord h.code ++ (ofLong h.payloadSize ++ behind)) h.version
      (by simp [encode]) length
  have code : word (h.encode ++ behind) 17 = _ :=
    word_at (h.clientId.bytes ++ ofOctet h.version) (ofLong h.payloadSize ++ behind) h.code
      (by simp [encode]) (by simp [ofOctet, length])
  have size : long (h.encode ++ behind) 19 = _ :=
    long_at (h.clientId.bytes ++ ofOctet h.version ++ ofWord h.code) behind h.payloadSize
      (by simp [encode]) (by simp [ofOctet, ofWord, length])
  unfold decode
  simp only [id, version, code, size, bind, Except.bind, pure, Except.pure]

/-- Fewer bytes than a header has hold none. -/
theorem length_le_of_decode {bs : Bytes} {h : RequestHeader} (read : decode bs = .ok h) :
    length ≤ bs.length := by
  unfold decode at read
  obtain ⟨⟨_, _⟩, id, read⟩ := exists_of_bind_ok read
  obtain ⟨⟨_, _⟩, version, read⟩ := exists_of_bind_ok read
  obtain ⟨⟨_, _⟩, code, read⟩ := exists_of_bind_ok read
  obtain ⟨⟨_, _⟩, size, -⟩ := exists_of_bind_ok read
  have := clientId_ok id
  have := octet_ok version
  have := word_ok code
  have := long_ok size
  simp only [length]
  omega

end RequestHeader

namespace ResponseHeader

theorem decode_encode (h : ResponseHeader) (behind : Bytes) :
    decode (h.encode ++ behind) = .ok h := by
  have version : octet (h.encode ++ behind) 0 = _ :=
    octet_at [] (ofWord h.code ++ (ofLong h.payloadSize ++ behind)) h.version (by simp [encode]) rfl
  have code : word (h.encode ++ behind) 1 = _ :=
    word_at (ofOctet h.version) (ofLong h.payloadSize ++ behind) h.code (by simp [encode]) rfl
  have size : long (h.encode ++ behind) 3 = _ :=
    long_at (ofOctet h.version ++ ofWord h.code) behind h.payloadSize (by simp [encode])
      (by simp [ofOctet, ofWord])
  unfold decode
  simp only [version, code, size, bind, Except.bind, pure, Except.pure]

end ResponseHeader

end EncryptedBackup
