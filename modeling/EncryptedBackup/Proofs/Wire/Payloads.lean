/-
What a payload tells (`ResponseBody.Tells`). Under every code it tells of one body, or of the one
field that is cut off (`ResponseBody.decode_eq_iff`): bytes behind the last field are ignored, and
only the answers to files and those that bring a key can be too short.
-/
import EncryptedBackup.Proofs.Wire.Names
import EncryptedBackup.Proofs.Wire.Responses

namespace EncryptedBackup

open Wire

/-! ## Fields that are there -/

namespace Field

section

variable {buffer : Bytes} {offset : Nat}

theorem long_of_lt (short : buffer.length < offset + 4) :
    long buffer offset = .error (.truncated offset 4 (buffer.length - offset)) := by
  unfold long
  rw [slice_eq_error_iff.2 ⟨short, rfl⟩]
  rfl

theorem long_of_le (fits : offset + 4 ≤ buffer.length) :
    long buffer offset =
      .ok (.ofNat (ofLittleEndian ((buffer.drop offset).take 4)), offset + 4) := by
  unfold long
  rw [slice_of_le fits]
  rfl

theorem clientId_of_lt (short : buffer.length < offset + 16) :
    clientId buffer offset = .error (.truncated offset 16 (buffer.length - offset)) := by
  unfold clientId
  rw [dif_neg (Nat.not_le.2 short)]

theorem clientId_of_le {id : ClientId} (fits : offset + 16 ≤ buffer.length)
    (named : id.bytes = (buffer.drop offset).take 16) :
    clientId buffer offset = .ok (id, offset + 16) := by
  unfold clientId
  rw [dif_pos fits]
  cases id
  cases named
  rfl

theorem exists_clientId (buffer : Bytes) (offset : Nat) (fits : offset + 16 ≤ buffer.length) :
    ∃ id : ClientId, id.bytes = (buffer.drop offset).take 16 :=
  ⟨⟨(buffer.drop offset).take 16, by simp; omega⟩, rfl⟩

end

end Field

/-! ## What a payload tells -/

namespace ResponseBody

/-- Where the fields of the answer to a file stand and how wide they are: the id, the size of the
content, the name of the file and the checksum. -/
def checksumFields : List (Nat × Nat) := [(0, 16), (16, 4), (20, 255), (275, 4)]

/-- The first of them for which there are too few bytes. -/
def misfit? (length : Nat) : Option (Nat × Nat) :=
  checksumFields.find? fun field => length < field.1 + field.2

theorem misfit?_eq (length : Nat) : misfit? length =
    if length < 16 then some (0, 16)
    else if length < 20 then some (16, 4)
    else if length < 275 then some (20, 255)
    else if length < 279 then some (275, 4)
    else none := by
  unfold misfit? checksumFields
  simp only [List.find?_cons, List.find?_nil, Nat.zero_add, Nat.reduceAdd]
  repeat' split
  all_goals simp_all

theorem misfit?_eq_none_iff {length : Nat} : misfit? length = none ↔ 279 ≤ length := by
  rw [misfit?_eq]
  repeat' split
  all_goals simp
  all_goals omega

/-- What a payload tells under a code: a body, or the field that is cut off. -/
inductive Tells (payload : Bytes) : ResponseCode → Except Error ResponseBody → Prop where
  | checksum {id : ClientId} (full : 279 ≤ payload.length) (named : id.bytes = payload.take 16) :
    Tells payload .fileReceived (.ok (.checksum id
      (.ofNat (ofLittleEndian ((payload.drop 16).take 4)))
      (Field.nameText ((payload.drop 20).take 255))
      (.ofNat (ofLittleEndian ((payload.drop 275).take 4)))))
  | cutOff {offset width : Nat} (first : misfit? payload.length = some (offset, width)) :
    Tells payload .fileReceived (.error (.truncated offset width (payload.length - offset)))
  | withKey {code : ResponseCode} {id : ClientId}
    (brings : code = .publicKeyReceived ∨ code = .reconnected) (enough : 16 ≤ payload.length)
    (named : id.bytes = payload.take 16) : Tells payload code (.ok (.withKey id (payload.drop 16)))
  | withoutId {code : ResponseCode} (brings : code = .publicKeyReceived ∨ code = .reconnected)
    (short : payload.length < 16) :
    Tells payload code (.error (.truncated 0 16 payload.length))
  | bare {code : ResponseCode}
    (plain : code ∈ [.registered, .registrationFailed, .messageReceived, .reconnectionFailed,
      .generalIssue]) {id : Option ClientId} (there : id.isSome = true ↔ 16 ≤ payload.length)
    (named : ∀ i ∈ id, i.bytes = payload.take 16) : Tells payload code (.ok (.bare id))

section

variable {payload : Bytes} {code : ResponseCode}

/-- The answer to a file is read as far as its fields are there. -/
theorem decode_of_misfit {offset width : Nat}
    (first : misfit? payload.length = some (offset, width)) :
    decode .fileReceived payload = .error (.truncated offset width (payload.length - offset)) := by
  rw [misfit?_eq] at first
  unfold decode
  by_cases noId : payload.length < 16
  · rw [if_pos noId] at first
    cases first
    have clientId : Field.clientId payload 0 = _ := Field.clientId_of_lt (by omega)
    simp only [clientId, bind, Except.bind]
  rw [if_neg noId] at first
  obtain ⟨id, named⟩ := Field.exists_clientId payload 0 (by omega)
  have clientId : Field.clientId payload 0 = _ := Field.clientId_of_le (by omega) named
  by_cases noSize : payload.length < 20
  · rw [if_pos noSize] at first
    cases first
    have contentSize : Field.long payload 16 = _ := Field.long_of_lt (by omega)
    simp only [clientId, contentSize, bind, Except.bind]
  rw [if_neg noSize] at first
  have contentSize : Field.long payload 16 = _ := Field.long_of_le (by omega)
  by_cases noName : payload.length < 275
  · rw [if_pos noName] at first
    cases first
    have fileName : Field.name payload 20 nameWidth = _ :=
      Field.name_eq_error_iff.2 ⟨by simp only [nameWidth]; omega, rfl⟩
    simp only [clientId, contentSize, fileName, bind, Except.bind]
    rfl
  rw [if_neg noName] at first
  have fileName : Field.name payload 20 nameWidth = _ :=
    Field.name_of_le (by simp only [nameWidth]; omega)
  by_cases noSum : payload.length < 279
  · rw [if_pos noSum] at first
    cases first
    have sum : Field.long payload (20 + nameWidth) = _ :=
      Field.long_of_lt (by simp only [nameWidth]; omega)
    simp only [clientId, contentSize, fileName, sum, bind, Except.bind]
    rfl
  · rw [if_neg noSum] at first
    cases first

theorem Tells.decode_eq {outcome : Except Error ResponseBody} (tells : Tells payload code outcome) :
    decode code payload = outcome := by
  cases tells with
  | checksum full named =>
    have clientId : Field.clientId payload 0 = _ := Field.clientId_of_le (by omega) named
    have contentSize : Field.long payload 16 = _ := Field.long_of_le (by omega)
    have fileName : Field.name payload 20 nameWidth = _ :=
      Field.name_of_le (by simp only [nameWidth]; omega)
    have sum : Field.long payload (20 + nameWidth) = _ :=
      Field.long_of_le (by simp only [nameWidth]; omega)
    unfold decode
    simp only [clientId, contentSize, fileName, sum, bind, Except.bind]
    rfl
  | cutOff first => exact decode_of_misfit first
  | @withKey _ id brings _ named =>
    have split : id.bytes ++ payload.drop 16 = payload := by rw [named, List.take_append_drop]
    have read := decode_withKey brings id (payload.drop 16)
    rwa [split] at read
  | withoutId brings short =>
    have clientId : Field.clientId payload 0 = _ := Field.clientId_of_lt (by omega)
    rcases brings with rfl | rfl
    all_goals
      unfold decode
      simp only [clientId, bind, Except.bind]
      rfl
  | @bare code plain id there named =>
    have read : ClientId.ofBytes? (payload.take ClientId.length) = id := by
      unfold ClientId.ofBytes? ClientId.length
      cases id with
      | none =>
        have short : payload.length < 16 := by simpa using there
        rw [dif_neg (by simp; omega)]
      | some id =>
        have enough : 16 ≤ payload.length := by simpa using there
        rw [dif_pos (by simp; omega)]
        simp only [← named id rfl]
    rw [decode_of_plain plain, read]

theorem exists_named (payload : Bytes) (enough : 16 ≤ payload.length) :
    ∃ id : ClientId, id.bytes = payload.take 16 :=
  Field.exists_clientId payload 0 (by omega)

theorem exists_tells_of_key (brings : code = .publicKeyReceived ∨ code = .reconnected)
    (payload : Bytes) : ∃ outcome, Tells payload code outcome := by
  by_cases enough : 16 ≤ payload.length
  · obtain ⟨id, named⟩ := exists_named payload enough
    exact ⟨_, .withKey brings enough named⟩
  · exact ⟨_, .withoutId brings (Nat.lt_of_not_le enough)⟩

theorem exists_tells_of_plain (plain : code ∈ [.registered, .registrationFailed, .messageReceived,
    .reconnectionFailed, .generalIssue]) (payload : Bytes) :
    ∃ outcome, Tells payload code outcome := by
  by_cases enough : 16 ≤ payload.length
  · obtain ⟨id, named⟩ := exists_named payload enough
    exact ⟨.ok (.bare (some id)), .bare plain (by simpa using enough) (by simpa using named)⟩
  · exact ⟨.ok (.bare none), .bare plain (by simpa using enough) nofun⟩

/-- Every payload tells something. -/
theorem exists_tells (code : ResponseCode) (payload : Bytes) :
    ∃ outcome, Tells payload code outcome := by
  cases code with
  | fileReceived =>
    cases first : misfit? payload.length with
    | some field => exact ⟨_, .cutOff first⟩
    | none =>
      have full := misfit?_eq_none_iff.1 first
      obtain ⟨id, named⟩ := exists_named payload (by omega)
      exact ⟨_, .checksum full named⟩
  | publicKeyReceived => exact exists_tells_of_key (.inl rfl) payload
  | reconnected => exact exists_tells_of_key (.inr rfl) payload
  | _ => exact exists_tells_of_plain (by decide) payload

theorem decode_eq_iff {outcome : Except Error ResponseBody} :
    decode code payload = outcome ↔ Tells payload code outcome := by
  constructor
  · rintro rfl
    obtain ⟨outcome, tells⟩ := exists_tells code payload
    rwa [tells.decode_eq]
  · exact Tells.decode_eq

end

/-- Bytes behind the checksum make no difference. -/
theorem Tells.append {payload : Bytes} {outcome : Except Error ResponseBody}
    (tells : Tells payload .fileReceived outcome) (full : 279 ≤ payload.length) (more : Bytes) :
    Tells (payload ++ more) .fileReceived outcome := by
  cases tells with
  | checksum _ named =>
    have longer : 279 ≤ (payload ++ more).length := by
      rw [List.length_append]
      omega
    have field {offset width : Nat} (there : offset + width ≤ payload.length) :
        ((payload ++ more).drop offset).take width = (payload.drop offset).take width := by
      rw [List.drop_append_of_le_length (by omega), List.take_append_of_le_length]
      rw [List.length_drop]
      omega
    have id : (payload ++ more).take 16 = payload.take 16 :=
      field (show 0 + 16 ≤ payload.length by omega)
    have tells := Tells.checksum longer (named.trans id.symm)
    rwa [field (by omega), field (by omega), field (by omega)] at tells
  | cutOff first =>
    rw [misfit?_eq_none_iff.2 full] at first
    cases first
  | withKey brings => simp at brings
  | withoutId brings => simp at brings
  | bare plain => simp at plain

end ResponseBody

end EncryptedBackup
