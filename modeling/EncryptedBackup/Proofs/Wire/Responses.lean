/-
Responses are read back as they were written. The code of a response decides which bodies suit it
(`ResponseBody.Suits`); a body that does is read back from its own bytes (`decode_encode`), whether
its id is there or not and whether its name leaves room for a NUL. So what follows the seven bytes of
the header is the response that was framed (`encode_read_back`).
-/
import EncryptedBackup.Proofs.Wire.Fields

namespace EncryptedBackup

open Wire

namespace ResponseBody

/-- A body suits a code: it has the layout that goes with the code, and all of it fits. A name may
fill its field. -/
inductive Suits : ResponseBody → ResponseCode → Prop where
  | checksum (id : ClientId) (size sum : UInt32) {name : String}
    (short : (Utf8.encode name).length ≤ nameWidth) (clean : 0 ∉ Utf8.encode name) :
    Suits (.checksum id size name sum) .fileReceived
  | withKey {code : ResponseCode} (brings : code = .publicKeyReceived ∨ code = .reconnected)
    (id : ClientId) {key : Bytes} (short : key.length < 0x100000000 - 16) :
    Suits (.withKey id key) code
  | bare {code : ResponseCode}
    (plain : code ∈ [.registered, .registrationFailed, .messageReceived, .reconnectionFailed,
      .generalIssue]) (id : Option ClientId) :
    Suits (.bare id) code

/-! ## One layout after the other -/

/-- Under a code that needs neither a key nor a checksum there is an id or nothing. -/
theorem decode_of_plain {code : ResponseCode}
    (plain : code ∈ [.registered, .registrationFailed, .messageReceived, .reconnectionFailed,
      .generalIssue]) (payload : Bytes) :
    decode code payload = .ok (.bare (ClientId.ofBytes? (payload.take ClientId.length))) := by
  simp only [List.mem_cons, List.not_mem_nil, or_false] at plain
  rcases plain with rfl | rfl | rfl | rfl | rfl
  all_goals rfl

/-- An id or nothing is read back under any code that needs neither a key nor a checksum. -/
theorem decode_bare {code : ResponseCode}
    (plain : code ∈ [.registered, .registrationFailed, .messageReceived, .reconnectionFailed,
      .generalIssue]) (id : Option ClientId) : decode code (encode (.bare id)) = .ok (.bare id) := by
  have read : ClientId.ofBytes? ((encode (.bare id)).take ClientId.length) = id := by
    cases id with
    | none => rfl
    | some id =>
      unfold encode ClientId.ofBytes? ClientId.length
      simp only [← id.length_eq, List.take_length, dif_pos]
  rw [decode_of_plain plain, read]

/-- A key is read from behind the id, under either of the codes that bring one. -/
theorem decode_withKey {code : ResponseCode}
    (brings : code = .publicKeyReceived ∨ code = .reconnected) (id : ClientId) (key : Bytes) :
    decode code (id.bytes ++ key) = .ok (.withKey id key) := by
  have clientId : Field.clientId (id.bytes ++ key) 0 = _ := Field.clientId_at [] key id rfl rfl
  have behind : (id.bytes ++ key).drop (0 + 16) = key := List.drop_left' id.length_eq
  unfold decode
  rcases brings with rfl | rfl
  · simp only [clientId, bind, Except.bind, pure, Except.pure, behind]
  · simp only [clientId, bind, Except.bind, pure, Except.pure, behind]

/-- Whatever fills the field of the name, a checksum is read from behind it. -/
theorem decode_layout (id : ClientId) (size sum : UInt32) {field : Bytes}
    (wide : field.length = nameWidth) :
    decode .fileReceived (id.bytes ++ (Field.ofLong size ++ (field ++ Field.ofLong sum))) =
      .ok (.checksum id size (Field.nameText field) sum) := by
  have length := id.length_eq
  generalize layout : id.bytes ++ (Field.ofLong size ++ (field ++ Field.ofLong sum)) = body
  have clientId : Field.clientId body 0 = _ :=
    Field.clientId_at [] _ id (by rw [← layout]; rfl) rfl
  have contentSize : Field.long body 16 = _ :=
    Field.long_at id.bytes _ size (by rw [← layout]) length
  have fileName : Field.name body 20 _ = _ :=
    Field.name_at (id.bytes ++ Field.ofLong size) field _
      (by rw [← layout, List.append_assoc]) (by simp [Field.ofLong, length])
  have checksum : Field.long body (20 + nameWidth) = _ :=
    Field.long_at (id.bytes ++ Field.ofLong size ++ field) [] sum (by simp [← layout])
      (by simp [Field.ofLong, length, wide, ← Nat.add_assoc])
  rw [wide] at fileName
  unfold decode
  simp only [clientId, contentSize, fileName, checksum, bind, Except.bind, pure, Except.pure]

/-- A name that fits is read back with its checksum. -/
theorem decode_checksum (id : ClientId) (size sum : UInt32) {name : String}
    (short : (Utf8.encode name).length ≤ nameWidth) (clean : 0 ∉ Utf8.encode name) :
    decode .fileReceived (encode (.checksum id size name sum)) = .ok (.checksum id size name sum) := by
  rw [encode, decode_layout id size sum (Field.padded_length ..), Field.nameText_padded short clean]

/-! ## Every body that suits its code -/

theorem length_checksum (id : ClientId) (size sum : UInt32) (name : String) :
    (encode (.checksum id size name sum)).length = 16 + (4 + (nameWidth + 4)) := by
  simp [encode, id.length_eq, Field.ofLong]

/-- A body that suits its code is read back from its bytes. -/
theorem decode_encode {body : ResponseBody} {code : ResponseCode} (suits : body.Suits code) :
    decode code body.encode = .ok body := by
  cases suits with
  | checksum id size sum short clean => exact decode_checksum id size sum short clean
  | withKey brings id short => exact decode_withKey brings id _
  | bare plain id => exact decode_bare plain id

/-- A body that suits its code can be announced. -/
theorem length_encode_le {body : ResponseBody} {code : ResponseCode} (suits : body.Suits code) :
    body.encode.length ≤ maxPayload := by
  cases suits with
  | checksum id size sum short clean =>
    rw [length_checksum]
    decide
  | @withKey _ brings id key short =>
    simp only [encode, List.length_append, id.length_eq, maxPayload]
    omega
  | bare plain id =>
    cases id with
    | none => exact Nat.zero_le _
    | some id =>
      simp only [encode, id.length_eq]
      decide

end ResponseBody

/-! ## Whole responses -/

/-- A response is read back: the header that its first seven bytes hold says its version, its code and
the number of bytes behind it, and these are understood as its body. -/
theorem Response.encode_read_back (version : UInt8) {code : ResponseCode} {body : ResponseBody}
    (suits : body.Suits code) :
    ∃ bytes header, encode version code body = .ok bytes ∧
      ResponseHeader.decode (bytes.take 7) = .ok header ∧
      header.version = version ∧ header.code = code.number ∧
      header.payloadSize.toNat = (bytes.drop 7).length ∧
      decode header (bytes.drop 7) = .ok ⟨header, code, body⟩ := by
  have announced := ResponseBody.length_encode_le suits
  let header : ResponseHeader := ⟨version, code.number, .ofNat body.encode.length⟩
  have seven : header.encode.length = 7 := header.encode_length
  have known : ResponseCode.ofNumber header.code = .ok code := ResponseCode.ofNumber_number code
  have framed : encode version code body = .ok (header.encode ++ body.encode) := if_pos announced
  have front : (header.encode ++ body.encode).take 7 = header.encode := List.take_left' seven
  have behind : (header.encode ++ body.encode).drop 7 = body.encode := List.drop_left' seven
  refine ⟨_, header, framed, ?_, rfl, rfl, ?_, ?_⟩
  · rw [front]
    simpa using header.decode_encode []
  · rw [behind]
    simp only [Wire.maxPayload] at announced
    show (UInt32.ofNat body.encode.length).toNat = _
    rw [UInt32.toNat_ofNat', Nat.mod_eq_of_lt (by omega)]
  · rw [behind]
    unfold decode
    simp only [known, ResponseBody.decode_encode suits, bind, Except.bind]
    rfl

/-- A name of 255 bytes, all but one of them in characters of two. -/
def fullName : String := String.ofList (List.replicate 127 'é' ++ ['n'])

theorem encode_fullName :
    Utf8.encode fullName = (List.replicate 127 [0xC3, 0xA9]).flatten ++ [0x6E] := by
  have two : String.utf8EncodeChar 'é' = [0xC3, 0xA9] := by decide
  have one : String.utf8EncodeChar 'n' = [0x6E] := by decide
  unfold Utf8.encode fullName
  rw [String.toList_ofList, List.flatMap_append, List.flatMap_def, List.map_replicate, two,
    List.flatMap_singleton, one]

theorem Response.encode_read_back_full : (Utf8.encode fullName).length = nameWidth ∧
    ∃ bytes header, encode 3 .fileReceived (.checksum .unset 11 fullName 7) = .ok bytes ∧
      ResponseHeader.decode (bytes.take 7) = .ok header ∧
      header.payloadSize.toNat = (bytes.drop 7).length ∧
      decode header (bytes.drop 7) =
        .ok ⟨header, .fileReceived, .checksum .unset 11 fullName 7⟩ := by
  have full : (Utf8.encode fullName).length = nameWidth := by
    rw [encode_fullName]
    decide +kernel
  have clean : 0 ∉ Utf8.encode fullName := by
    rw [encode_fullName]
    decide +kernel
  obtain ⟨bytes, header, framed, headed, -, -, size, read⟩ :=
    encode_read_back 3 (.checksum .unset 11 7 (Nat.le_of_eq full) clean)
  exact ⟨full, bytes, header, framed, headed, size, read⟩

end EncryptedBackup
