/-
Requests on the line: a whole frame is cut from the stream as it was written (`cut_encode`), a
frame that is not all there leaves everything waiting (`cut_of_short`). Every request that can be
made writes exactly one frame (`Request.Writes`).
-/
import EncryptedBackup.Proofs.Wire.Fields

namespace EncryptedBackup

open Wire

/-! ## Frames -/

namespace Frame

/-- The header announces the payload that there is. -/
def Whole (f : Frame) : Prop := f.header.payloadSize.toNat = f.payload.length

theorem length_encode (f : Frame) : f.encode.length = RequestHeader.length + f.payload.length := by
  unfold encode
  rw [List.length_append, RequestHeader.encode_length]

theorem take?_encode {f : Frame} (whole : f.Whole) (behind : Bytes) :
    take? (f.encode ++ behind) = some (f, behind) := by
  unfold take? encode
  rw [List.append_assoc, RequestHeader.decode_encode]
  simp only
  rw [show RequestHeader.length = f.header.encode.length from f.header.encode_length.symm,
    List.drop_left, whole, if_pos (by simp), List.take_left, List.drop_left]

/-- The start of a frame holds no whole frame. -/
theorem take?_of_short {f : Frame} (whole : f.Whole) {n : Nat} (short : n < f.encode.length) :
    take? (f.encode.take n) = none := by
  rw [length_encode] at short
  unfold take?
  by_cases header : RequestHeader.length ≤ n
  · unfold encode
    obtain ⟨m, rfl⟩ := Nat.exists_eq_add_of_le header
    rw [show RequestHeader.length + m = f.header.encode.length + m by
      rw [RequestHeader.encode_length], List.take_length_add_append, RequestHeader.decode_encode]
    simp only
    rw [show RequestHeader.length = f.header.encode.length from f.header.encode_length.symm,
      List.drop_left, whole, if_neg]
    simp only [List.length_take]
    omega
  · cases h : RequestHeader.decode (f.encode.take n) with
    | error e => rfl
    | ok h' =>
      have := RequestHeader.length_le_of_decode h
      rw [List.length_take] at this
      omega

theorem go_nil : ∀ n : Nat, cut.go n [] = ([], [])
  | 0 => rfl
  | _ + 1 => rfl

theorem cut_encode {f : Frame} (whole : f.Whole) : cut f.encode = ([f], []) := by
  have long : f.encode.length = f.payload.length + 22 + 1 := by
    rw [length_encode]
    simp only [RequestHeader.length]
    omega
  have taken := take?_encode whole []
  rw [List.append_nil] at taken
  unfold cut
  rw [long]
  unfold cut.go
  simp only [taken, go_nil]

theorem cut_of_short {f : Frame} (whole : f.Whole) {n : Nat} (short : n < f.encode.length) :
    cut (f.encode.take n) = ([], f.encode.take n) := by
  unfold cut
  cases (f.encode.take n).length with
  | zero => rfl
  | succ m =>
    unfold cut.go
    rw [take?_of_short whole short]

/-! ## What clients write -/

/-- The frame of a request with no more than a name. -/
def plain (id : ClientId) (code : RequestCode) (name : String) : Frame :=
  ⟨⟨id, version, code.number, .ofNat nameWidth⟩, Field.padded nameWidth (Utf8.encode name)⟩

/-- The frame of a request with a public key. -/
def publicKey (id : ClientId) (name : String) (key : Bytes) : Frame :=
  ⟨⟨id, version, RequestCode.sendPublicKey.number, .ofNat (nameWidth + publicKeyWidth)⟩,
    Field.padded nameWidth (Utf8.encode name) ++ key⟩

/-- The body of a packet. -/
def packetBody (p : Packet) : Bytes :=
  Field.ofLong p.contentSize ++ (Field.ofLong p.plainSize ++ (Field.ofWord p.number ++
    (Field.ofWord p.total ++ (Field.padded nameWidth (Utf8.encode p.fileName) ++ p.ciphertext))))

/-- The frame of a request with a packet. -/
def packet (id : ClientId) (p : Packet) : Frame :=
  ⟨⟨id, version, RequestCode.sendFile.number, .ofNat (packetBody p).length⟩, packetBody p⟩

theorem packetBody_length (p : Packet) :
    (packetBody p).length = Packet.overhead + p.ciphertext.length := by
  simp [packetBody, Field.ofLong, Field.ofWord, Packet.overhead]
  omega

end Frame

/-! ## Requests as frames -/

namespace Request

/-- A request writes one frame, and nothing else. -/
def Writes (r : Request) (f : Frame) : Prop := r.encode = .ok f.encode ∧ f.Whole

theorem plain_writes (id : ClientId) (code : RequestCode) {name : String}
    (short : (Utf8.encode name).length < nameWidth) :
    ∃ r, plain id code name = .ok r ∧ r.Writes (.plain id code name) := by
  refine ⟨⟨id, code, .plain name, show nameWidth ≤ maxPayload by decide⟩, ?_, ?_, ?_⟩
  · unfold plain
    rw [Field.checkName_of_lt short]
    rfl
  · unfold encode
    simp only [RequestBody.encode, Field.ofName_of_lt short]
    rfl
  · unfold Frame.Whole Frame.plain
    rw [Field.padded_length]
    rfl

/-- A request with a name only is refused or writes its frame. -/
theorem plain_cases (id : ClientId) (code : RequestCode) (name : String) :
    (∃ e, plain id code name = .error e) ∨
      ∃ r, plain id code name = .ok r ∧ r.Writes (.plain id code name) := by
  by_cases short : (Utf8.encode name).length < nameWidth
  · exact .inr (plain_writes id code short)
  · refine .inl ⟨.nameTooLong (Utf8.encode name).length (nameWidth - 1), ?_⟩
    unfold plain
    rw [Field.checkName_of_le (Nat.not_lt.1 short)]
    rfl

theorem publicKey_writes (id : ClientId) {name : String} {key : Bytes}
    (short : (Utf8.encode name).length < nameWidth) (full : key.length = publicKeyWidth) :
    ∃ r, publicKey id name key = .ok r ∧ r.Writes (.publicKey id name key) := by
  refine ⟨⟨id, .sendPublicKey, .withKey name key,
    show nameWidth + publicKeyWidth ≤ maxPayload by decide⟩, ?_, ?_, ?_⟩
  · unfold publicKey
    rw [Field.checkName_of_lt short, full]
    rfl
  · unfold encode
    simp only [RequestBody.encode, Field.ofName_of_lt short]
    rfl
  · unfold Frame.Whole Frame.publicKey
    rw [List.length_append, Field.padded_length, full]
    rfl

/-- A request with a public key is refused or writes its frame. -/
theorem publicKey_cases (id : ClientId) (name : String) (key : Bytes) :
    (∃ e, publicKey id name key = .error e) ∨
      ∃ r, publicKey id name key = .ok r ∧ r.Writes (.publicKey id name key) := by
  by_cases short : (Utf8.encode name).length < nameWidth
  · by_cases full : key.length = publicKeyWidth
    · exact .inr (publicKey_writes id short full)
    · refine .inl ⟨.publicKeyLength publicKeyWidth key.length, ?_⟩
      unfold publicKey
      rw [Field.checkName_of_lt short]
      simp only [ne_eq, full, not_false_eq_true, if_true]
      rfl
  · refine .inl ⟨.nameTooLong (Utf8.encode name).length (nameWidth - 1), ?_⟩
    unfold publicKey
    rw [Field.checkName_of_le (Nat.not_lt.1 short)]
    rfl

theorem packet_eq_ok (id : ClientId) {p : Packet}
    (short : (Utf8.encode p.fileName).length < nameWidth)
    (fits : Packet.overhead + p.ciphertext.length ≤ maxPayload) :
    packet id p = .ok ⟨id, .sendFile, .packet p, fits⟩ := by
  unfold packet
  rw [Field.checkName_of_lt short]
  exact dif_pos fits

/-- A packet that fits is announced and writes its frame. -/
theorem packet_writes (id : ClientId) {p : Packet}
    (short : (Utf8.encode p.fileName).length < nameWidth)
    (fits : Packet.overhead + p.ciphertext.length ≤ maxPayload) :
    ∃ r, packet id p = .ok r ∧ r.Writes (.packet id p) := by
  refine ⟨_, packet_eq_ok id short fits, ?_, ?_⟩
  · unfold encode
    simp only [RequestBody.encode, Packet.encodeFields, Field.ofName_of_lt short, header,
      RequestBody.announcedLength, Frame.encode, Frame.packet, Frame.packetBody_length]
    simp [bind, Except.bind, pure, Except.pure, Frame.packetBody, RequestCode.number]
  · unfold Frame.Whole Frame.packet
    have := Frame.packetBody_length p
    simp only [maxPayload] at fits
    simp only [UInt32.toNat_ofNat']
    omega

end Request

/-! ## Packets read back -/

theorem Packet.make_eq_ok (number total : UInt16) {fileName : String}
    (short : (Utf8.encode fileName).length < nameWidth) {plainSize : Nat}
    (plain : plainSize ≤ maxPayload) {ciphertext : Bytes} (fits : ciphertext.length ≤ maxPayload) :
    make number total fileName plainSize ciphertext =
      .ok ⟨.ofNat ciphertext.length, .ofNat plainSize, number, total, fileName, ciphertext⟩ := by
  unfold make
  rw [Field.checkName_of_lt short]
  simp only [if_neg (Nat.not_lt.2 fits), if_neg (Nat.not_lt.2 plain)]
  rfl

/-- A packet is read back from the body of its request, its name up to the first NUL. -/
theorem Packet.decode_packetBody_eq {p : Packet}
    (short : (Utf8.encode p.fileName).length < nameWidth) :
    decode (Frame.packetBody p) = .ok { p with fileName := Field.beforeNul p.fileName } := by
  have name := Field.nameText_padded_eq (Nat.le_of_lt short)
  generalize layout : Frame.packetBody p = body
  unfold Frame.packetBody at layout
  have contentSize : Field.long body 0 = _ :=
    Field.long_at [] _ p.contentSize (by rw [← layout]; rfl) rfl
  have plainSize : Field.long body 4 = _ :=
    Field.long_at (Field.ofLong p.contentSize) _ p.plainSize (by rw [← layout]) rfl
  have number : Field.word body 8 = _ :=
    Field.word_at (Field.ofLong p.contentSize ++ Field.ofLong p.plainSize) _ p.number
      (by rw [← layout, List.append_assoc]) rfl
  have total : Field.word body 10 = _ :=
    Field.word_at (Field.ofLong p.contentSize ++ Field.ofLong p.plainSize ++ Field.ofWord p.number)
      _ p.total (by rw [← layout, List.append_assoc, List.append_assoc]) rfl
  have fileName : Field.name body 12 _ = _ :=
    Field.name_at (Field.ofLong p.contentSize ++ Field.ofLong p.plainSize ++
      Field.ofWord p.number ++ Field.ofWord p.total) _ p.ciphertext
      (by rw [← layout, List.append_assoc, List.append_assoc, List.append_assoc]) rfl
  rw [Field.padded_length, name] at fileName
  have ciphertext : body.drop (12 + nameWidth) = p.ciphertext := by
    rw [← layout, ← List.append_assoc, ← List.append_assoc, ← List.append_assoc,
      ← List.append_assoc]
    exact List.drop_left' (by simp [Field.ofLong, Field.ofWord, nameWidth])
  unfold decode
  simp only [contentSize, plainSize, number, total, fileName, ciphertext, bind, Except.bind, pure,
    Except.pure]

/-- A packet whose name has no NUL is read back from the body of its request. -/
theorem Packet.decode_packetBody {p : Packet} (short : (Utf8.encode p.fileName).length < nameWidth)
    (clean : 0 ∉ Utf8.encode p.fileName) : decode (Frame.packetBody p) = .ok p := by
  rw [decode_packetBody_eq short, Field.beforeNul_of_clean clean]

end EncryptedBackup
