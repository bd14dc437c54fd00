/-
Which responses are understood. Whether one is, follows from its code and from how many bytes there
are, and what it carries from its code, but for an id that may be left out (`response_acceptance`).
-/
import EncryptedBackup.Proofs.Wire.Payloads

namespace EncryptedBackup

open Wire

/-! ## Codes -/

namespace ResponseCode

theorem ofNumber_eq_ok_iff {n : UInt16} {c : ResponseCode} : ofNumber n = .ok c ↔ c.number = n := by
  constructor
  · intro known
    unfold ofNumber at known
    split at known
    · rename_i found
      cases known
      simpa using List.find?_some found
    · cases known
  · rintro rfl
    exact ofNumber_number c

theorem ofNumber_of_unknown {n : UInt16} (unknown : ∀ c : ResponseCode, c.number ≠ n) :
    ofNumber n = .error (.unknownResponse n) := by
  unfold ofNumber
  rw [List.find?_eq_none.2 fun c _ => by simpa using unknown c]

/-- A number is that of a code, or of none. -/
theorem number_cases (n : UInt16) :
    (∃ c : ResponseCode, c.number = n) ∨ ∀ c : ResponseCode, c.number ≠ n :=
  (Classical.em _).imp_right not_exists.1

end ResponseCode

/-! ## Responses -/

namespace Response

section

variable {header : ResponseHeader} {payload : Bytes} {code : ResponseCode}

theorem decode_of_unknown (unknown : ∀ c : ResponseCode, c.number ≠ header.code) :
    decode header payload = .error (.unknownResponse header.code) := by
  unfold decode
  rw [ResponseCode.ofNumber_of_unknown unknown]
  rfl

theorem decode_of_known (known : code.number = header.code) : decode header payload =
    (ResponseBody.decode code payload).map fun body => ⟨header, code, body⟩ := by
  unfold decode
  rw [ResponseCode.ofNumber_eq_ok_iff.2 known]
  rfl

theorem decode_eq_ok_iff (known : code.number = header.code) {r : Response} :
    decode header payload = .ok r ↔
      ∃ body, ResponseBody.Tells payload code (.ok body) ∧ r = ⟨header, code, body⟩ := by
  rw [decode_of_known known]
  constructor
  · intro read
    cases told : ResponseBody.decode code payload with
    | error e =>
      rw [told] at read
      cases read
    | ok body =>
      rw [told] at read
      cases read
      exact ⟨body, ResponseBody.decode_eq_iff.1 told, rfl⟩
  · rintro ⟨body, tells, rfl⟩
    rw [tells.decode_eq]
    rfl

theorem decode_eq_error_iff (known : code.number = header.code) {e : Error} :
    decode header payload = .error e ↔ ResponseBody.Tells payload code (.error e) := by
  rw [decode_of_known known, ← ResponseBody.decode_eq_iff]
  cases ResponseBody.decode code payload with
  | ok body => exact ⟨nofun, nofun⟩
  | error e' =>
    show (Except.error e' : Except Error Response) = .error e ↔ _
    rw [Except.error.injEq, Except.error.injEq]

/-- If the code is known, what is missing is a field. -/
theorem truncated_of_decode (known : code.number = header.code) {e : Error}
    (refused : decode header payload = .error e) :
    ∃ offset needed available, e = .truncated offset needed available := by
  cases (decode_eq_error_iff known).1 refused with
  | cutOff => exact ⟨_, _, _, rfl⟩
  | withoutId => exact ⟨_, _, _, rfl⟩

/-- Only a response whose code is not known is refused as unknown. -/
theorem decode_eq_unknown_iff {n : UInt16} : decode header payload = .error (.unknownResponse n) ↔
    n = header.code ∧ ∀ code : ResponseCode, code.number ≠ header.code := by
  rcases ResponseCode.number_cases header.code with ⟨code, known⟩ | unknown
  · rw [decode_eq_error_iff known]
    exact ⟨nofun, fun ⟨_, unknown⟩ => absurd known (unknown code)⟩
  · rw [decode_of_unknown unknown, Except.error.injEq, Error.unknownResponse.injEq, eq_comm]
    exact (and_iff_left unknown).symm

section

variable (known : header.code = ResponseCode.fileReceived.number)

include known

/-- The answer to a file is understood if all its fields are there. -/
theorem exists_decode_fileReceived_iff :
    (∃ r, decode header payload = .ok r) ↔ 279 ≤ payload.length := by
  simp only [decode_eq_ok_iff known.symm]
  constructor
  · rintro ⟨r, body, tells, -⟩
    cases tells with
    | checksum full => exact full
    | withKey brings => simp at brings
    | bare plain => simp at plain
  · intro full
    obtain ⟨id, named⟩ := ResponseBody.exists_named payload (by omega)
    exact ⟨_, _, .checksum full named, rfl⟩

/-- Otherwise the first field that is not all there is named. -/
theorem decode_fileReceived_eq_error_iff {e : Error} : decode header payload = .error e ↔
    ∃ offset width, ResponseBody.misfit? payload.length = some (offset, width) ∧
      e = .truncated offset width (payload.length - offset) := by
  rw [decode_eq_error_iff known.symm]
  constructor
  · intro tells
    cases tells with
    | cutOff first => exact ⟨_, _, first, rfl⟩
    | withoutId brings => simp at brings
  · rintro ⟨offset, width, first, rfl⟩
    exact .cutOff first

theorem decode_fileReceived_append (full : 279 ≤ payload.length) (more : Bytes) :
    decode header (payload ++ more) = decode header payload := by
  obtain ⟨outcome, tells⟩ := ResponseBody.exists_tells .fileReceived payload
  rw [decode_of_known known.symm, decode_of_known known.symm, tells.decode_eq,
    (tells.append full more).decode_eq]

end

section

variable (brings : code = .publicKeyReceived ∨ code = .reconnected)
  (known : header.code = code.number)

include brings known

/-- An answer that brings a key is understood if there is an id before the key. -/
theorem exists_decode_key_iff :
    (∃ r, decode header payload = .ok r) ↔ 16 ≤ payload.length := by
  simp only [decode_eq_ok_iff known.symm]
  constructor
  · rintro ⟨r, body, tells, -⟩
    cases tells with
    | checksum => simp at brings
    | withKey _ enough => exact enough
    | bare plain => rcases brings with rfl | rfl <;> simp at plain
  · intro enough
    obtain ⟨id, named⟩ := ResponseBody.exists_named payload enough
    exact ⟨_, _, .withKey brings enough named, rfl⟩

theorem decode_key_eq_error_iff {e : Error} : decode header payload = .error e ↔
    payload.length < 16 ∧ e = .truncated 0 16 payload.length := by
  rw [decode_eq_error_iff known.symm]
  constructor
  · intro tells
    cases tells with
    | cutOff => simp at brings
    | withoutId _ short => exact ⟨short, rfl⟩
  · rintro ⟨short, rfl⟩
    exact .withoutId brings short

/-- The key is all that is behind the id. -/
theorem body_of_decode_key {r : Response} (read : decode header payload = .ok r) :
    ∃ id : ClientId, id.bytes = payload.take 16 ∧ r.body = .withKey id (payload.drop 16) := by
  obtain ⟨body, tells, rfl⟩ := (decode_eq_ok_iff known.symm).1 read
  cases tells with
  | checksum => simp at brings
  | withKey _ _ named => exact ⟨_, named, rfl⟩
  | bare plain => rcases brings with rfl | rfl <;> simp at plain

end

/-- Under the other codes every payload is understood. -/
theorem exists_decode_plain (plain : code ∈ [.registered, .registrationFailed, .messageReceived,
    .reconnectionFailed, .generalIssue]) (known : header.code = code.number) :
    ∃ id : Option ClientId, decode header payload = .ok ⟨header, code, .bare id⟩ ∧
      (id.isSome = true ↔ 16 ≤ payload.length) := by
  obtain ⟨outcome, tells⟩ := ResponseBody.exists_tells code payload
  cases tells with
  | checksum => simp at plain
  | cutOff => simp at plain
  | withKey brings => rcases brings with rfl | rfl <;> simp at plain
  | withoutId brings => rcases brings with rfl | rfl <;> simp at plain
  | bare _ there named =>
    exact ⟨_, (decode_eq_ok_iff known.symm).2 ⟨_, .bare plain there named, rfl⟩, there⟩

/-- What was understood, was told by the payload under the code that the header names. -/
theorem tells_of_decode {r : Response} (read : decode header payload = .ok r) :
    r.code.number = header.code ∧ ResponseBody.Tells payload r.code (.ok r.body) := by
  rcases ResponseCode.number_cases header.code with ⟨code, known⟩ | unknown
  · obtain ⟨body, tells, rfl⟩ := (decode_eq_ok_iff known).1 read
    exact ⟨known, tells⟩
  · rw [decode_of_unknown unknown] at read
    cases read

end

/-! ## What a response carries -/

section

variable {payload : Bytes} {r : Response}

theorem exists_checksum_iff (tells : ResponseBody.Tells payload r.code (.ok r.body)) :
    (∃ sum, r.checksum = .ok sum) ↔ r.code = .fileReceived := by
  obtain ⟨header, code, body⟩ := r
  cases tells with
  | checksum => exact ⟨fun _ => rfl, fun _ => ⟨_, rfl⟩⟩
  | withKey brings =>
    refine ⟨nofun, fun same => ?_⟩
    cases (show code = .fileReceived from same)
    simp at brings
  | bare plain =>
    refine ⟨nofun, fun same => ?_⟩
    cases (show code = .fileReceived from same)
    simp at plain

theorem exists_encryptedKey_iff (tells : ResponseBody.Tells payload r.code (.ok r.body)) :
    (∃ key, r.encryptedKey = .ok key) ↔ r.code = .publicKeyReceived ∨ r.code = .reconnected := by
  obtain ⟨header, code, body⟩ := r
  cases tells with
  | checksum => exact ⟨nofun, nofun⟩
  | withKey brings => exact ⟨fun _ => brings, fun _ => ⟨_, rfl⟩⟩
  | bare plain => exact ⟨nofun, fun brings => by rcases brings with rfl | rfl <;> simp at plain⟩

/-- An id is missing from nothing but a payload that is too short for one. -/
theorem exists_clientId_iff (tells : ResponseBody.Tells payload r.code (.ok r.body)) :
    (∃ id, r.clientId = .ok id) ↔ ¬ ((∃ id, r.body = .bare id) ∧ payload.length < 16) := by
  obtain ⟨header, code, body⟩ := r
  cases tells with
  | checksum full => exact ⟨fun _ ⟨_, short⟩ => by omega, fun _ => ⟨_, rfl⟩⟩
  | withKey _ enough => exact ⟨fun _ ⟨_, short⟩ => by omega, fun _ => ⟨_, rfl⟩⟩
  | @bare _ _ id there =>
    cases id with
    | none => exact ⟨nofun, fun here => absurd ⟨⟨none, rfl⟩, by simpa using there⟩ here⟩
    | some id => exact ⟨fun _ ⟨_, short⟩ => by simp at there; omega, fun _ => ⟨id, rfl⟩⟩

theorem checksum_refused {e : Error} (refused : r.checksum = .error e) :
    e = .notCarried r.code.number "checksum" := by
  unfold checksum at refused
  split at refused
  · cases refused
  · cases refused
    rfl

theorem encryptedKey_refused {e : Error} (refused : r.encryptedKey = .error e) :
    e = .notCarried r.code.number "encrypted key" := by
  unfold encryptedKey at refused
  split at refused
  · cases refused
  · cases refused
    rfl

theorem clientId_refused {e : Error} (refused : r.clientId = .error e) :
    e = .notCarried r.code.number "client id" := by
  unfold clientId at refused
  split at refused
  all_goals cases refused
  rfl

end

end Response

/-! ## Acceptance -/

/-- Which responses are understood. One is refused as unknown if its code is none of those that there
are. The answer to a file needs 279 bytes, of which a refusal names the first field that is not all
there; an answer that brings a key needs the 16 of an id, and all behind them are the key; the others
need nothing and have an id if there are 16 bytes for it. Only the answer to a file carries a
checksum, only those that bring a key carry one, and an id is missing only from a payload that is too
short for it; what is not carried is refused under the code of the response. -/
theorem response_acceptance (header : ResponseHeader) (payload : Bytes) :
    (∀ n, Response.decode header payload = .error (.unknownResponse n) ↔
      n = header.code ∧ ∀ code : ResponseCode, code.number ≠ header.code) ∧
    (header.code = ResponseCode.fileReceived.number →
      ((∃ r, Response.decode header payload = .ok r) ↔ 279 ≤ payload.length) ∧
      (∀ e, Response.decode header payload = .error e ↔ ∃ offset width,
        ResponseBody.misfit? payload.length = some (offset, width) ∧
          e = .truncated offset width (payload.length - offset)) ∧
      (279 ≤ payload.length → ∀ more,
        Response.decode header (payload ++ more) = Response.decode header payload)) ∧
    (∀ code : ResponseCode, code = .publicKeyReceived ∨ code = .reconnected →
      header.code = code.number →
        ((∃ r, Response.decode header payload = .ok r) ↔ 16 ≤ payload.length) ∧
        (∀ e, Response.decode header payload = .error e ↔
          payload.length < 16 ∧ e = .truncated 0 16 payload.length) ∧
        ∀ r, Response.decode header payload = .ok r → ∃ id : ClientId,
          id.bytes = payload.take 16 ∧ r.body = .withKey id (payload.drop 16)) ∧
    (∀ code ∈ [.registered, .registrationFailed, .messageReceived, .reconnectionFailed,
      .generalIssue], header.code = ResponseCode.number code →
        ∃ id : Option ClientId, Response.decode header payload = .ok ⟨header, code, .bare id⟩ ∧
          (id.isSome = true ↔ 16 ≤ payload.length)) ∧
    ∀ r, Response.decode header payload = .ok r →
      r.code.number = header.code ∧
      ((∃ sum, r.checksum = .ok sum) ↔ r.code = .fileReceived) ∧
      ((∃ key, r.encryptedKey = .ok key) ↔ r.code = .publicKeyReceived ∨ r.code = .reconnected) ∧
      ((∃ id, r.clientId = .ok id) ↔
        ¬ ((∃ id, r.body = .bare id) ∧ payload.length < 16)) ∧
      (∀ e, r.checksum = .error e → e = .notCarried r.code.number "checksum") ∧
      (∀ e, r.encryptedKey = .error e → e = .notCarried r.code.number "encrypted key") ∧
      ∀ e, r.clientId = .error e → e = .notCarried r.code.number "client id" := by
  refine ⟨fun _ => Response.decode_eq_unknown_iff, fun known =>
      ⟨Response.exists_decode_fileReceived_iff known,
        fun _ => Response.decode_fileReceived_eq_error_iff known,
        Response.decode_fileReceived_append known⟩,
    fun _ brings known => ⟨Response.exists_decode_key_iff brings known,
      fun _ => Response.decode_key_eq_error_iff brings known,
      fun _ => Response.body_of_decode_key brings known⟩,
    fun _ plain known => Response.exists_decode_plain plain known, ?_⟩
  intro r read
  obtain ⟨known, tells⟩ := Response.tells_of_decode read
  exact ⟨known, Response.exists_checksum_iff tells, Response.exists_encryptedKey_iff tells,
    Response.exists_clientId_iff tells, fun _ => Response.checksum_refused,
    fun _ => Response.encryptedKey_refused, fun _ => Response.clientId_refused⟩

/-- Answers to a file that are cut off within the name, just long enough, and longer; an answer with
a key of two bytes; and one with nothing. -/
theorem response_acceptance_lengths :
    Response.decode ⟨3, 1603, 0⟩ (List.replicate 100 0) = .error (.truncated 20 255 80) ∧
    (∃ r, Response.decode ⟨3, 1603, 0⟩ (List.replicate 279 0) = .ok r ∧
      Response.decode ⟨3, 1603, 0⟩ (List.replicate 279 0 ++ [7]) = .ok r ∧
      ∀ e, r.encryptedKey = .error e → e = .notCarried r.code.number "encrypted key") ∧
    (∃ r id, Response.decode ⟨3, 1605, 0⟩ (List.replicate 16 0 ++ [1, 2]) = .ok r ∧
      r.body = .withKey id [1, 2]) ∧
    ∃ id, Response.decode ⟨3, 1604, 0⟩ [] = .ok ⟨⟨3, 1604, 0⟩, .messageReceived, .bare id⟩ ∧
      (id.isSome = true ↔ 16 ≤ 0) := by
  obtain ⟨-, answered, -⟩ := response_acceptance ⟨3, 1603, 0⟩ (List.replicate 100 0)
  obtain ⟨-, cutOff, -⟩ := answered rfl
  obtain ⟨-, answered, -, -, carried⟩ := response_acceptance ⟨3, 1603, 0⟩ (List.replicate 279 0)
  obtain ⟨full, -, longer⟩ := answered rfl
  have long : 279 ≤ (List.replicate 279 (0 : UInt8)).length := Nat.le_of_eq List.length_replicate.symm
  obtain ⟨r, read⟩ := full.2 long
  obtain ⟨-, -, -, -, -, refused, -⟩ := carried r read
  obtain ⟨-, -, keyed, -⟩ := response_acceptance ⟨3, 1605, 0⟩ (List.replicate 16 0 ++ [1, 2])
  obtain ⟨enough, -, body⟩ := keyed .reconnected (.inr rfl) rfl
  obtain ⟨r', read'⟩ := enough.2 (by decide)
  obtain ⟨id, -, key⟩ := body r' read'
  obtain ⟨-, -, -, bare, -⟩ := response_acceptance ⟨3, 1604, 0⟩ []
  exact ⟨(cutOff _).2 ⟨20, 255, by rw [List.length_replicate]; rfl, by rw [List.length_replicate]⟩,
    ⟨r, read, (longer long [7]).trans read, refused⟩, ⟨r', id, read', key⟩,
    bare .messageReceived (by decide) rfl⟩

end EncryptedBackup
