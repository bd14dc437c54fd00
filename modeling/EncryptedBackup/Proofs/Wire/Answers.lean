/-
Responses on the line: what the server encodes is what a client hears (`hear_framed`), and
whether a response carries a checksum follows from its code (`checksum_of_decode`).
-/
import EncryptedBackup.Proofs.Wire.Responses
import EncryptedBackup.Proofs.World.Reading
import EncryptedBackup.World.Archive

namespace EncryptedBackup

open Wire

namespace Response

/-! ## What a response carries -/

/-- A response carries a checksum if its code says so, and otherwise names its code in refusing. -/
theorem checksum_of_decode {header : ResponseHeader} {payload : Bytes} {r : Response}
    (h : decode header payload = .ok r) :
    (r.code = .fileReceived ∧ ∃ sum, r.checksum = .ok sum) ∨
      (r.code ≠ .fileReceived ∧ r.checksum = .error (.notCarried r.code.number "checksum")) := by
  obtain ⟨-, tells⟩ := tells_of_decode h
  by_cases received : r.code = .fileReceived
  · exact .inl ⟨received, (exists_checksum_iff tells).2 received⟩
  · cases carried : r.checksum with
    | ok sum => exact absurd ((exists_checksum_iff tells).1 ⟨sum, carried⟩) received
    | error e => exact .inr ⟨received, congrArg _ (checksum_refused carried)⟩

/-! ## Understanding what was encoded -/

/-- The response with this body, as the server frames it. -/
def framed (code : ResponseCode) (body : ResponseBody) : Response :=
  ⟨⟨version, code.number, .ofNat body.encode.length⟩, code, body⟩

/-- A body is small enough for a client and is read back under a code. -/
structure Carries (code : ResponseCode) (body : ResponseBody) : Prop where
  small : body.encode.length ≤ maxPayload
  decoded : ResponseBody.decode code body.encode = .ok body

theorem carries_bare_none : Carries .messageReceived (.bare none) := ⟨by decide, rfl⟩

theorem carries_id (id : ClientId) : Carries .registered (.bare (some id)) := by
  refine ⟨?_, ResponseBody.decode_bare (by decide) (some id)⟩
  simp [ResponseBody.encode, id.length_eq, maxPayload]

theorem carries_key {code : ResponseCode} (brings : code = .publicKeyReceived ∨ code = .reconnected)
    (id : ClientId) {key : Bytes} (small : ClientId.length + key.length ≤ maxPayload) :
    Carries code (.withKey id key) := by
  refine ⟨?_, ResponseBody.decode_withKey brings id key⟩
  simpa [ResponseBody.encode, id.length_eq, ClientId.length] using small

theorem carries_checksum (id : ClientId) (size sum : UInt32) {name : String}
    (short : (Utf8.encode name).length < nameWidth) (clean : 0 ∉ Utf8.encode name) :
    Carries .fileReceived (.checksum id size name sum) := by
  refine ⟨?_, ResponseBody.decode_checksum id size sum (Nat.le_of_lt short) clean⟩
  rw [ResponseBody.length_checksum]
  decide

end Response

/-- A body that a client can take is encoded. -/
theorem Archive.say_eq {code : ResponseCode} {body : ResponseBody}
    (carries : Response.Carries code body) :
    say code body = (Response.framed code body).header.encode ++ body.encode := by
  have small : body.encode.length ≤ Wire.maxPayload :=
    Nat.le_trans carries.small (by decide)
  unfold say Response.encode
  rw [if_pos small]
  rfl

namespace Line

variable {σ : Type}

/-- A client hears what the server said. -/
theorem hear_framed {l : Line σ} {code : ResponseCode} {body : ResponseBody} (rest : Bytes)
    (connected : l.isOpen = true) (carries : Response.Carries code body)
    (waits : l.arriving = (Response.framed code body).header.encode ++ body.encode ++ rest) :
    l.hear = (.ok (Response.framed code body), { l with arriving := rest }) := by
  have understood : Answer.understood ⟨version, code, body⟩ = .ok (Response.framed code body) := by
    unfold Answer.understood Response.decode Answer.header
    simp only [ResponseCode.ofNumber_number, carries.decoded, bind, Except.bind]
    rfl
  rw [hear_answer (a := ⟨version, code, body⟩) rest connected carries.small waits, understood]

/-- On a quiet line the next response is what the server says to the next frame. -/
theorem hear_said {l : Line Archive} {f : Frame} {code : ResponseCode} {body : ResponseBody}
    {a : Archive} (connected : l.isOpen = true) (quiet : l.arriving = [])
    (carries : Response.Carries code body) (answered : l.server.answer f = (Archive.say code body, a)) :
    (l.give f).hear = (.ok (Response.framed code body), { l.give f with arriving := [] }) ∧
      (l.give f).server = a := by
  have waits : (l.give f).arriving = Archive.say code body := by
    rw [give_arriving, quiet, List.nil_append]
    exact congrArg Prod.fst answered
  refine ⟨hear_framed (l := l.give f) [] connected carries ?_, congrArg Prod.snd answered⟩
  rw [waits, Archive.say_eq carries, List.append_nil]

/-- A response that was understood holds what its code says. -/
theorem hear_ok {l : Line σ} {r : Response} (h : l.hear.1 = .ok r) :
    ∃ header payload, Response.decode header payload = .ok r := by
  unfold hear at h
  split at h
  · cases h
  split at h
  · cases h
  split at h
  · cases h
  simp only at h
  split at h
  · cases h
  split at h
  · cases h
  · exact ⟨_, _, h⟩

end Line

end EncryptedBackup
