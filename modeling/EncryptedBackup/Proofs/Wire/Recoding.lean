/-
What is left of a body that is written again. The name in the answer to a file is read leniently, and
a defect of one byte becomes a character of three; so a name from a field of 255 bytes may be longer
than its field. What is written then is the name cut to the field (`decode_encode_of_decode`). The
body lasts if its name fits, or overruns only with a last replacement (`recoding_iff`), as it does if
the field is UTF-8; and once written again it does not change any more.
-/
import EncryptedBackup.Proofs.Text.Cut
import EncryptedBackup.Proofs.Wire.Payloads

namespace EncryptedBackup

open Wire

/-! ## Cut names -/

namespace Field

/-- A name without a NUL is read back from its field as far as the field holds it. -/
theorem nameText_padded_cut {width : Nat} {name : String} (clean : 0 ∉ Utf8.encode name) :
    nameText (padded width (Utf8.encode name)) = Utf8.cut width name := by
  have opens : Opens ((Utf8.encode name).take width)
      (List.replicate (width - (Utf8.encode name).length) 0) := by
    refine ⟨fun nul => clean (List.mem_of_mem_take nul), fun b first => ?_⟩
    exact List.eq_of_mem_replicate (List.mem_of_mem_head? first)
  exact nameText_of_opens opens

/-- No name that was read has a NUL. -/
theorem zero_notMem_encode_nameText (field : Bytes) : 0 ∉ Utf8.encode (nameText field) := by
  obtain ⟨piece, rest, rfl, opens⟩ := exists_opens field
  rw [nameText_of_opens opens]
  exact Utf8.zero_notMem_encode_lossy opens.clean

end Field

/-! ## Bodies that are written again -/

namespace ResponseBody

/-- A body with its name cut to the width of the field. -/
def cut : ResponseBody → ResponseBody
  | .checksum id size name sum => .checksum id size (Utf8.cut nameWidth name) sum
  | body => body

/-- A body is kept whole when it is written: its name fits the field, or overruns it with nothing but
a last replacement that begins there. -/
def Lasting : ResponseBody → Prop
  | .checksum _ _ name _ => (Utf8.encode name).length ≤ nameWidth ∨
    ∃ front : String, name = front.push Utf8.replacement ∧ (Utf8.encode front).length < nameWidth
  | _ => True

theorem cut_eq_self_iff {body : ResponseBody} : body.cut = body ↔ body.Lasting := by
  cases body with
  | bare => exact iff_of_true rfl trivial
  | withKey => exact iff_of_true rfl trivial
  | checksum id size name sum =>
    refine Iff.trans ?_ Utf8.cut_eq_self_iff
    exact ⟨fun same => (ResponseBody.checksum.inj same).2.2.1, fun same => by rw [cut, same]⟩

theorem cut_cut (body : ResponseBody) : body.cut.cut = body.cut := by
  cases body with
  | bare => rfl
  | withKey => rfl
  | checksum id size name sum => rw [cut, cut, Utf8.cut_cut]

section

variable {code : ResponseCode} {payload : Bytes} {body : ResponseBody}

/-- A body that was read is written with its name cut. -/
theorem decode_encode_of_decode (read : decode code payload = .ok body) :
    decode code body.encode = .ok body.cut := by
  cases decode_eq_iff.1 read with
  | checksum =>
    rw [encode, decode_layout _ _ _ (Field.padded_length ..),
      Field.nameText_padded_cut (Field.zero_notMem_encode_nameText _)]
    rfl
  | withKey brings => exact decode_withKey brings _ _
  | bare plain => exact decode_bare plain _

/-- A body that was read lasts if the bytes of its name are UTF-8. -/
theorem lasting_of_utf8 (read : decode .fileReceived payload = .ok body) {name : String}
    (text : Utf8.decode? (((payload.drop 20).take nameWidth).takeWhile (· ≠ 0)) = some name) :
    body.Lasting := by
  cases decode_eq_iff.1 read with
  | checksum =>
    have bytes := Utf8.decode?_eq_some_iff.1 text
    have whole : Field.nameText ((payload.drop 20).take nameWidth) = name := by
      unfold Field.nameText
      rw [bytes, Utf8.lossy_encode]
    refine .inl ?_
    rw [show (255 : Nat) = nameWidth from rfl, whole, ← bytes]
    exact Nat.le_trans (List.takeWhile_prefix _).length_le (List.length_take_le ..)
  | withKey brings => simp at brings
  | bare plain => simp at plain

end

end ResponseBody

/-! ## Names of letters with a stray byte -/

/-- The field of such a name, with NULs behind it. -/
def strayField (m n nuls : Nat) : Bytes :=
  List.replicate m 0x61 ++ 0xFF :: List.replicate n 0x61 ++ List.replicate nuls 0

/-- The name that is read. -/
def strayName (m n : Nat) : String :=
  String.ofList (List.replicate m 'a' ++ Utf8.replacement :: List.replicate n 'a')

/-- The answer to a file of such a name. -/
def strayAnswer (m n nuls : Nat) : Bytes :=
  ClientId.unset.bytes ++ (Field.ofLong 11 ++ (strayField m n nuls ++ Field.ofLong 7))

section

variable {m n nuls : Nat}

theorem encode_letters (n : Nat) :
    (List.replicate n 'a').flatMap String.utf8EncodeChar = List.replicate n 0x61 := by
  have one : String.utf8EncodeChar 'a' = [0x61] := by decide
  rw [List.flatMap_replicate, one, List.flatten_replicate_singleton]

theorem nameText_strayField : Field.nameText (strayField m n nuls) = strayName m n := by
  have opens : Field.Opens (List.replicate m 0x61 ++ 0xFF :: List.replicate n 0x61)
      (List.replicate nuls 0) :=
    ⟨by simp, fun b first => List.eq_of_mem_replicate (List.mem_of_mem_head? first)⟩
  have read := Utf8.lossy_stray (b := 0xFF) rfl (List.replicate m 'a') (List.replicate n 'a')
  rw [encode_letters, encode_letters] at read
  exact (Field.nameText_of_opens opens).trans read

theorem decode_strayAnswer (wide : m + (n + 1) + nuls = nameWidth) :
    ResponseBody.decode .fileReceived (strayAnswer m n nuls) =
      .ok (.checksum .unset 11 (strayName m n) 7) := by
  rw [strayAnswer, ResponseBody.decode_layout _ _ _ (by simp [strayField]; omega),
    nameText_strayField]

theorem strayName_zero (m : Nat) :
    strayName m 0 = (String.ofList (List.replicate m 'a')).push Utf8.replacement := by
  rw [← String.toList_inj]
  simp [strayName]

theorem strayName_succ (m n : Nat) : strayName m (n + 1) = (strayName m n).push 'a' := by
  rw [← String.toList_inj]
  simp [strayName, List.replicate_succ']

theorem length_encode_letters (m : Nat) :
    (Utf8.encode (String.ofList (List.replicate m 'a'))).length = m := by
  unfold Utf8.encode
  rw [String.toList_ofList, encode_letters, List.length_replicate]

theorem length_encode_strayName (m n : Nat) :
    (Utf8.encode (strayName m n)).length = m + 3 + n := by
  have three : (String.utf8EncodeChar Utf8.replacement).length = 3 := by decide
  have one : (String.utf8EncodeChar 'a').length = 1 := by decide
  induction n with
  | zero => rw [strayName_zero, Utf8.encode_push, List.length_append, length_encode_letters, three]
  | succ n ih =>
    rw [strayName_succ, Utf8.encode_push, List.length_append, ih, one]
    rfl

/-- Such a name lasts if there is room for all of it, or if the stray byte is its last. -/
theorem lasting_strayName_iff (id : ClientId) (size sum : UInt32) :
    (ResponseBody.checksum id size (strayName m n) sum).Lasting ↔
      m + 3 + n ≤ nameWidth ∨ n = 0 ∧ m < nameWidth := by
  refine or_congr (by rw [length_encode_strayName]) ?_
  cases n with
  | zero =>
    rw [strayName_zero]
    constructor
    · rintro ⟨front, last, room⟩
      obtain ⟨rfl, -⟩ := String.push_inj.1 last
      exact ⟨rfl, by rwa [length_encode_letters] at room⟩
    · rintro ⟨-, room⟩
      exact ⟨_, rfl, by rwa [length_encode_letters]⟩
  | succ n =>
    rw [strayName_succ]
    refine ⟨fun ⟨front, last, _⟩ => ?_, nofun⟩
    obtain ⟨-, letter⟩ := String.push_inj.1 last
    exact absurd letter (by decide)

end

/-! ## What changes -/

/-- Whether a body lasts. One that was read, written and read again is the same but for its name,
which is cut to the field; it is the same altogether if it is `Lasting`, as it is if its name was
UTF-8; and it is the same from then on. -/
theorem recoding_iff {code : ResponseCode} {payload : Bytes} {body : ResponseBody}
    (read : ResponseBody.decode code payload = .ok body) :
    ResponseBody.decode code body.encode = .ok body.cut ∧
    (ResponseBody.decode code body.encode = .ok body ↔ body.Lasting) ∧
    (code = .fileReceived → (∃ name, Utf8.decode?
      (((payload.drop 20).take nameWidth).takeWhile (· ≠ 0)) = some name) → body.Lasting) ∧
    ResponseBody.decode code body.cut.encode = .ok body.cut := by
  have again := ResponseBody.decode_encode_of_decode read
  refine ⟨again, ?_, ?_, ?_⟩
  · rw [again, Except.ok.injEq]
    exact ResponseBody.cut_eq_self_iff
  · rintro rfl ⟨name, text⟩
    exact ResponseBody.lasting_of_utf8 read text
  · have twice := ResponseBody.decode_encode_of_decode again
    rwa [ResponseBody.cut_cut] at twice

/-- A name of letters with a stray byte behind them fills its field, and lasts. -/
theorem recoding_iff_stray : ∃ body,
    ResponseBody.decode .fileReceived (strayAnswer 254 0 0) = .ok body ∧
    ResponseBody.decode .fileReceived body.encode = .ok body := by
  have read : ResponseBody.decode .fileReceived (strayAnswer 254 0 0) = _ := decode_strayAnswer rfl
  obtain ⟨-, same, -⟩ := recoding_iff read
  exact ⟨_, read, same.2 ((lasting_strayName_iff ..).2 (.inr (by decide)))⟩

/-- A stray byte before the letters takes room that the last of them had. -/
theorem recoding_broken : ∃ body,
    ResponseBody.decode .fileReceived (strayAnswer 0 253 1) = .ok body ∧
    ResponseBody.decode .fileReceived body.encode ≠ .ok body := by
  have read : ResponseBody.decode .fileReceived (strayAnswer 0 253 1) = _ := decode_strayAnswer rfl
  refine ⟨_, read, fun same => ?_⟩
  rw [ResponseBody.decode_encode_of_decode read, Except.ok.injEq, ResponseBody.cut_eq_self_iff,
    lasting_strayName_iff] at same
  revert same
  decide

end EncryptedBackup
