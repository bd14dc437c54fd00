/-
Client ids as text. A text denotes the one id that is written like it, but for white space around it
and the case of its letters; any other is refused, for its digits or for their number, and which of
the two follows from the text alone (`client_ids_as_text`).
-/
import EncryptedBackup.Proofs.Text.Lines

namespace EncryptedBackup

namespace ClientId

/-! ## What becomes of a text -/

section

variable {text : String}

theorem ofText_of_refused {d : Text.Hex.Defect}
    (refused : Text.Hex.decode (Text.trim text) = .error d) :
    ofText text = .error (.badHex text d) := by
  unfold ofText
  rw [refused]

theorem ofText_of_read {id : ClientId} (read : Text.Hex.decode (Text.trim text) = .ok id.bytes) :
    ofText text = .ok id := by
  unfold ofText
  rw [read]
  exact dif_pos id.length_eq

theorem ofText_of_other {bs : Bytes} (read : Text.Hex.decode (Text.trim text) = .ok bs)
    (other : bs.length ≠ 16) : ofText text = .error (.wrongLength bs.length) := by
  unfold ofText
  rw [read]
  exact dif_neg other

/-- A text is no byte string, the bytes of an id, or other bytes. -/
theorem decode_cases (text : String) :
    (∃ d, Text.Hex.decode (Text.trim text) = .error d) ∨
    (∃ id : ClientId, Text.Hex.decode (Text.trim text) = .ok id.bytes) ∨
    ∃ bs, Text.Hex.decode (Text.trim text) = .ok bs ∧ bs.length ≠ 16 := by
  cases Text.Hex.decode (Text.trim text) with
  | error d => exact .inl ⟨d, rfl⟩
  | ok bs =>
    by_cases sixteen : bs.length = 16
    · exact .inr (.inl ⟨⟨bs, sixteen⟩, rfl⟩)
    · exact .inr (.inr ⟨bs, rfl, sixteen⟩)

/-- A text denotes the id that is written like it. -/
theorem ofText_eq_ok_iff {id : ClientId} :
    ofText text = .ok id ↔ (Text.trim text).toLower = id.text := by
  rw [ClientId.text, ← Text.Hex.decode_eq_ok_iff]
  refine ⟨fun denoted => ?_, ofText_of_read⟩
  obtain ⟨d, refused⟩ | ⟨id', read⟩ | ⟨bs, read, other⟩ := decode_cases text
  · cases (ofText_of_refused refused).symm.trans denoted
  · cases (ofText_of_read read).symm.trans denoted
    exact read
  · cases (ofText_of_other read other).symm.trans denoted

theorem ofText_eq_wrongLength_iff {n : Nat} : ofText text = .error (.wrongLength n) ↔
    (∃ bs, Text.Hex.decode (Text.trim text) = .ok bs ∧ bs.length = n) ∧ n ≠ 16 := by
  constructor
  · intro long
    obtain ⟨d, refused⟩ | ⟨id, read⟩ | ⟨bs, read, other⟩ := decode_cases text
    · cases (ofText_of_refused refused).symm.trans long
    · cases (ofText_of_read read).symm.trans long
    · cases (ofText_of_other read other).symm.trans long
      exact ⟨⟨bs, read, rfl⟩, other⟩
  · rintro ⟨⟨bs, read, rfl⟩, other⟩
    exact ofText_of_other read other

theorem ofText_eq_badHex_iff {shown : String} {d : Text.Hex.Defect} :
    ofText text = .error (.badHex shown d) ↔
      shown = text ∧ Text.Hex.decode (Text.trim text) = .error d := by
  constructor
  · intro bad
    obtain ⟨d, refused⟩ | ⟨id, read⟩ | ⟨bs, read, other⟩ := decode_cases text
    · cases (ofText_of_refused refused).symm.trans bad
      exact ⟨rfl, refused⟩
    · cases (ofText_of_read read).symm.trans bad
    · cases (ofText_of_other read other).symm.trans bad
  · rintro ⟨rfl, refused⟩
    exact ofText_of_refused refused

end

end ClientId

/-! ## Ids and their texts -/

/-- Client ids as text. A text denotes an id if, without the white space around it and in lower case,
it is what is written for the id. It is refused for its length if it is an even number of digits that
are not those of sixteen bytes, and for its digits if it is no even number of digits; then the text
is shown, with the first thing wrong: an odd number of bytes, or the first byte that is no digit and
where it stands. So an id is read back from its text, no two ids have the same, and no text denotes
two. -/
theorem client_ids_as_text :
    (∀ (text : String) (id : ClientId),
      ClientId.ofText text = .ok id ↔ (Text.trim text).toLower = id.text) ∧
    (∀ (text : String) (n : Nat), ClientId.ofText text = .error (.wrongLength n) ↔
      (∀ c ∈ (Text.trim text).toList, Text.Hex.IsDigit c) ∧
        (Text.trim text).toList.length = 2 * n ∧ n ≠ 16) ∧
    (∀ text : String, (∃ shown d, ClientId.ofText text = .error (.badHex shown d)) ↔
      ¬ ((∀ c ∈ (Text.trim text).toList, Text.Hex.IsDigit c) ∧
        (Text.trim text).toList.length % 2 = 0)) ∧
    (∀ (text shown : String) (d : Text.Hex.Defect),
      ClientId.ofText text = .error (.badHex shown d) ↔
        shown = text ∧ Text.Hex.Flawed (Utf8.encode (Text.trim text)) d) ∧
    (∀ defect : ClientIdDefect,
      (Error.setup (.clientId defect)).message = "Config error: " ++ defect.message) ∧
    (∀ id : ClientId, ClientId.ofText id.text = .ok id) ∧
    (∀ a b : ClientId, a.text = b.text → a = b) ∧
    ∀ (text : String) (a b : ClientId), (Text.trim text).toLower = a.text →
      (Text.trim text).toLower = b.text → a = b := by
  refine ⟨fun _ _ => ClientId.ofText_eq_ok_iff, fun text n => ?_, fun text => ?_,
    fun text shown d => ?_, fun _ => rfl, ClientId.ofText_text, fun _ _ => ClientId.eq_of_text_eq,
    fun _ _ _ first second => ClientId.eq_of_text_eq (first.symm.trans second)⟩
  · rw [ClientId.ofText_eq_wrongLength_iff, Text.Hex.exists_decode_iff, and_assoc]
  · simp only [ClientId.ofText_eq_badHex_iff, exists_and_left, exists_eq_left]
    exact Text.Hex.exists_decode_error_iff
  · rw [ClientId.ofText_eq_badHex_iff, Text.Hex.decode_eq_error_iff]

/-- An id in capitals between wide spaces, a text of two bytes, and one whose only character is no
digit but has two. -/
theorem client_ids_as_text_wide :
    (∃ id : ClientId, ClientId.ofText "\u20032A2B2C2D2E2F303132333435363738AF\u3000" = .ok id ∧
      id.text = "2a2b2c2d2e2f303132333435363738af" ∧ ClientId.ofText id.text = .ok id ∧
      ∀ other : ClientId, other.text = "2a2b2c2d2e2f303132333435363738af" → other = id) ∧
    ClientId.ofText " 0a0B" = .error (.wrongLength 2) ∧
    ClientId.ofText "é" = .error (.badHex "é" (.badDigit 0xC3 0)) := by
  obtain ⟨denotes, long, -, bad, -, back, -, unique⟩ := client_ids_as_text
  let id : ClientId := ⟨[0x2A, 0x2B, 0x2C, 0x2D, 0x2E, 0x2F, 0x30, 0x31, 0x32, 0x33, 0x34, 0x35,
    0x36, 0x37, 0x38, 0xAF], rfl⟩
  have same :
      (Text.trim "\u20032A2B2C2D2E2F303132333435363738AF\u3000").toLower = id.text := by
    rw [← String.toList_inj, Text.Hex.toList_toLower]
    decide
  have written : id.text = "2a2b2c2d2e2f303132333435363738af" := by decide
  have digits : ∀ c ∈ (Text.trim " 0a0B").toList, Text.Hex.IsDigit c := by
    rw [show (Text.trim " 0a0B").toList = ['0', 'a', '0', 'B'] by decide]
    intro c mem
    simp only [List.mem_cons, List.not_mem_nil, or_false] at mem
    rcases mem with rfl | rfl | rfl | rfl
    all_goals decide
  refine ⟨⟨id, (denotes _ _).2 same, written, back id, fun other text => ?_⟩,
    (long _ _).2 ⟨digits, by decide⟩, (bad _ _ _).2 ⟨rfl, ?_⟩⟩
  · exact unique _ other id (same.trans (written.trans text.symm)) same
  · exact @Text.Hex.Flawed.badDigit _ [] [0xA9] 0xC3 (by decide) (by decide) nofun (by decide)

end EncryptedBackup
