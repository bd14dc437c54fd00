/-
Hexadecimal digits read back as the bytes they were written for (`decode_encode`), so that no two
byte strings, and no two client ids, are written alike. A text denotes bytes if it is, but for the
case of its letters, what is written for them (`decode_eq_ok_iff`), and any other is refused for the
first thing wrong with it (`decode_eq_error_iff`): it is not an even number of digits.
-/
import EncryptedBackup.ClientId
import EncryptedBackup.Proofs.Text.Utf8

namespace EncryptedBackup

namespace Text.Hex

/-! ## Digits -/

theorem map_value_digit : ∀ v : UInt8, v < 16 →
    (String.utf8EncodeChar (digit v)).map value? = [some v] :=
  forall_byte (by decide +kernel)

/-- A digit is written in one byte, which has its value. -/
theorem exists_value_digit {v : UInt8} (h : v < 16) :
    ∃ x, String.utf8EncodeChar (digit v) = [x] ∧ value? x = some v := by
  have values := map_value_digit v h
  obtain ⟨x, bytes, value⟩ := List.map_eq_singleton_iff.1 values
  exact ⟨x, bytes, value⟩

/-- The halves of a byte are below sixteen and make the byte. -/
theorem halves : ∀ b : UInt8, b >>> 4 < 16 ∧ b &&& 0xF < 16 ∧ (b >>> 4) <<< 4 ||| b &&& 0xF = b :=
  forall_byte (by decide +kernel)

/-! ## Byte strings -/

theorem encode_cons (b : UInt8) (bs : Bytes) :
    Utf8.encode (encode (b :: bs)) = String.utf8EncodeChar (digit (b >>> 4)) ++
      (String.utf8EncodeChar (digit (b &&& 0xF)) ++ Utf8.encode (encode bs)) := by
  simp [Utf8.encode, encode, byteDigits]

/-- There are two digits for each byte. -/
theorem encode_length (bs : Bytes) : (encode bs).toList.length = 2 * bs.length := by
  unfold encode
  rw [String.toList_ofList]
  induction bs with
  | nil => rfl
  | cons b bs ih =>
    rw [List.flatMap_cons, List.length_append, ih, List.length_cons, Nat.mul_succ, Nat.add_comm]
    rfl

theorem decodeFrom_encode (bs : Bytes) (position : Nat) :
    (Utf8.encode (encode bs)).length % 2 = 0 ∧
      decodeFrom position (Utf8.encode (encode bs)) = .ok bs := by
  induction bs generalizing position with
  | nil => exact ⟨rfl, rfl⟩
  | cons b bs ih =>
    obtain ⟨high, low, whole⟩ := halves b
    obtain ⟨hi, wroteHigh, valueHigh⟩ := exists_value_digit high
    obtain ⟨lo, wroteLow, valueLow⟩ := exists_value_digit low
    obtain ⟨even, later⟩ := ih (position + 2)
    rw [encode_cons, wroteHigh, wroteLow, List.singleton_append, List.singleton_append]
    constructor
    · simp only [List.length_cons]
      omega
    · unfold decodeFrom
      rw [valueHigh, valueLow, later]
      exact congrArg (fun b => Except.ok (b :: bs)) whole

theorem decode_encode (bs : Bytes) : decode (encode bs) = .ok bs := by
  obtain ⟨even, read⟩ := decodeFrom_encode bs 0
  unfold decode
  simp only
  rw [if_neg (by omega), read]

/-! ## Only digits are read, in either case -/

/-- A letter of either case as the lower one. -/
def lower (b : UInt8) : UInt8 := if 65 ≤ b ∧ b ≤ 90 then b + 32 else b

theorem lower_of_high : ∀ b : UInt8, 0x80 ≤ b.toNat → lower b = b :=
  forall_byte (by decide +kernel)

theorem value_lower : ∀ b : UInt8, value? (lower b) = value? b :=
  forall_byte (by decide +kernel)

theorem encodeChar_toLower_low : ∀ b : UInt8, b.toNat < 0x80 →
    String.utf8EncodeChar (Char.ofNat b.toNat).toLower = [lower b] :=
  forall_byte (by decide +kernel)

theorem encodeChar_toLower (c : Char) :
    String.utf8EncodeChar c.toLower = (String.utf8EncodeChar c).map lower := by
  rcases Utf8.encodeChar_cases c with ⟨b, low, rfl, bytes⟩ | ⟨wide, high⟩
  · rw [encodeChar_toLower_low b low, bytes, List.map_singleton]
  · have same : c.toLower = c := by
      refine dif_neg fun ⟨_, below⟩ => ?_
      have below : c.toNat ≤ 90 := below
      omega
    rw [same, List.map_congr_left fun b mem => lower_of_high b (high b mem), List.map_id']

theorem toList_toLower (s : String) : s.toLower.toList = s.toList.map Char.toLower :=
  String.toList_map

theorem encode_toLower (s : String) : Utf8.encode s.toLower = (Utf8.encode s).map lower := by
  unfold Utf8.encode
  rw [toList_toLower, List.flatMap_map, List.map_flatMap]
  exact congrArg (s.toList.flatMap ·) (funext encodeChar_toLower)

/-- The digit of a value is the byte that had it. -/
theorem encodeChar_digit_of_value : ∀ b : UInt8, ∀ v ∈ value? b,
    v < 16 ∧ String.utf8EncodeChar (digit v) = [lower b] :=
  forall_byte (by decide +kernel)

theorem halves_of_lt {h l : UInt8} (hh : h < 16) (hl : l < 16) :
    (h <<< 4 ||| l) >>> 4 = h ∧ (h <<< 4 ||| l) &&& 0xF = l := by
  have all : ∀ a b : Fin 16, (UInt8.ofNat a <<< 4 ||| UInt8.ofNat b) >>> 4 = UInt8.ofNat a ∧
    (UInt8.ofNat a <<< 4 ||| UInt8.ofNat b) &&& 0xF = UInt8.ofNat b := by decide +kernel
  simpa using all ⟨h.toNat, hh⟩ ⟨l.toNat, hl⟩

/-- Bytes that are read are, in lower case, the digits of what is read. -/
theorem lower_of_decodeFrom : ∀ (position : Nat) (bs : Bytes) {out : Bytes},
    decodeFrom position bs = .ok out → bs.map lower = Utf8.encode (encode out)
  | _, [], _, read => by
    cases read
    rfl
  | _, [_], _, read => nomatch read
  | position, hi :: lo :: bs, out, read => by
    unfold decodeFrom at read
    split at read
    · cases read
    · cases read
    · rename_i h l valueHigh valueLow
      split at read
      · rename_i rest later
        cases read
        obtain ⟨high, digitHigh⟩ := encodeChar_digit_of_value hi h valueHigh
        obtain ⟨low, digitLow⟩ := encodeChar_digit_of_value lo l valueLow
        obtain ⟨upper, under⟩ := halves_of_lt high low
        rw [encode_cons, upper, under, digitHigh, digitLow,
          ← lower_of_decodeFrom (position + 2) bs later]
        rfl
      · cases read

/-- The case of the letters makes no difference. -/
theorem decodeFrom_of_lower : ∀ (position : Nat) (bs : Bytes) {out : Bytes},
    decodeFrom position (bs.map lower) = .ok out → decodeFrom position bs = .ok out
  | _, [], _, read => read
  | _, [_], _, read => nomatch read
  | position, hi :: lo :: bs, out, read => by
    rw [List.map_cons, List.map_cons] at read
    unfold decodeFrom at read ⊢
    rw [value_lower, value_lower] at read
    split at read
    · cases read
    · cases read
    · rename_i h l valueHigh valueLow
      split at read
      · rename_i rest later
        rw [decodeFrom_of_lower (position + 2) bs later]
        exact read
      · cases read

/-- A text denotes bytes if it is, in lower case, their digits. -/
theorem decode_eq_ok_iff {s : String} {bs : Bytes} :
    decode s = .ok bs ↔ s.toLower = encode bs := by
  unfold decode
  simp only
  constructor
  · intro read
    split at read
    · cases read
    · refine Utf8.eq_of_encode_eq ?_
      rw [encode_toLower]
      exact lower_of_decodeFrom 0 _ read
  · intro digits
    obtain ⟨even, read⟩ := decodeFrom_encode bs 0
    rw [← digits, encode_toLower] at even read
    rw [List.length_map] at even
    rw [if_neg (by omega)]
    exact decodeFrom_of_lower 0 _ read

/-! ## What is not read -/

/-- Bytes that are not read: there is an odd number of them, or else one is the first that is no
digit. -/
inductive Flawed (bs : Bytes) : Defect → Prop where
  | oddLength (odd : bs.length % 2 = 1) : Flawed bs .oddLength
  | badDigit {before behind : Bytes} {b : UInt8} (even : bs.length % 2 = 0)
    (split : bs = before ++ b :: behind) (digits : ∀ x ∈ before, (value? x).isSome = true)
    (bad : value? b = none) : Flawed bs (.badDigit b before.length)

/-- Reading stops at the first byte that is no digit. -/
theorem decodeFrom_of_bad : ∀ (position : Nat) (before : Bytes) {b : UInt8} {behind : Bytes},
    (before ++ b :: behind).length % 2 = 0 → (∀ x ∈ before, (value? x).isSome = true) →
      value? b = none →
        decodeFrom position (before ++ b :: behind) = .error (.badDigit b (position + before.length))
  | position, [], b, [], even, _, _ => nomatch even
  | position, [], b, c :: behind, _, _, bad => by
    rw [List.nil_append, decodeFrom, bad]
    rfl
  | position, [x], b, behind, _, digits, bad => by
    obtain ⟨v, value⟩ := Option.isSome_iff_exists.1 (digits x List.mem_cons_self)
    rw [List.singleton_append, decodeFrom, value, bad]
    rfl
  | position, x :: y :: before, b, behind, even, digits, bad => by
    obtain ⟨v, value⟩ := Option.isSome_iff_exists.1 (digits x (by simp))
    obtain ⟨w, value'⟩ := Option.isSome_iff_exists.1 (digits y (by simp))
    rw [List.cons_append, List.cons_append, List.length_cons, List.length_cons] at even
    rw [List.cons_append, List.cons_append, decodeFrom, value, value',
      decodeFrom_of_bad (position + 2) before (by omega) (fun z mem => digits z (by simp [mem])) bad,
      List.length_cons, List.length_cons, Nat.add_assoc, Nat.add_comm 2]

/-- Digits are read, two for each byte. -/
theorem exists_decodeFrom : ∀ (position : Nat) (bs : Bytes), bs.length % 2 = 0 →
    (∀ x ∈ bs, (value? x).isSome = true) → ∃ out, decodeFrom position bs = .ok out
  | _, [], _, _ => ⟨[], rfl⟩
  | _, [x], odd, _ => nomatch odd
  | position, x :: y :: bs, even, digits => by
    obtain ⟨v, value⟩ := Option.isSome_iff_exists.1 (digits x (by simp))
    obtain ⟨w, value'⟩ := Option.isSome_iff_exists.1 (digits y (by simp))
    simp only [List.length_cons] at even
    obtain ⟨out, later⟩ := exists_decodeFrom (position + 2) bs (by omega)
      fun z mem => digits z (by simp [mem])
    exact ⟨_, by rw [decodeFrom, value, value', later]⟩

theorem Flawed.decode_eq {s : String} {d : Defect} (flawed : Flawed (Utf8.encode s) d) :
    decode s = .error d := by
  unfold decode
  simp only
  cases flawed with
  | oddLength odd => rw [if_pos odd]
  | @badDigit before behind b even split digits bad =>
    rw [split] at even
    rw [split, if_neg (by omega), decodeFrom_of_bad 0 before even digits bad, Nat.zero_add]

/-- Bytes are flawed if they are not an even number of digits. -/
theorem exists_flawed_iff {bs : Bytes} : (∃ d, Flawed bs d) ↔
    ¬ (bs.length % 2 = 0 ∧ ∀ b ∈ bs, (value? b).isSome = true) := by
  constructor
  · rintro ⟨d, flawed⟩ ⟨even, digits⟩
    cases flawed with
    | oddLength odd => omega
    | badDigit _ split _ bad =>
      have value := digits _ (split ▸ List.mem_append_right _ List.mem_cons_self)
      rw [bad] at value
      cases value
  · intro other
    rcases Nat.mod_two_eq_zero_or_one bs.length with even | odd
    · have bad : ¬ ∀ b ∈ bs, (value? b).isSome = true := fun digits => other ⟨even, digits⟩
      cases first : bs.find? fun b => (value? b).isNone with
      | none =>
        refine absurd (fun b mem => Option.isSome_iff_ne_none.2 ?_) bad
        simpa using List.find?_eq_none.1 first b mem
      | some b =>
        obtain ⟨none, before, behind, split, digits⟩ := List.find?_eq_some_iff_append.1 first
        exact ⟨_, .badDigit even split (by simpa using digits) (by simpa using none)⟩
    · exact ⟨_, .oddLength odd⟩

theorem decode_eq_error_iff {s : String} {d : Defect} :
    decode s = .error d ↔ Flawed (Utf8.encode s) d := by
  refine ⟨fun refused => ?_, Flawed.decode_eq⟩
  by_cases flawed : ∃ d, Flawed (Utf8.encode s) d
  · obtain ⟨d', flawed⟩ := flawed
    cases refused.symm.trans flawed.decode_eq
    exact flawed
  · obtain ⟨even, digits⟩ := Classical.not_not.1 (mt exists_flawed_iff.2 flawed)
    obtain ⟨out, read⟩ := exists_decodeFrom 0 _ even digits
    unfold decode at refused
    simp only at refused
    rw [if_neg (by omega), read] at refused
    cases refused

/-! ## Digits as characters -/

/-- A hexadecimal digit of either case. -/
def IsDigit (c : Char) : Prop :=
  '0' ≤ c ∧ c ≤ '9' ∨ 'A' ≤ c ∧ c ≤ 'F' ∨ 'a' ≤ c ∧ c ≤ 'f'

instance (c : Char) : Decidable (IsDigit c) :=
  inferInstanceAs (Decidable (_ ∨ _))

theorem isDigit_iff_of_low : ∀ b : UInt8, b.toNat < 0x80 →
    (IsDigit (Char.ofNat b.toNat) ↔ (value? b).isSome = true) :=
  forall_byte (by decide +kernel)

theorem value_of_high : ∀ b : UInt8, 0x80 ≤ b.toNat → value? b = none :=
  forall_byte (by decide +kernel)

theorem toNat_lt_of_isDigit {c : Char} (digit : IsDigit c) : c.toNat < 0x80 := by
  have upper : c.toNat ≤ 57 ∨ c.toNat ≤ 70 ∨ c.toNat ≤ 102 :=
    digit.imp And.right (Or.imp And.right And.right)
  omega

theorem isDigit_iff (c : Char) :
    IsDigit c ↔ ∀ b ∈ String.utf8EncodeChar c, (value? b).isSome = true := by
  rcases Utf8.encodeChar_cases c with ⟨b, low, rfl, bytes⟩ | ⟨wide, high⟩
  · rw [isDigit_iff_of_low b low, bytes, List.forall_mem_singleton]
  · refine iff_of_false (fun digit => ?_) fun values => ?_
    · exact absurd (toNat_lt_of_isDigit digit) (Nat.not_lt.2 wide)
    · obtain ⟨b, mem⟩ := List.exists_mem_of_ne_nil _ (@String.utf8EncodeChar_ne_nil c)
      have value := values b mem
      rw [value_of_high b (high b mem)] at value
      cases value

theorem isDigit_toList_iff {s : String} : (∀ c ∈ s.toList, IsDigit c) ↔
    ∀ b ∈ Utf8.encode s, (value? b).isSome = true := by
  unfold Utf8.encode
  simp only [List.mem_flatMap, isDigit_iff]
  exact ⟨fun digits b ⟨c, mem, there⟩ => digits c mem b there,
    fun values c mem b there => values b ⟨c, mem, there⟩⟩

/-- Digits have one byte each. -/
theorem length_encode_of_digits {s : String} (digits : ∀ c ∈ s.toList, IsDigit c) :
    (Utf8.encode s).length = s.toList.length := by
  have one : ∀ c ∈ s.toList, (String.utf8EncodeChar c).length = 1 := by
    intro c mem
    rcases Utf8.encodeChar_cases c with ⟨b, -, -, bytes⟩ | ⟨wide, -⟩
    · rw [bytes, List.length_singleton]
    · exact absurd (toNat_lt_of_isDigit (digits c mem)) (Nat.not_lt.2 wide)
  unfold Utf8.encode
  rw [List.length_flatMap, List.map_congr_left one, List.map_const', List.sum_replicate_nat,
    Nat.mul_one]

/-- A text is flawed if it is not an even number of digits. -/
theorem exists_decode_error_iff {s : String} : (∃ d, decode s = .error d) ↔
    ¬ ((∀ c ∈ s.toList, IsDigit c) ∧ s.toList.length % 2 = 0) := by
  simp only [decode_eq_error_iff, exists_flawed_iff, ← isDigit_toList_iff]
  refine not_congr ?_
  rw [and_comm]
  refine and_congr_right fun digits => ?_
  rw [length_encode_of_digits digits]

/-- A text that denotes bytes has two digits for each. -/
theorem length_of_decode {s : String} {bs : Bytes} (read : decode s = .ok bs) :
    s.toList.length = 2 * bs.length := by
  have digits := congrArg (fun t => t.toList.length) (decode_eq_ok_iff.1 read)
  simpa only [encode_length, toList_toLower, List.length_map] using digits

/-- An even number of digits denotes bytes. -/
theorem exists_decode_iff {s : String} {n : Nat} : (∃ bs, decode s = .ok bs ∧ bs.length = n) ↔
    (∀ c ∈ s.toList, IsDigit c) ∧ s.toList.length = 2 * n := by
  have refused := exists_decode_error_iff (s := s)
  constructor
  · rintro ⟨bs, read, rfl⟩
    have fine : ¬ ∃ d, decode s = .error d := by
      rw [read]
      exact nofun
    obtain ⟨digits, -⟩ := Classical.not_not.1 (mt refused.2 fine)
    exact ⟨digits, length_of_decode read⟩
  · rintro ⟨digits, length⟩
    cases read : decode s with
    | error d => exact absurd ⟨digits, by omega⟩ (refused.1 ⟨d, read⟩)
    | ok bs =>
      have twice := length_of_decode read
      exact ⟨bs, rfl, by omega⟩

end Text.Hex

/-! ## Client ids -/

namespace ClientId

theorem text_length (id : ClientId) : id.text.toList.length = 32 := by
  unfold text
  rw [Text.Hex.encode_length, id.length_eq]

theorem eq_of_text_eq {a b : ClientId} (h : a.text = b.text) : a = b := by
  have bytes : Except.ok a.bytes = (Except.ok b.bytes : Except Text.Hex.Defect Bytes) := by
    rw [← Text.Hex.decode_encode, ← Text.Hex.decode_encode]
    exact congrArg Text.Hex.decode h
  cases a
  cases b
  cases bytes
  rfl

end ClientId

end EncryptedBackup
