/-
Texts of which only so many bytes are kept. A scan keeps what it has read (`foldl_feed_read`), so the
start of a character is one defect (`scan_take`), and cutting a text leaves its characters as far as
they fit, with a replacement for one that is cut apart (`cut_cases`). A text is not changed if it
fits, or if its last character is such a replacement (`cut_eq_self_iff`); so cutting it again changes
nothing.
-/
import EncryptedBackup.Proofs.Text.Utf8

namespace EncryptedBackup.Utf8

/-! ## What was read before makes no difference -/

theorem start_read (read : List (Option Char)) (b : UInt8) : Scan.start read b =
    ⟨(Scan.start [] b).begun, (Scan.start [] b).read ++ read⟩ := by
  unfold Scan.start
  repeat' split
  all_goals rfl

theorem feed_read (begun : Option Begun) (read : List (Option Char)) (b : UInt8) :
    Scan.feed ⟨begun, read⟩ b =
      ⟨(Scan.feed ⟨begun, []⟩ b).begun, (Scan.feed ⟨begun, []⟩ b).read ++ read⟩ := by
  cases begun with
  | none => exact start_read read b
  | some p =>
    unfold Scan.feed
    simp only
    split
    · split
      · rfl
      · rfl
    -- a byte that breaks a sequence starts over
    · rw [start_read (none :: read), start_read [none]]
      simp

/-- A scan adds to what was read before. -/
theorem foldl_feed_read : ∀ (bs : Bytes) (begun : Option Begun) (read : List (Option Char)),
    bs.foldl Scan.feed ⟨begun, read⟩ =
      ⟨(bs.foldl Scan.feed ⟨begun, []⟩).begun, (bs.foldl Scan.feed ⟨begun, []⟩).read ++ read⟩
  | [], begun, read => rfl
  | b :: bs, begun, read => by
    rw [List.foldl_cons, List.foldl_cons, feed_read, foldl_feed_read bs _ (_ ++ read)]
    generalize Scan.feed ⟨begun, []⟩ b = s
    have rest := foldl_feed_read bs s.begun s.read
    rw [show (⟨s.begun, s.read⟩ : Scan) = s from rfl] at rest
    rw [rest, List.append_assoc]

/-! ## The start of a character -/

/-- The start of a character is a sequence that is not finished. -/
theorem foldl_feed_take {c : Char} {k : Nat} (some : 0 < k)
    (short : k < (String.utf8EncodeChar c).length) :
    ∃ p : Begun, ((String.utf8EncodeChar c).take k).foldl Scan.feed {} = ⟨.some p, []⟩ := by
  have traces : Scan.Traces (((String.utf8EncodeChar c).take k).foldl Scan.feed {})
      ([] ++ (String.utf8EncodeChar c).take k) := foldl_feed_traces _ ⟨nofun, fun _ => rfl⟩
  have whole := feed_encodeChar [] c
  rw [← List.take_append_drop k (String.utf8EncodeChar c), List.foldl_append] at whole
  have length : ((String.utf8EncodeChar c).take k).length = k := List.length_take_of_le (by omega)
  rw [List.nil_append] at traces
  generalize ((String.utf8EncodeChar c).take k).foldl Scan.feed {} = s at whole traces
  obtain ⟨begun, read⟩ := s
  rw [foldl_feed_read] at whole
  -- nothing was read but the character, and it is longer than what was read
  have readFew := congrArg Scan.read whole
  rcases List.append_eq_singleton_iff.1 readFew with ⟨-, rfl⟩ | ⟨-, rfl⟩
  · have bytes : (String.utf8EncodeChar c).take k =
        String.utf8EncodeChar c ++ [] ++ begun.elim [] Begun.bytes := traces.bytes (by simp)
    have longer := congrArg List.length bytes
    rw [length, List.append_nil, List.length_append] at longer
    omega
  · have bytes : (String.utf8EncodeChar c).take k = begun.elim [] Begun.bytes :=
      traces.bytes (by simp)
    cases begun with
    | some p => exact ⟨p, rfl⟩
    | none =>
      rw [bytes] at length
      exact absurd length (Nat.ne_of_lt some)

/-- Characters and the start of another scan as these characters and one defect. -/
theorem scan_take (cs : List Char) {c : Char} {k : Nat} (some : 0 < k)
    (short : k < (String.utf8EncodeChar c).length) :
    scan (cs.flatMap String.utf8EncodeChar ++ (String.utf8EncodeChar c).take k) =
      cs.map .some ++ [none] := by
  obtain ⟨p, start⟩ := foldl_feed_take some short
  unfold scan
  rw [List.foldl_append, feed_encodeChars, foldl_feed_read, start]
  simp [Scan.finish]

/-- A byte that begins nothing is one defect among the characters around it. -/
theorem lossy_stray {b : UInt8} (stray : Scan.start [] b = ⟨none, [none]⟩) (front rest : List Char) :
    lossy (front.flatMap String.utf8EncodeChar ++ b :: rest.flatMap String.utf8EncodeChar) =
      String.ofList (front ++ replacement :: rest) := by
  unfold lossy scan
  rw [List.foldl_append, feed_encodeChars, List.foldl_cons, feed_none, start_read, stray,
    feed_encodeChars]
  simp [Scan.finish, Function.comp_def]

/-! ## Cutting -/

/-- What is left of a text when only so many of its bytes are kept. -/
def cut (n : Nat) (s : String) : String := lossy ((encode s).take n)

/-- The bytes that are kept are those of some characters and the start of another. -/
theorem exists_take_flatMap : ∀ (cs : List Char) {n : Nat},
    n < (cs.flatMap String.utf8EncodeChar).length → ∃ front c rest k, cs = front ++ c :: rest ∧
      k < (String.utf8EncodeChar c).length ∧
      (front.flatMap String.utf8EncodeChar).length + k = n ∧
      (cs.flatMap String.utf8EncodeChar).take n =
        front.flatMap String.utf8EncodeChar ++ (String.utf8EncodeChar c).take k
  | [], n, long => absurd long (Nat.not_lt_zero n)
  | c :: cs, n, long => by
    rw [List.flatMap_cons] at long ⊢
    by_cases within : n < (String.utf8EncodeChar c).length
    · refine ⟨[], c, cs, n, rfl, within, Nat.zero_add n, ?_⟩
      rw [List.take_append_of_le_length (Nat.le_of_lt within)]
      rfl
    · obtain ⟨m, rfl⟩ := Nat.exists_eq_add_of_le (Nat.le_of_not_lt within)
      rw [List.length_append] at long
      obtain ⟨front, d, rest, k, split, short, length, kept⟩ :=
        exists_take_flatMap cs (Nat.lt_of_add_lt_add_left long)
      refine ⟨c :: front, d, rest, k, congrArg (c :: ·) split, short, ?_, ?_⟩
      · rw [List.flatMap_cons, List.length_append, Nat.add_assoc, length]
      · rw [List.take_length_add_append, kept, List.flatMap_cons, List.append_assoc]

theorem cut_of_le {n : Nat} {s : String} (fits : (encode s).length ≤ n) : cut n s = s := by
  unfold cut
  rw [List.take_of_length_le fits, lossy_encode]

theorem encode_push (s : String) (c : Char) :
    encode (s.push c) = encode s ++ String.utf8EncodeChar c := by
  unfold encode
  rw [String.toList_push, List.flatMap_append, List.flatMap_singleton]

/-- A text that is too long loses a character and all that follow it. If the character begins before
the text is cut, a replacement stands in its place. -/
theorem cut_cases {n : Nat} {s : String} (long : n < (encode s).length) :
    ∃ (front : String) (c : Char) (rest : List Char), s.toList = front.toList ++ c :: rest ∧
      n < (encode (front.push c)).length ∧
      ((encode front).length = n ∧ cut n s = front ∨
        (encode front).length < n ∧ cut n s = front.push replacement) := by
  obtain ⟨cs, c, rest, k, split, short, length, kept⟩ := exists_take_flatMap s.toList long
  obtain ⟨front, rfl⟩ : ∃ front : String, front.toList = cs := ⟨.ofList cs, String.toList_ofList ..⟩
  have left : cut n s = lossy (encode front ++ (String.utf8EncodeChar c).take k) :=
    congrArg lossy kept
  have length : (encode front).length + k = n := length
  refine ⟨front, c, rest, split, ?_, ?_⟩
  · rw [encode_push, List.length_append]
    omega
  rw [left]
  rcases Nat.eq_zero_or_pos k with rfl | some
  · refine .inl ⟨length, ?_⟩
    rw [List.take_zero, List.append_nil, lossy_encode]
  · refine .inr ⟨by omega, ?_⟩
    unfold lossy encode
    rw [scan_take front.toList some short, ← String.toList_inj]
    simp [Function.comp_def]

/-- A text is not changed by cutting if it fits, or if its last character is a replacement that begins
where it is still kept. -/
theorem cut_eq_self_iff {n : Nat} {s : String} : cut n s = s ↔ (encode s).length ≤ n ∨
    ∃ front : String, s = front.push replacement ∧ (encode front).length < n := by
  by_cases fits : (encode s).length ≤ n
  · exact ⟨fun _ => .inl fits, fun _ => cut_of_le fits⟩
  obtain ⟨front, c, rest, split, beyond, kept⟩ := cut_cases (Nat.lt_of_not_le fits)
  constructor
  · intro same
    rcases kept with ⟨-, left⟩ | ⟨less, left⟩
    · rw [← same, left] at split
      simp at split
    · exact .inr ⟨front, same.symm.trans left, less⟩
  · rintro (fits' | ⟨front', rfl, less⟩)
    · exact absurd fits' fits
    rw [String.toList_push] at split
    rcases List.eq_nil_or_concat rest with rfl | ⟨rest, d, rfl⟩
    · obtain ⟨whole, -⟩ := List.append_inj' split rfl
      cases String.toList_inj.1 whole
      rcases kept with ⟨length, -⟩ | ⟨-, left⟩
      · exact absurd length (Nat.ne_of_lt less)
      · exact left
    -- the character that is lost would be one of those that fit
    · rw [List.concat_eq_append, ← List.cons_append, ← List.append_assoc] at split
      obtain ⟨whole, -⟩ := List.append_inj' split rfl
      have bytes : encode front' =
          encode (front.push c) ++ rest.flatMap String.utf8EncodeChar := by
        unfold encode
        simp [whole]
      rw [bytes, List.length_append] at less
      omega

/-- A text that was cut is not changed by cutting it again. -/
theorem cut_cut (n : Nat) (s : String) : cut n (cut n s) = cut n s := by
  rw [cut_eq_self_iff]
  by_cases fits : (encode s).length ≤ n
  · rw [cut_of_le fits]
    exact .inl fits
  obtain ⟨front, c, rest, -, -, ⟨length, left⟩ | ⟨less, left⟩⟩ := cut_cases (Nat.lt_of_not_le fits)
  · rw [left]
    exact .inl (Nat.le_of_eq length)
  · exact .inr ⟨front, left, less⟩

end EncryptedBackup.Utf8
