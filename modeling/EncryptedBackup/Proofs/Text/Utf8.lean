/-
UTF-8. The bytes of a text are read as that text, strictly (`decode?_eq_some_iff`: no other bytes are)
and leniently (`lossy_encode`). Bytes without a NUL give a text whose bytes have none either
(`zero_notMem_encode_lossy`).
-/
import EncryptedBackup.Text.Utf8

namespace EncryptedBackup.Utf8

/-! ## One byte after the other, by its number -/

theorem toNat_ofNat_byte {n : Nat} (h : n < 256) : (UInt8.ofNat n).toNat = n := by
  simp; omega

/-- What a byte starts, as a matter of its number. -/
theorem start_toNat (read : List (Option Char)) (b : UInt8) :
    Scan.start read b =
      if b.toNat < 0x80 then ⟨none, some (Char.ofNat b.toNat) :: read⟩
      else if b.toNat < 0xC2 then ⟨none, none :: read⟩
      else if b.toNat < 0xE0 then ⟨some { bits := b.toNat - 0xC0, owed := 1 }, read⟩
      else if b.toNat = 0xE0 then ⟨some { bits := 0, owed := 2, low := 0xA0 }, read⟩
      else if b.toNat = 0xED then ⟨some { bits := 0xD, owed := 2, high := 0x9F }, read⟩
      else if b.toNat < 0xF0 then ⟨some { bits := b.toNat - 0xE0, owed := 2 }, read⟩
      else if b.toNat = 0xF0 then ⟨some { bits := 0, owed := 3, low := 0x90 }, read⟩
      else if b.toNat < 0xF4 then ⟨some { bits := b.toNat - 0xF0, owed := 3 }, read⟩
      else if b.toNat = 0xF4 then ⟨some { bits := 4, owed := 3, high := 0x8F }, read⟩
      else ⟨none, none :: read⟩ := by
  unfold Scan.start
  simp only [UInt8.lt_iff_toNat_lt, ← UInt8.toNat_inj, UInt8.reduceToNat]

theorem feed_none (read : List (Option Char)) (b : UInt8) :
    Scan.feed ⟨none, read⟩ b = Scan.start read b := rfl

/-- A byte in the range of a begun sequence adds its six bits. -/
theorem feed_some {p : Begun} {c : Nat} (read : List (Option Char)) (small : c < 0x40)
    (low : p.low.toNat ≤ c + 0x80) (high : c + 0x80 ≤ p.high.toNat) :
    Scan.feed ⟨some p, read⟩ (UInt8.ofNat (c + 0x80)) =
      if p.owed ≤ 1 then ⟨none, some (Char.ofNat (64 * p.bits + c)) :: read⟩
      else ⟨some { bits := 64 * p.bits + c, owed := p.owed - 1 }, read⟩ := by
  have h : (UInt8.ofNat (c + 0x80)).toNat = c + 0x80 := toNat_ofNat_byte (by omega)
  unfold Scan.feed
  simp only [UInt8.le_iff_toNat_le, h, Nat.add_sub_cancel]
  rw [if_pos ⟨low, high⟩]

/-! ## Reading what was written -/

theorem feed_one {a : Nat} (read : List (Option Char)) (ha : a < 0x80) :
    [UInt8.ofNat a].foldl Scan.feed ⟨none, read⟩ = ⟨none, some (Char.ofNat a) :: read⟩ := by
  rw [List.foldl_cons, List.foldl_nil, feed_none, start_toNat, toNat_ofNat_byte (by omega),
    if_pos ha]

theorem feed_two {a b : Nat} (read : List (Option Char)) (ha : 2 ≤ a) (ha' : a < 0x20)
    (hb : b < 0x40) :
    [UInt8.ofNat (a + 0xC0), UInt8.ofNat (b + 0x80)].foldl Scan.feed ⟨none, read⟩ =
      ⟨none, some (Char.ofNat (64 * a + b)) :: read⟩ := by
  simp only [List.foldl_cons, List.foldl_nil]
  rw [feed_none, start_toNat, toNat_ofNat_byte (by omega), if_neg (by omega), if_neg (by omega),
    if_pos (by omega), feed_some read hb (by simp) (by simp; omega), if_pos (by simp)]
  simp

/-- What the first of three bytes begins: the second lies above the overlong forms and below the
surrogates. -/
theorem feed_three {a b c : Nat} (read : List (Option Char)) (ha : a < 0x10) (hb : b < 0x40)
    (hc : c < 0x40) (long : a = 0 → 0x20 ≤ b) (scalar : a = 0xD → b < 0x20) :
    [UInt8.ofNat (a + 0xE0), UInt8.ofNat (b + 0x80), UInt8.ofNat (c + 0x80)].foldl Scan.feed
      ⟨none, read⟩ = ⟨none, some (Char.ofNat (64 * (64 * a + b) + c)) :: read⟩ := by
  obtain ⟨p, hp, bits, owed, low, high⟩ : ∃ p : Begun,
      Scan.start read (UInt8.ofNat (a + 0xE0)) = ⟨some p, read⟩ ∧ p.bits = a ∧ p.owed = 2 ∧
      p.low.toNat ≤ b + 0x80 ∧ b + 0x80 ≤ p.high.toNat := by
    rw [start_toNat, toNat_ofNat_byte (by omega), if_neg (by omega), if_neg (by omega),
      if_neg (by omega)]
    split
    · exact ⟨_, rfl, by simp; omega, rfl, by simp; omega, by simp; omega⟩
    split
    · exact ⟨_, rfl, by simp; omega, rfl, by simp, by simp; omega⟩
    · rw [if_pos (by omega)]
      exact ⟨_, rfl, by simp, rfl, by simp, by simp; omega⟩
  simp only [List.foldl_cons, List.foldl_nil]
  rw [feed_none, hp, feed_some read hb low high, owed, if_neg (by omega),
    feed_some read hc (by simp) (by simp; omega), if_pos (by simp), bits]

/-- What the first of four bytes begins: the second lies above the overlong forms and within the
range of characters. -/
theorem feed_four {a b c d : Nat} (read : List (Option Char)) (ha : a ≤ 4) (hb : b < 0x40)
    (hc : c < 0x40) (hd : d < 0x40) (long : a = 0 → 0x10 ≤ b) (scalar : a = 4 → b < 0x10) :
    [UInt8.ofNat (a + 0xF0), UInt8.ofNat (b + 0x80), UInt8.ofNat (c + 0x80),
      UInt8.ofNat (d + 0x80)].foldl Scan.feed ⟨none, read⟩ =
      ⟨none, some (Char.ofNat (64 * (64 * (64 * a + b) + c) + d)) :: read⟩ := by
  obtain ⟨p, hp, bits, owed, low, high⟩ : ∃ p : Begun,
      Scan.start read (UInt8.ofNat (a + 0xF0)) = ⟨some p, read⟩ ∧ p.bits = a ∧ p.owed = 3 ∧
      p.low.toNat ≤ b + 0x80 ∧ b + 0x80 ≤ p.high.toNat := by
    rw [start_toNat, toNat_ofNat_byte (by omega), if_neg (by omega), if_neg (by omega),
      if_neg (by omega), if_neg (by omega), if_neg (by omega), if_neg (by omega)]
    split
    · exact ⟨_, rfl, by simp; omega, rfl, by simp; omega, by simp; omega⟩
    split
    · exact ⟨_, rfl, by simp, rfl, by simp, by simp; omega⟩
    · rw [if_pos (by omega)]
      exact ⟨_, rfl, by simp; omega, rfl, by simp, by simp; omega⟩
  simp only [List.foldl_cons, List.foldl_nil]
  rw [feed_none, hp, feed_some read hb low high, owed, if_neg (by omega),
    feed_some read hc (by simp) (by simp; omega), if_neg (by simp),
    feed_some read hd (by simp) (by simp; omega), if_pos (by simp), bits]

/-- The bytes of a character, read between two sequences, give the character. -/
theorem feed_encodeChar (read : List (Option Char)) (c : Char) :
    (String.utf8EncodeChar c).foldl Scan.feed ⟨none, read⟩ = ⟨none, some c :: read⟩ := by
  have valid : c.val.toNat < 0xD800 ∨ 0xDFFF < c.val.toNat ∧ c.val.toNat < 0x110000 := c.valid
  have back : ∀ n, n = c.val.toNat → Char.ofNat n = c := fun n h => h ▸ Char.ofNat_toNat c
  unfold String.utf8EncodeChar
  simp only
  split
  · rw [feed_one read (by omega), back _ rfl]
  split
  · rw [feed_two read (by omega) (by omega) (by omega), back _ (by omega)]
  split
  · rw [feed_three read (by omega) (by omega) (by omega) (by omega) (by omega), back _ (by omega)]
  · rw [feed_four read (by omega) (by omega) (by omega) (by omega) (by omega) (by omega),
      back _ (by omega)]

theorem feed_encodeChars : ∀ (cs : List Char) (read : List (Option Char)),
    (cs.flatMap String.utf8EncodeChar).foldl Scan.feed ⟨none, read⟩ =
      ⟨none, (cs.map some).reverse ++ read⟩
  | [], read => by simp
  | c :: cs, read => by
    rw [List.flatMap_cons, List.foldl_append, feed_encodeChar, feed_encodeChars cs]
    simp

/-- The bytes of a text scan as its characters. -/
theorem scan_encode (s : String) : scan (encode s) = s.toList.map some := by
  unfold scan encode
  rw [feed_encodeChars]
  simp [Scan.finish]

/-- The bytes of a text give back the text. -/
theorem lossy_encode (s : String) : lossy (encode s) = s := by
  unfold lossy
  rw [scan_encode]
  simp [Function.comp_def]

theorem decode?_encode (s : String) : decode? (encode s) = some s := by
  unfold decode?
  rw [scan_encode]
  simp

/-- No two texts have the same bytes. -/
theorem eq_of_encode_eq {s t : String} (h : encode s = encode t) : s = t := by
  rw [← lossy_encode s, h, lossy_encode]

/-! ## What a scan has read -/

theorem toNat_ofNat {n : Nat} (scalar : n < 0xD800 ∨ 0xDFFF < n ∧ n < 0x110000) :
    (Char.ofNat n).val.toNat = n := by
  rw [Char.ofNat, dif_pos scalar]
  rfl

theorem encodeChar_one {a : Nat} (ha : a < 0x80) :
    String.utf8EncodeChar (Char.ofNat a) = [UInt8.ofNat a] := by
  unfold String.utf8EncodeChar
  simp only
  rw [toNat_ofNat (by omega), if_pos (by omega)]

theorem encodeChar_two {a b : Nat} (ha : 2 ≤ a) (ha' : a < 0x20) (hb : b < 0x40) :
    String.utf8EncodeChar (Char.ofNat (64 * a + b)) =
      [UInt8.ofNat (a + 0xC0), UInt8.ofNat (b + 0x80)] := by
  unfold String.utf8EncodeChar
  simp only
  rw [toNat_ofNat (by omega), if_neg (by omega), if_pos (by omega),
    show (64 * a + b) / 64 % 32 = a by omega, show (64 * a + b) % 64 = b by omega]

theorem encodeChar_three {a b c : Nat} (ha : a < 0x10) (hb : b < 0x40) (hc : c < 0x40)
    (long : a = 0 → 0x20 ≤ b) (scalar : a = 0xD → b < 0x20) :
    String.utf8EncodeChar (Char.ofNat (64 * (64 * a + b) + c)) =
      [UInt8.ofNat (a + 0xE0), UInt8.ofNat (b + 0x80), UInt8.ofNat (c + 0x80)] := by
  unfold String.utf8EncodeChar
  simp only
  rw [toNat_ofNat (by omega), if_neg (by omega), if_neg (by omega), if_pos (by omega),
    show (64 * (64 * a + b) + c) / 4096 % 16 = a by omega,
    show (64 * (64 * a + b) + c) / 64 % 64 = b by omega,
    show (64 * (64 * a + b) + c) % 64 = c by omega]

theorem encodeChar_four {a b c d : Nat} (ha : a ≤ 4) (hb : b < 0x40) (hc : c < 0x40) (hd : d < 0x40)
    (long : a = 0 → 0x10 ≤ b) (scalar : a = 4 → b < 0x10) :
    String.utf8EncodeChar (Char.ofNat (64 * (64 * (64 * a + b) + c) + d)) =
      [UInt8.ofNat (a + 0xF0), UInt8.ofNat (b + 0x80), UInt8.ofNat (c + 0x80),
        UInt8.ofNat (d + 0x80)] := by
  unfold String.utf8EncodeChar
  simp only
  rw [toNat_ofNat (by omega), if_neg (by omega), if_neg (by omega), if_neg (by omega),
    show (64 * (64 * (64 * a + b) + c) + d) / 262144 % 8 = a by omega,
    show (64 * (64 * (64 * a + b) + c) + d) / 4096 % 64 = b by omega,
    show (64 * (64 * (64 * a + b) + c) + d) / 64 % 64 = c by omega,
    show (64 * (64 * (64 * a + b) + c) + d) % 64 = d by omega]

/-- A character is written in the byte of its number, or in bytes that are none of such a one. -/
theorem encodeChar_cases (c : Char) :
    (∃ b : UInt8, b.toNat < 0x80 ∧ c = Char.ofNat b.toNat ∧ String.utf8EncodeChar c = [b]) ∨
    0x80 ≤ c.toNat ∧ ∀ b ∈ String.utf8EncodeChar c, 0x80 ≤ b.toNat := by
  rcases Nat.lt_or_ge c.toNat 0x80 with small | large
  · have number : (UInt8.ofNat c.toNat).toNat = c.toNat := toNat_ofNat_byte (by omega)
    have one := encodeChar_one small
    rw [Char.ofNat_toNat] at one
    exact .inl ⟨UInt8.ofNat c.toNat, by omega, by rw [number, Char.ofNat_toNat], one⟩
  refine .inr ⟨large, ?_⟩
  have above : 0x80 ≤ c.val.toNat := large
  have byte : ∀ n, 0x80 ≤ n ∧ n < 256 → 0x80 ≤ (UInt8.ofNat n).toNat := fun n h => by
    rw [toNat_ofNat_byte h.2]
    exact h.1
  unfold String.utf8EncodeChar
  simp only
  rw [if_neg (by omega)]
  split
  · simp only [List.mem_cons, List.not_mem_nil, or_false, forall_eq_or_imp, forall_eq]
    exact ⟨byte _ (by omega), byte _ (by omega)⟩
  split
  · simp only [List.mem_cons, List.not_mem_nil, or_false, forall_eq_or_imp, forall_eq]
    exact ⟨byte _ (by omega), byte _ (by omega), byte _ (by omega)⟩
  · simp only [List.mem_cons, List.not_mem_nil, or_false, forall_eq_or_imp, forall_eq]
    exact ⟨byte _ (by omega), byte _ (by omega), byte _ (by omega), byte _ (by omega)⟩

/-- However a begun sequence goes on, it ends in a character of that many bytes: by the bytes it owes,
the range of the next one and of its bits so far. -/
def Begun.Sound (p : Begun) : Prop :=
  p.owed = 1 ∧ p.low = 0x80 ∧ p.high = 0xBF ∧ 2 ≤ p.bits ∧ (p.bits < 0x360 ∨ 0x380 ≤ p.bits) ∧
    p.bits < 0x4400 ∨
  p.owed = 2 ∧ (p.bits = 0 ∧ p.low = 0xA0 ∧ p.high = 0xBF ∨
    p.bits = 0xD ∧ p.low = 0x80 ∧ p.high = 0x9F ∨
    1 ≤ p.bits ∧ p.bits ≠ 0xD ∧ p.bits < 0x110 ∧ p.low = 0x80 ∧ p.high = 0xBF) ∨
  p.owed = 3 ∧ (p.bits = 0 ∧ p.low = 0x90 ∧ p.high = 0xBF ∨
    p.bits = 4 ∧ p.low = 0x80 ∧ p.high = 0x8F ∨
    1 ≤ p.bits ∧ p.bits < 4 ∧ p.low = 0x80 ∧ p.high = 0xBF)

/-- The bytes of a begun sequence. Overlong forms being excluded, its bits tell how many they are. -/
def Begun.bytes (p : Begun) : Bytes :=
  match p.owed with
  | 1 =>
    if p.bits < 0x20 then [.ofNat (p.bits + 0xC0)]
    else if p.bits < 0x400 then [.ofNat (p.bits / 64 + 0xE0), .ofNat (p.bits % 64 + 0x80)]
    else [.ofNat (p.bits / 4096 + 0xF0), .ofNat (p.bits / 64 % 64 + 0x80),
      .ofNat (p.bits % 64 + 0x80)]
  | 2 =>
    if p.bits < 0x10 then [.ofNat (p.bits + 0xE0)]
    else [.ofNat (p.bits / 64 + 0xF0), .ofNat (p.bits % 64 + 0x80)]
  | _ => [.ofNat (p.bits + 0xF0)]

theorem ofNat_eq_of_toNat {n : Nat} {b : UInt8} (h : b.toNat = n) : UInt8.ofNat n = b := by
  rw [← h, UInt8.ofNat_toNat]

/-- A byte between two sequences is a character, a defect, or the start of a sequence. -/
theorem start_cases (read : List (Option Char)) (b : UInt8) :
    (∃ c, Scan.start read b = ⟨none, some c :: read⟩ ∧ String.utf8EncodeChar c = [b]) ∨
    Scan.start read b = ⟨none, none :: read⟩ ∨
    ∃ p : Begun, Scan.start read b = ⟨some p, read⟩ ∧ p.Sound ∧ p.bytes = [b] := by
  have bounded := b.toNat_lt
  have last {n : Nat} (bits : b.toNat - n + n = b.toNat) :
      [UInt8.ofNat (b.toNat - n + n)] = [b] := by
    rw [bits, UInt8.ofNat_toNat]
  -- by the first byte, in the order of `start_toNat`
  rw [start_toNat]
  by_cases h1 : b.toNat < 0x80
  · rw [if_pos h1]
    refine .inl ⟨_, rfl, ?_⟩
    rw [encodeChar_one h1, UInt8.ofNat_toNat]
  rw [if_neg h1]
  by_cases h2 : b.toNat < 0xC2
  · rw [if_pos h2]
    exact .inr (.inl rfl)
  rw [if_neg h2]
  by_cases h3 : b.toNat < 0xE0
  · rw [if_pos h3]
    have low : b.toNat - 0xC0 < 0x20 := by omega
    refine .inr (.inr ⟨_, rfl, by simp [Begun.Sound]; omega, ?_⟩)
    simp only [Begun.bytes]
    rw [if_pos low]
    exact last (by omega)
  rw [if_neg h3]
  by_cases h4 : b.toNat = 0xE0
  · rw [if_pos h4]
    refine .inr (.inr ⟨_, rfl, by simp [Begun.Sound], ?_⟩)
    rw [← ofNat_eq_of_toNat h4]
    rfl
  rw [if_neg h4]
  by_cases h5 : b.toNat = 0xED
  · rw [if_pos h5]
    refine .inr (.inr ⟨_, rfl, by simp [Begun.Sound], ?_⟩)
    rw [← ofNat_eq_of_toNat h5]
    rfl
  rw [if_neg h5]
  by_cases h6 : b.toNat < 0xF0
  · rw [if_pos h6]
    have low : b.toNat - 0xE0 < 0x10 := by omega
    refine .inr (.inr ⟨_, rfl, by simp [Begun.Sound]; omega, ?_⟩)
    simp only [Begun.bytes]
    rw [if_pos low]
    exact last (by omega)
  rw [if_neg h6]
  by_cases h7 : b.toNat = 0xF0
  · rw [if_pos h7]
    refine .inr (.inr ⟨_, rfl, by simp [Begun.Sound], ?_⟩)
    rw [← ofNat_eq_of_toNat h7]
    rfl
  rw [if_neg h7]
  by_cases h8 : b.toNat < 0xF4
  · rw [if_pos h8]
    refine .inr (.inr ⟨_, rfl, by simp [Begun.Sound]; omega, ?_⟩)
    exact last (by omega)
  rw [if_neg h8]
  by_cases h9 : b.toNat = 0xF4
  · rw [if_pos h9]
    refine .inr (.inr ⟨_, rfl, by simp [Begun.Sound], ?_⟩)
    rw [← ofNat_eq_of_toNat h9]
    rfl
  · rw [if_neg h9]
    exact .inr (.inl rfl)

/-- The last byte that a sequence owes completes a character. -/
theorem Begun.Sound.encodeChar {p : Begun} (sound : p.Sound) (last : p.owed = 1) {c : Nat}
    (small : c < 0x40) :
    String.utf8EncodeChar (Char.ofNat (64 * p.bits + c)) = p.bytes ++ [UInt8.ofNat (c + 0x80)] := by
  obtain ⟨bits, owed, low, high⟩ := p
  simp only [Begun.Sound] at sound last ⊢
  subst last
  unfold Begun.bytes
  simp only
  by_cases two : bits < 0x20
  · rw [if_pos two, encodeChar_two (by omega) two small]
    rfl
  rw [if_neg two]
  by_cases three : bits < 0x400
  · obtain ⟨a, b, hb, rfl⟩ : ∃ a b, b < 0x40 ∧ bits = 64 * a + b :=
      ⟨bits / 64, bits % 64, by omega, by omega⟩
    rw [if_pos three, encodeChar_three (by omega) hb small (by omega) (by omega),
      show (64 * a + b) / 64 = a by omega, show (64 * a + b) % 64 = b by omega]
    rfl
  · obtain ⟨a, b, d, hb, hd, rfl⟩ : ∃ a b d, b < 0x40 ∧ d < 0x40 ∧ bits = 64 * (64 * a + b) + d :=
      ⟨bits / 4096, bits / 64 % 64, bits % 64, by omega, by omega, by omega⟩
    rw [if_neg three, encodeChar_four (by omega) hb hd small (by omega) (by omega),
      show (64 * (64 * a + b) + d) / 4096 = a by omega,
      show (64 * (64 * a + b) + d) / 64 % 64 = b by omega,
      show (64 * (64 * a + b) + d) % 64 = d by omega]
    rfl

/-- The next byte of a sequence has the form of all that are not first. -/
theorem Begun.Sound.bounds {p : Begun} (sound : p.Sound) :
    1 ≤ p.owed ∧ 0x80 ≤ p.low.toNat ∧ p.high.toNat ≤ 0xBF := by
  obtain ⟨bits, owed, low, high⟩ := p
  rcases sound with ⟨rfl, rfl, rfl, _⟩ | ⟨rfl, ⟨_, rfl, rfl⟩ | ⟨_, rfl, rfl⟩ | ⟨_, _, _, rfl, rfl⟩⟩ |
    ⟨rfl, ⟨_, rfl, rfl⟩ | ⟨_, rfl, rfl⟩ | ⟨_, _, rfl, rfl⟩⟩ <;> simp

/-- A byte in range that is not the last one owed goes on with a sequence. -/
theorem Begun.Sound.next {p : Begun} (sound : p.Sound) (more : p.owed ≠ 1) {c : Nat}
    (small : c < 0x40) (above : p.low.toNat ≤ c + 0x80) (below : c + 0x80 ≤ p.high.toNat) :
    let q : Begun := { bits := 64 * p.bits + c, owed := p.owed - 1 }
    q.Sound ∧ q.bytes = p.bytes ++ [UInt8.ofNat (c + 0x80)] := by
  intro q
  obtain ⟨bits, owed, low, high⟩ := p
  have quotient : (64 * bits + c) / 64 = bits := by omega
  have remainder : (64 * bits + c) % 64 = c := by omega
  rcases sound with ⟨one, _⟩ | ⟨rfl, range⟩ | ⟨rfl, range⟩
  · exact absurd one more
  -- of three bytes or four, the second or third
  · simp only at range
    have bounds : (bits = 0 → 0x20 ≤ c) ∧ (bits = 0xD → c < 0x20) ∧ bits < 0x110 := by
      rcases range with ⟨rfl, rfl, rfl⟩ | ⟨rfl, rfl, rfl⟩ | ⟨_, _, _, rfl, rfl⟩ <;>
        simp at above below ⊢ <;> omega
    have sound : 2 ≤ 64 * bits + c ∧ (64 * bits + c < 0x360 ∨ 0x380 ≤ 64 * bits + c) ∧
        64 * bits + c < 0x4400 := by omega
    refine ⟨.inl ⟨rfl, rfl, rfl, sound⟩, ?_⟩
    simp only [Begun.bytes, q, quotient, remainder]
    rw [if_neg (by omega)]
    by_cases three : bits < 0x10
    · rw [if_pos (by omega), if_pos three]
      rfl
    · rw [if_neg (by omega), if_neg three, show (64 * bits + c) / 4096 = bits / 64 by omega]
      rfl
  -- of four bytes the second
  · simp only at range
    have bounds : (bits = 0 → 0x10 ≤ c) ∧ (bits = 4 → c < 0x10) ∧ bits ≤ 4 := by
      rcases range with ⟨rfl, rfl, rfl⟩ | ⟨rfl, rfl, rfl⟩ | ⟨_, _, rfl, rfl⟩ <;>
        simp at above below ⊢ <;> omega
    have sound : 1 ≤ 64 * bits + c ∧ 64 * bits + c ≠ 0xD ∧ 64 * bits + c < 0x110 := by omega
    refine ⟨.inr (.inl ⟨rfl, .inr (.inr ⟨sound.1, sound.2.1, sound.2.2, rfl, rfl⟩)⟩), ?_⟩
    simp only [Begun.bytes, q, quotient, remainder]
    rw [if_neg (by omega)]
    rfl

/-- A byte within a sequence completes a character, goes on with the sequence, or breaks it. -/
theorem feed_cases {p : Begun} (sound : p.Sound) (read : List (Option Char)) (b : UInt8) :
    (∃ c, Scan.feed ⟨some p, read⟩ b = ⟨none, some c :: read⟩ ∧
      String.utf8EncodeChar c = p.bytes ++ [b]) ∨
    (∃ q : Begun, Scan.feed ⟨some p, read⟩ b = ⟨some q, read⟩ ∧ q.Sound ∧ q.bytes = p.bytes ++ [b]) ∨
    Scan.feed ⟨some p, read⟩ b = Scan.start (none :: read) b := by
  obtain ⟨owing, least, greatest⟩ := sound.bounds
  by_cases range : p.low.toNat ≤ b.toNat ∧ b.toNat ≤ p.high.toNat
  · obtain ⟨above, below⟩ := range
    obtain ⟨c, value⟩ : ∃ c, b.toNat = c + 0x80 := ⟨b.toNat - 0x80, by omega⟩
    have small : c < 0x40 := by omega
    rw [value] at above below
    rw [← ofNat_eq_of_toNat value, feed_some read small above below]
    by_cases last : p.owed = 1
    · rw [if_pos (by omega)]
      exact .inl ⟨_, rfl, sound.encodeChar last small⟩
    · obtain ⟨sound', bytes⟩ := sound.next last small above below
      rw [if_neg (by omega)]
      exact .inr (.inl ⟨_, rfl, sound', bytes⟩)
  · refine .inr (.inr ?_)
    unfold Scan.feed
    simp only [UInt8.le_iff_toNat_le]
    rw [if_neg range]

/-! ## Only what was written is read -/

/-- While a scan has met no defect, what it has read and what it is in make up the bytes so far. -/
structure Scan.Traces (s : Scan) (bs : Bytes) : Prop where
  begun : ∀ p, s.begun = some p → p.Sound
  bytes : none ∉ s.read →
    bs = (s.read.reverse.filterMap id).flatMap String.utf8EncodeChar ++ s.begun.elim [] Begun.bytes

theorem start_traces {read : List (Option Char)} {bs : Bytes} (h : Scan.Traces ⟨none, read⟩ bs)
    (b : UInt8) : (Scan.start read b).Traces (bs ++ [b]) := by
  rcases start_cases read b with ⟨c, start, bytes⟩ | start | ⟨p, start, sound, bytes⟩
  · rw [start]
    refine ⟨nofun, fun good => ?_⟩
    rw [h.bytes (by simpa using good)]
    simp [bytes]
  · rw [start]
    exact ⟨nofun, fun good => absurd List.mem_cons_self good⟩
  · rw [start]
    refine ⟨by simpa using sound, fun good => ?_⟩
    rw [h.bytes good]
    simp [bytes]

theorem feed_traces {s : Scan} {bs : Bytes} (h : s.Traces bs) (b : UInt8) :
    (s.feed b).Traces (bs ++ [b]) := by
  obtain ⟨begun, read⟩ := s
  cases begun with
  | none => exact start_traces h b
  | some p =>
    have sound := h.begun p rfl
    rcases feed_cases sound read b with ⟨c, fed, bytes⟩ | ⟨q, fed, sound', bytes⟩ | fed
    · rw [fed]
      refine ⟨nofun, fun good => ?_⟩
      rw [h.bytes (by simpa using good)]
      simp [bytes]
    · rw [fed]
      refine ⟨by simpa using sound', fun good => ?_⟩
      rw [h.bytes good]
      simp [bytes]
    · rw [fed]
      exact start_traces ⟨nofun, fun good => absurd List.mem_cons_self good⟩ b

theorem foldl_feed_traces : ∀ (cs : Bytes) {s : Scan} {bs : Bytes}, s.Traces bs →
    (cs.foldl Scan.feed s).Traces (bs ++ cs)
  | [], s, bs, h => by simpa using h
  | c :: cs, s, bs, h => by
    have rest := foldl_feed_traces cs (feed_traces h c)
    rwa [List.append_assoc, List.singleton_append] at rest

/-- Bytes are read as a text if they are its bytes, and no others are read. -/
theorem decode?_eq_some_iff {bs : Bytes} {s : String} : decode? bs = some s ↔ bs = encode s := by
  constructor
  · intro decoded
    have traces : Scan.Traces (bs.foldl Scan.feed {}) ([] ++ bs) :=
      foldl_feed_traces bs ⟨nofun, fun _ => rfl⟩
    unfold decode? at decoded
    simp only [Option.ite_none_right_eq_some, Option.some.injEq] at decoded
    obtain ⟨good, rfl⟩ := decoded
    unfold scan Scan.finish at good ⊢
    rw [List.nil_append] at traces
    split at good
    · rename_i between
      have all : none ∉ (bs.foldl Scan.feed {}).read := by
        intro mem
        simpa using List.all_eq_true.1 good none (List.mem_reverse.2 mem)
      have bytes := traces.bytes all
      rw [between] at bytes
      unfold encode
      simpa using bytes
    · simp at good
  · rintro rfl
    exact decode?_encode s

/-! ## No NUL comes from bytes without one -/

/-- A scan that has read no NUL, and stands rightly in what it reads. -/
structure Scan.Clean (s : Scan) : Prop where
  read : some '\x00' ∉ s.read
  begun : ∀ p, s.begun = some p → p.Sound

theorem Scan.Clean.cons {read : List (Option Char)} {c : Option Char} (h : some '\x00' ∉ read)
    (hc : c ≠ some '\x00') : Scan.Clean ⟨none, c :: read⟩ :=
  ⟨by simp [h, hc.symm], by simp⟩

theorem Scan.Clean.begin {read : List (Option Char)} {p : Begun} (h : some '\x00' ∉ read)
    (hp : p.Sound) : Scan.Clean ⟨some p, read⟩ :=
  ⟨h, by simpa using hp⟩

/-- The bytes of a NUL end in a zero. -/
theorem ne_nul_of_encodeChar {c : Char} {b : UInt8} (bs : Bytes)
    (bytes : String.utf8EncodeChar c = bs ++ [b]) (hb : b ≠ 0) : some c ≠ some '\x00' := by
  rintro ⟨⟩
  have zero : bs ++ [b] = [] ++ [0] := bytes.symm
  exact hb (List.singleton_inj.1 (List.append_inj_right' zero rfl))

theorem start_clean {read : List (Option Char)} {b : UInt8} (h : some '\x00' ∉ read) (hb : b ≠ 0) :
    (Scan.start read b).Clean := by
  rcases start_cases read b with ⟨c, start, bytes⟩ | start | ⟨p, start, sound, -⟩
  · rw [start]
    exact .cons h (ne_nul_of_encodeChar [] bytes hb)
  · rw [start]
    exact .cons h nofun
  · rw [start]
    exact .begin h sound

theorem feed_clean {s : Scan} {b : UInt8} (h : s.Clean) (hb : b ≠ 0) : (s.feed b).Clean := by
  obtain ⟨begun, read⟩ := s
  cases begun with
  | none => exact start_clean h.read hb
  | some p =>
    rcases feed_cases (h.begun p rfl) read b with ⟨c, fed, bytes⟩ | ⟨q, fed, sound, -⟩ | fed
    · rw [fed]
      exact .cons h.read (ne_nul_of_encodeChar _ bytes hb)
    · rw [fed]
      exact .begin h.read sound
    -- a byte that breaks a sequence starts over
    · rw [fed]
      exact start_clean (by simpa using h.read) hb

theorem foldl_feed_clean : ∀ (bs : Bytes) (s : Scan), s.Clean → 0 ∉ bs → (bs.foldl Scan.feed s).Clean
  | [], s, h, _ => h
  | b :: bs, s, h, hb => by
    rw [List.mem_cons, not_or] at hb
    exact foldl_feed_clean bs _ (feed_clean h (Ne.symm hb.1)) hb.2

/-- Bytes without a NUL are read as a text without one. -/
theorem nul_notMem_lossy {bs : Bytes} (h : 0 ∉ bs) : '\x00' ∉ (lossy bs).toList := by
  have clean := foldl_feed_clean bs {} ⟨by simp, by simp⟩ h
  have scanned : some '\x00' ∉ scan bs := by
    unfold scan Scan.finish
    split
    · simpa using clean.read
    · simpa using clean.read
  unfold lossy
  simp only [String.toList_ofList, List.mem_map, not_exists, not_and]
  intro c hc hn
  cases c with
  | none => revert hn; decide
  | some c => exact scanned (hn ▸ hc)

theorem zero_notMem_encodeChar {c : Char} (h : c ≠ '\x00') : 0 ∉ String.utf8EncodeChar c := by
  rcases encodeChar_cases c with ⟨b, -, rfl, bytes⟩ | ⟨-, high⟩
  · rw [bytes, List.mem_singleton]
    rintro rfl
    exact h rfl
  · exact fun zero => absurd (high 0 zero) (by decide)

theorem zero_notMem_encode {s : String} (h : '\x00' ∉ s.toList) : 0 ∉ encode s := by
  unfold encode
  rw [List.mem_flatMap]
  rintro ⟨c, hc, hz⟩
  exact zero_notMem_encodeChar (fun he => h (he ▸ hc)) hz

/-- Bytes without a NUL are read as a text whose bytes have none. -/
theorem zero_notMem_encode_lossy {bs : Bytes} (h : 0 ∉ bs) : 0 ∉ encode (lossy bs) :=
  zero_notMem_encode (nul_notMem_lossy h)

end EncryptedBackup.Utf8
