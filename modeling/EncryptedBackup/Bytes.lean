/-
Byte strings, and numbers as octets in either order. `littleEndian_length` gives the width of a
written number; `ofLittleEndian_littleEndian` reads it back modulo what that width holds. Pieces of a
byte string joined again are that byte string (`pieces_flatten`).
-/

namespace EncryptedBackup

/-- A byte string. -/
abbrev Bytes := List UInt8

/-- What holds of the bytes with the numbers below 256 holds of all. -/
theorem forall_byte {P : UInt8 → Prop} (h : ∀ n : Fin 256, P (UInt8.ofNat n)) : ∀ a, P a := by
  intro a
  have := h ⟨a.toNat, a.toNat_lt⟩
  simpa using this

/-! ## Numbers as octets -/

/-- How many numbers there are of `width` octets. -/
def capacity : (width : Nat) → Nat
  | 0 => 1
  | width + 1 => 256 * capacity width

/-- The `width` low octets of `v`, least significant first. -/
def littleEndian : (width : Nat) → (v : Nat) → Bytes
  | 0, _ => []
  | width + 1, v => UInt8.ofNat v :: littleEndian width (v / 256)

/-- The number whose octets these are, least significant first. -/
def ofLittleEndian (bs : Bytes) : Nat :=
  bs.foldr (fun b v => b.toNat + 256 * v) 0

/-- The `width` low octets of `v`, most significant first. -/
def bigEndian (width v : Nat) : Bytes :=
  (littleEndian width v).reverse

/-- The number whose octets these are, most significant first. -/
def ofBigEndian (bs : Bytes) : Nat :=
  bs.foldl (fun v b => 256 * v + b.toNat) 0

@[simp] theorem littleEndian_length (width v : Nat) : (littleEndian width v).length = width := by
  induction width generalizing v with
  | zero => rfl
  | succ n ih => simp [littleEndian, ih]

@[simp] theorem bigEndian_length (width v : Nat) : (bigEndian width v).length = width := by
  simp [bigEndian]

theorem ofLittleEndian_cons (b : UInt8) (bs : Bytes) :
    ofLittleEndian (b :: bs) = b.toNat + 256 * ofLittleEndian bs := rfl

/-- Reading back the `width` low octets gives the number modulo what they can hold. -/
theorem ofLittleEndian_littleEndian (width v : Nat) :
    ofLittleEndian (littleEndian width v) = v % capacity width := by
  induction width generalizing v with
  | zero => simp [littleEndian, ofLittleEndian, capacity, Nat.mod_one]
  | succ n ih =>
    rw [littleEndian, ofLittleEndian_cons, ih, capacity, Nat.mod_mul]
    rfl

theorem ofLittleEndian_lt (bs : Bytes) : ofLittleEndian bs < capacity bs.length := by
  induction bs with
  | nil => decide
  | cons b bs ih =>
    rw [ofLittleEndian_cons, List.length_cons, capacity]
    have := b.toNat_lt
    omega

theorem ofBigEndian_reverse (bs : Bytes) : ofBigEndian bs.reverse = ofLittleEndian bs := by
  simp [ofBigEndian, ofLittleEndian, List.foldl_reverse, Nat.add_comm]

/-- Reading back the `width` low octets gives the number modulo what they can hold. -/
theorem ofBigEndian_bigEndian (width v : Nat) :
    ofBigEndian (bigEndian width v) = v % capacity width := by
  rw [bigEndian, ofBigEndian_reverse, ofLittleEndian_littleEndian]

/-! ## Octets of a number, none to spare -/

/-- The octets of `n`, least significant first and no more than needed: none for zero. -/
def octets (n : Nat) : Bytes :=
  if n = 0 then [] else UInt8.ofNat n :: octets (n / 256)

/-- The octets of `n`, most significant first and no more than needed: none for zero. -/
def magnitude (n : Nat) : Bytes :=
  (octets n).reverse

/-! ## Combining byte strings -/

/-- Exclusive or, byte by byte, as far as the shorter of the two. -/
def Bytes.xor (a b : Bytes) : Bytes :=
  a.zipWith (· ^^^ ·) b

/-! ## Pieces -/

/-- A byte string cut into pieces of `size` bytes, the last of which may be shorter. -/
def pieces (size : Nat) (bs : Bytes) : List Bytes :=
  if bs.length ≤ size ∨ size = 0 then (if bs.isEmpty then [] else [bs])
  else bs.take size :: pieces size (bs.drop size)
termination_by bs.length
decreasing_by simp; omega

@[simp] theorem pieces_nil (size : Nat) : pieces size [] = [] := by
  unfold pieces
  simp

/-- The first piece is as large as can be. -/
theorem pieces_eq_cons {size : Nat} (positive : 0 < size) {bs : Bytes} (some : bs ≠ []) :
    pieces size bs = bs.take size :: pieces size (bs.drop size) := by
  have rest : bs.isEmpty = false := by simpa using some
  by_cases last : bs.length ≤ size
  · rw [List.take_of_length_le last, List.drop_eq_nil_of_le last, pieces_nil, pieces,
      if_pos (.inl last), rest]
    rfl
  · rw [pieces, if_neg (by omega)]

theorem pieces_flatten (size : Nat) (bs : Bytes) : (pieces size bs).flatten = bs := by
  fun_induction pieces size bs with
  | case1 bs stop none => simpa using (List.isEmpty_iff.1 none).symm
  | case2 bs stop some => simp
  | case3 bs go ih => rw [List.flatten_cons, ih, List.take_append_drop]

theorem ne_nil_of_mem_pieces {size : Nat} {bs p : Bytes} (h : p ∈ pieces size bs) : p ≠ [] := by
  fun_induction pieces size bs with
  | case1 bs stop none => cases h
  | case2 bs stop some =>
    obtain rfl := List.mem_singleton.1 h
    intro nil
    simp [nil] at some
  | case3 bs go ih =>
    rcases List.mem_cons.1 h with rfl | h
    · intro nil
      have := congrArg List.length nil
      simp only [List.length_take, List.length_nil] at this
      omega
    · exact ih h

theorem length_le_of_mem_pieces {size : Nat} (positive : 0 < size) {bs p : Bytes}
    (h : p ∈ pieces size bs) : p.length ≤ size := by
  fun_induction pieces size bs with
  | case1 bs stop none => cases h
  | case2 bs stop some =>
    obtain rfl := List.mem_singleton.1 h
    omega
  | case3 bs go ih =>
    rcases List.mem_cons.1 h with rfl | h
    · exact List.length_take_le ..
    · exact ih h

end EncryptedBackup
