/-
Keys are read back from their written forms, a public key (`PublicKey.decode?_encode`) and a private
one (`PrivateKey.decode?_written`). What is read as a private key is sound and takes no more bytes
than there were (`PrivateKey.of_decode?`). The length of a public key follows from the sizes of its
numbers (`PublicKey.encode_length`).
-/
import EncryptedBackup.Crypto.Rsa.Encoding
import EncryptedBackup.Proofs.Crypto.Der

namespace EncryptedBackup

open Der

namespace Rsa

theorem algorithm_length : algorithm.length = 15 := rfl

theorem expect?_append (front rest : Bytes) : expect? front (front ++ rest) = some rest := by
  simp [expect?]

theorem length_of_expect? {front bs rest : Bytes} (h : expect? front bs = some rest) :
    rest.length ≤ bs.length := by
  unfold expect? at h
  split at h
  · cases h
    simp
  · cases h

/-! ## Public keys -/

namespace PublicKey

variable {k : PublicKey}

/-- The two numbers of a key. -/
def numbers (k : PublicKey) : Bytes := natural k.modulus ++ natural k.exponent

theorem encode_eq (k : PublicKey) :
    k.encode = element sequenceTag
      (algorithm ++ element bitStringTag (0 :: element sequenceTag k.numbers)) := rfl

theorem decode?_encode (sound : k.isSound = true) (fits : k.encode.length ≤ maxLength) :
    decode? k.encode = some k := by
  -- every part is shorter than the whole, and so its length is one that is read
  have whole := length_lt_element sequenceTag
    (algorithm ++ element bitStringTag (0 :: element sequenceTag k.numbers))
  have string := length_lt_element bitStringTag (0 :: element sequenceTag k.numbers)
  have pair := length_lt_element sequenceTag k.numbers
  have modulus := length_lt_element integerTag (naturalContent k.modulus)
  have exponent := length_lt_element integerTag (naturalContent k.exponent)
  rw [encode_eq] at fits ⊢
  simp only [List.length_append, List.length_cons] at whole string
  have parts : k.numbers.length = (natural k.modulus).length + (natural k.exponent).length := by
    rw [numbers, List.length_append]
  rw [← natural] at modulus exponent
  have first := readNatural?_natural (n := k.modulus) (by omega) (natural k.exponent)
  have second := readNatural?_natural (n := k.exponent) (by omega) []
  rw [List.append_nil] at second
  unfold decode?
  rw [readAll?_element (by simp; omega)]
  simp only [Option.bind_eq_bind, Option.bind_some, expect?_append]
  rw [readAll?_element (by simp; omega)]
  simp only [Option.bind_some]
  rw [show expect? [0] (0 :: element sequenceTag k.numbers) = some (element sequenceTag k.numbers) from
    expect?_append [0] _]
  simp only [Option.bind_some]
  rw [readAll?_element (by omega)]
  simp only [Option.bind_some, numbers, first, second]
  simp [sound]

/-- How long the written form is follows from the sizes of the numbers. -/
theorem encode_length (size : bits k.modulus = 1024) (exponent : k.exponent = 17) :
    k.encode.length = 160 := by
  have modulus : (naturalContent k.modulus).length = 129 := by
    rw [naturalContent_length, size]
  have other : (naturalContent k.exponent).length = 1 := by
    rw [naturalContent_length, exponent]
    decide
  have pair : k.numbers.length = 135 := by
    rw [numbers, List.length_append, natural, natural, element_length_of_le _ (by omega) (by omega),
      element_length_of_lt _ (by omega), modulus, other]
  have inner : (element sequenceTag k.numbers).length = 138 := by
    rw [element_length_of_le _ (by omega) (by omega), pair]
  have string : (element bitStringTag (0 :: element sequenceTag k.numbers)).length = 142 := by
    have content : (0 :: element sequenceTag k.numbers).length = 139 := by
      rw [List.length_cons, inner]
    rw [element_length_of_le _ (by omega) (by omega), content]
  have content : (algorithm ++
      element bitStringTag (0 :: element sequenceTag k.numbers)).length = 157 := by
    rw [List.length_append, algorithm_length, string]
  rw [encode_eq, element_length_of_le _ (by omega) (by omega), content]

end PublicKey

/-! ## Private keys -/

namespace PrivateKey

variable {k : PrivateKey}

/-- The written form of a key with a given coefficient of its factors. -/
def written (k : PrivateKey) (coefficient : Nat) : Bytes :=
  element sequenceTag
    (natural 0 ++ (algorithm ++ element octetStringTag (k.encodeNumbers coefficient)))

theorem encode?_eq (k : PrivateKey) : k.encode? = k.coefficient?.map k.written := by
  unfold encode?
  cases k.coefficient? with
  | none => rfl
  | some coefficient => rfl

/-- The numbers of a key with a given coefficient of its factors, in the order in which they are
written. -/
def allNumbers (k : PrivateKey) (coefficient : Nat) : List Nat :=
  [0, k.modulus, k.exponent, k.secret, k.p, k.q, k.secret % (k.p - 1), k.secret % (k.q - 1),
    coefficient]

theorem encodeNumbers_eq (k : PrivateKey) (coefficient : Nat) : k.encodeNumbers coefficient =
    element sequenceTag ((k.allNumbers coefficient).flatMap natural) := rfl

theorem decodeNumbers?_encodeNumbers {coefficient : Nat} (sound : k.isSound = true)
    (fits : (k.encodeNumbers coefficient).length ≤ maxLength) :
    decodeNumbers? (k.encodeNumbers coefficient) = some k := by
  have whole := length_lt_element sequenceTag ((k.allNumbers coefficient).flatMap natural)
  rw [← encodeNumbers_eq] at whole
  have read : ∀ n ∈ k.allNumbers coefficient, ∀ rest,
      readNatural? (natural n ++ rest) = some (n, rest) := by
    intro n mem rest
    apply readNatural?_natural
    have part : (natural n).length ≤ ((k.allNumbers coefficient).flatMap natural).length := by
      rw [List.flatMap_def]
      exact (List.sublist_flatten_of_mem (List.mem_map_of_mem mem)).length_le
    have content := length_lt_element integerTag (naturalContent n)
    rw [← natural] at content
    omega
  unfold decodeNumbers?
  rw [encodeNumbers_eq, readAll?_element (by omega)]
  simp only [allNumbers, List.forall_mem_cons] at read ⊢
  obtain ⟨-, modulus, exponent, secret, p, q, first, second, third, -⟩ := read
  simp only [List.flatMap_cons, List.flatMap_nil, Option.bind_eq_bind, Option.bind_some,
    expect?_append, modulus, exponent, secret, p, q, first, second, third]
  simp [sound]

/-- A sound key is read back from its written form, whatever its coefficient is given as. -/
theorem decode?_written {coefficient : Nat} (sound : k.isSound = true)
    (fits : (k.written coefficient).length ≤ maxLength) :
    decode? (k.written coefficient) = some k := by
  have whole := length_lt_element sequenceTag
    (natural 0 ++ (algorithm ++ element octetStringTag (k.encodeNumbers coefficient)))
  have string := length_lt_element octetStringTag (k.encodeNumbers coefficient)
  rw [← written] at whole
  simp only [List.length_append] at whole
  have fitting : (k.encodeNumbers coefficient).length ≤ maxLength := by omega
  have numbers := read?_element octetStringTag fitting []
  rw [List.append_nil] at numbers
  have zero : (naturalContent 0).length ≤ maxLength := by
    rw [naturalContent_length]
    decide
  have version := readNatural?_natural zero
    (algorithm ++ element octetStringTag (k.encodeNumbers coefficient))
  unfold decode? written
  rw [readAll?_element (by simp; omega)]
  simp only [Option.bind_eq_bind, Option.bind_some, version, expect?_append, numbers]
  exact decodeNumbers?_encodeNumbers sound (by omega)

/-- How many bytes numbers take at most: those for their bits, and seven to spare. -/
def room (ns : List Nat) : Nat := (ns.map fun n => bits n / 8 + 7).sum

theorem flatMap_natural_length_le : ∀ {ns : List Nat}, room ns ≤ maxLength →
    (ns.flatMap natural).length ≤ room ns
  | [], _ => Nat.zero_le _
  | n :: ns, fits => by
    have parts : room (n :: ns) = bits n / 8 + 7 + room ns := List.sum_cons
    have content : (naturalContent n).length = bits n / 8 + 1 := naturalContent_length n
    have whole := element_length_le integerTag (show (naturalContent n).length ≤ maxLength by omega)
    have rest := flatMap_natural_length_le (show room ns ≤ maxLength by omega)
    rw [List.flatMap_cons, List.length_append, natural]
    omega

theorem written_fits {coefficient : Nat}
    (fits : room (k.allNumbers coefficient) + 36 ≤ maxLength) :
    (k.written coefficient).length ≤ maxLength := by
  have content : ((k.allNumbers coefficient).flatMap natural).length ≤ _ :=
    flatMap_natural_length_le (show room (k.allNumbers coefficient) ≤ maxLength by omega)
  have numbers : (k.encodeNumbers coefficient).length ≤ room (k.allNumbers coefficient) + 6 := by
    have whole := element_length_le sequenceTag (content.trans (by omega))
    rw [← encodeNumbers_eq] at whole
    omega
  have string := element_length_le octetStringTag (numbers.trans (by omega))
  have zero : (natural 0).length = 3 := by
    have one : (naturalContent 0).length = 1 := naturalContent_length 0
    rw [natural, element_length_of_lt _ (by omega), one]
  have info : (natural 0 ++ (algorithm ++
      element octetStringTag (k.encodeNumbers coefficient))).length ≤
        room (k.allNumbers coefficient) + 30 := by
    rw [List.length_append, List.length_append, zero, algorithm_length]
    omega
  have whole := element_length_le sequenceTag (info.trans (by omega))
  unfold written
  omega

/-! ## What is read as a key -/

/-- How many bytes the numbers of a key take that do not follow from others. -/
def ownLength (k : PrivateKey) : Nat :=
  bits k.modulus / 8 + bits k.exponent / 8 + bits k.secret / 8 + bits k.p / 8 + bits k.q / 8 + 5

theorem of_decodeNumbers? {bs : Bytes} (h : decodeNumbers? bs = some k) :
    k.isSound = true ∧ k.ownLength ≤ bs.length := by
  simp only [decodeNumbers?, Option.bind_eq_bind, Option.bind_eq_some_iff, Prod.exists] at h
  obtain ⟨all, whole, _, front, _, _, modulus, _, _, exponent, _, _, secret, _, _, p, _, _, q, _, _, -,
    _, _, -, _, _, -, h⟩ := h
  replace whole := length_of_readAll? whole
  replace front := length_of_expect? front
  replace modulus := length_of_readNatural? modulus
  replace exponent := length_of_readNatural? exponent
  replace secret := length_of_readNatural? secret
  replace p := length_of_readNatural? p
  replace q := length_of_readNatural? q
  split at h
  · rename_i accepted
    cases h
    rw [Bool.and_eq_true] at accepted
    refine ⟨accepted.2, ?_⟩
    simp only [ownLength]
    omega
  · cases h

/-- What is read as a key is sound, and it is read from as many bytes as it takes. -/
theorem of_decode? {bs : Bytes} (h : decode? bs = some k) :
    k.isSound = true ∧ k.ownLength ≤ bs.length := by
  simp only [decode?, Option.bind_eq_bind, Option.bind_eq_some_iff, Prod.exists] at h
  obtain ⟨_, whole, _, _, version, _, front, numbers, _, string, _, -, h⟩ := h
  replace whole := length_of_readAll? whole
  replace version := length_of_readNatural? version
  replace front := length_of_expect? front
  replace string := length_of_read? string
  split at h
  · obtain ⟨sound, length⟩ := of_decodeNumbers? h
    exact ⟨sound, by omega⟩
  · cases h

end PrivateKey

end Rsa

end EncryptedBackup
