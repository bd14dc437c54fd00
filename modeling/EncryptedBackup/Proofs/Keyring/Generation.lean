/-
Keys that are made. What a generator promises of the public half (`Rsa.PublicKey.Made`) settles the
length of its written form, so it fills its field of a request and leaves nothing of it over
(`RsaKeyring.hold_fills_field`). A keyring that fails to make a key keeps the one it has.
-/
import EncryptedBackup.Keyring.Rsa
import EncryptedBackup.Proofs.Crypto.Rsa.Encoding
import EncryptedBackup.Proofs.Wire.Framing

namespace EncryptedBackup

open Wire

namespace Rsa

/-! ## What a generator promises -/

/-- The public half of a key that is made: a modulus of the size in use, the exponent in use, and, as
the factors are primes of half that size, an odd modulus. -/
structure PublicKey.Made (k : PublicKey) : Prop where
  size : bits k.modulus = modulusBits
  exponent : k.exponent = Rsa.exponent
  odd : k.modulus % 2 = 1

theorem PublicKey.Made.isSound {k : PublicKey} (made : k.Made) : k.isSound = true := by
  have large : 2 ^ 5 ≤ k.modulus := by
    rw [← lt_bits_iff, made.size]
    decide
  have above : 17 < k.modulus := by omega
  have exponent : k.exponent = 17 := made.exponent
  simp [PublicKey.isSound, made.odd, exponent, above]

theorem exponent_of_keyOf? {p q : Nat} {key : PrivateKey} (h : keyOf? p q = some key) :
    key.exponent = exponent := by
  unfold keyOf? at h
  obtain ⟨secret, -, h⟩ := Option.bind_eq_some_iff.1 h
  cases h
  rfl

theorem odd_of_isSound {key : PrivateKey} (h : key.isSound = true) : key.modulus % 2 = 1 := by
  simp only [PrivateKey.isSound, PublicKey.isSound, Bool.and_eq_true, beq_iff_eq] at h
  exact h.1.1.1.1.1.1.1.1.1

section

variable {source rest : Entropy} {key : PrivateKey}

theorem formed_of_generate? (h : generate? source = some (key, rest)) :
    (∃ p q, keyOf? p q = some key) ∧ key.isSound = true ∧ bits key.modulus = modulusBits := by
  simp only [generate?, Option.bind_eq_bind, Option.bind_eq_some_iff, Prod.exists] at h
  obtain ⟨p, _, -, q, _, -, drawn, formed, h⟩ := h
  split at h
  · rename_i accepted
    cases h
    simp only [Bool.and_eq_true, beq_iff_eq] at accepted
    obtain ⟨⟨-, sound⟩, size⟩ := accepted
    exact ⟨⟨p, q, formed⟩, sound, size⟩
  · cases h

/-- The promise is kept. -/
theorem made_of_generate? (h : generate? source = some (key, rest)) :
    key.toPublic.Made ∧ key.isSound = true := by
  obtain ⟨⟨p, q, formed⟩, sound, size⟩ := formed_of_generate? h
  exact ⟨⟨size, exponent_of_keyOf? formed, odd_of_isSound sound⟩, sound⟩

end

end Rsa

namespace RsaKeyring

/-! ## Holding a key -/

variable {r made : RsaKeyring} {key : Rsa.PrivateKey} {source : Entropy} {field : Bytes}

theorem hold_of_made (promise : key.toPublic.Made) (r : RsaKeyring) (source : Entropy) :
    r.hold (some (key, source)) = (.ok key.toPublic.encode, { key := some key, source }) := by
  have length : key.toPublic.encode.length = publicKeyWidth :=
    Rsa.PublicKey.encode_length promise.size promise.exponent
  unfold hold
  simp only
  rw [if_pos length]

theorem key_of_hold (held : r.hold (some (key, source)) = (.ok field, made)) :
    made.key = some key ∧ field = key.toPublic.encode := by
  unfold hold at held
  simp only at held
  split at held
  · cases held
    exact ⟨rfl, rfl⟩
  · cases held

/-- A keyring that does not come to hold a key holds what it held. -/
theorem key_of_hold_error {drawn : Option (Rsa.PrivateKey × Entropy)} {e : Error}
    (failed : r.hold drawn = (.error e, made)) : made.key = r.key := by
  unfold hold at failed
  split at failed
  · cases failed
    rfl
  · simp only at failed
    split at failed
    · cases failed
    · cases failed
      rfl

/-- A key that the generator comes up with is held, and its public half is what comes of it. -/
theorem generate_of_drawn (drawn : Rsa.generate? r.source = some (key, source)) :
    r.generate = (.ok key.toPublic.encode, { key := some key, source }) := by
  unfold generate
  rw [drawn]
  exact hold_of_made (Rsa.made_of_generate? drawn).1 r source

theorem drawn_of_generate (generated : r.generate = (.ok field, made)) :
    ∃ key source, Rsa.generate? r.source = some (key, source) ∧
      r.hold (some (key, source)) = (.ok field, made) := by
  unfold generate at generated
  cases drawn : Rsa.generate? r.source with
  | none =>
    rw [drawn] at generated
    cases generated
  | some found =>
    rw [drawn] at generated
    exact ⟨found.1, found.2, rfl, generated⟩

/-! ## The field of a public key -/

/-- A field of the right length stands unfilled behind the name. -/
theorem encode_publicKey (id : ClientId) {name : String} (short : (Utf8.encode name).length ≤ 254)
    (full : field.length = publicKeyWidth) :
    ∃ (request : Request) (header nameField : Bytes),
      Request.publicKey id name field = .ok request ∧
      header.length = RequestHeader.length ∧
      Field.ofName 255 name = .ok nameField ∧ nameField.length = 255 ∧
      request.encode = .ok (header ++ (nameField ++ field)) := by
  have room : (Utf8.encode name).length < nameWidth := Nat.lt_succ_of_le short
  obtain ⟨request, accepted, written, -⟩ := Request.publicKey_writes id room full
  refine ⟨request, _, Field.padded nameWidth (Utf8.encode name), accepted, ?_,
    Field.ofName_of_lt room, Field.padded_length _ _, written⟩
  simp

/-- A key that keeps the promise is held, and its public half is a field of 160 bytes that reads back
as that public half and that a request carries as it is, right behind a name of up to 254 bytes. A key
that the generator comes up with keeps the promise, is held, and gives this field; a keyring makes no
other. If none is made, or one of another length, the keyring holds the key it held before. -/
theorem hold_fills_field (r : RsaKeyring) :
    (∀ (key : Rsa.PrivateKey) (source : Entropy), key.toPublic.Made →
      ∃ field, r.hold (some (key, source)) = (.ok field, { key := some key, source }) ∧
        field = key.toPublic.encode ∧ field.length = 160 ∧
        Rsa.PublicKey.decode? field = some key.toPublic ∧
        ∀ (id : ClientId) (name : String), (Utf8.encode name).length ≤ 254 →
          ∃ (request : Request) (header nameField : Bytes),
            Request.publicKey id name field = .ok request ∧
            header.length = RequestHeader.length ∧
            Field.ofName 255 name = .ok nameField ∧ nameField.length = 255 ∧
            request.encode = .ok (header ++ (nameField ++ field))) ∧
    (∀ key source, Rsa.generate? r.source = some (key, source) → key.toPublic.Made ∧
      r.generate = (.ok key.toPublic.encode, { key := some key, source })) ∧
    (∀ field made, r.generate = (.ok field, made) →
      ∃ key, key.toPublic.Made ∧ made.key = some key ∧ field = key.toPublic.encode) ∧
    (∀ e made, r.generate = (.error e, made) → made.key = r.key) ∧
    ∀ drawn e made, r.hold drawn = (.error e, made) → made.key = r.key := by
  refine ⟨?_, ?_, ?_, ?_, ?_⟩
  · intro key source promise
    have length : key.toPublic.encode.length = 160 :=
      Rsa.PublicKey.encode_length promise.size promise.exponent
    have fits : key.toPublic.encode.length ≤ Der.maxLength := by
      rw [length]
      decide
    refine ⟨_, hold_of_made promise r source, rfl, length,
      Rsa.PublicKey.decode?_encode promise.isSound fits, ?_⟩
    intro id name short
    exact encode_publicKey id short length
  · intro key source drawn
    exact ⟨(Rsa.made_of_generate? drawn).1, generate_of_drawn drawn⟩
  · intro field made generated
    obtain ⟨key, source, drawn, held⟩ := drawn_of_generate generated
    obtain ⟨kept, written⟩ := key_of_hold held
    exact ⟨key, (Rsa.made_of_generate? drawn).1, kept, written⟩
  · intro e made failed
    exact key_of_hold_error failed
  · intro drawn e made failed
    exact key_of_hold_error failed

end RsaKeyring

/-! ## A key of two primes -/

/-- A key such as is made, of factors that are easily shown to be primes. -/
def Rsa.primeKey : PrivateKey :=
  (keyOf? (12619 * 2 ^ 498 + 1) (7877 * 2 ^ 499 + 1)).getD ⟨0, 0, 0, 0, 0⟩

theorem Rsa.primeKey_spec :
    primeKey.p = 12619 * 2 ^ 498 + 1 ∧ primeKey.q = 7877 * 2 ^ 499 + 1 ∧
      primeKey.p < primeKey.q ∧ primeKey.secret < primeKey.modulus ∧
      bits primeKey.modulus = 1024 ∧ primeKey.exponent = 17 ∧ primeKey.isSound = true := by
  decide +kernel

theorem Rsa.primeKey_made : primeKey.toPublic.Made := by
  obtain ⟨-, -, -, -, size, exponent, sound⟩ := primeKey_spec
  exact ⟨size, exponent, odd_of_isSound sound⟩

theorem RsaKeyring.hold_fills_field_primeKey :
    ∃ (field : Bytes) (request : Request) (header nameField : Bytes),
      RsaKeyring.hold { source := { seed := [] } } (some (Rsa.primeKey, { seed := [] })) =
        (.ok field, { key := some Rsa.primeKey, source := { seed := [] } }) ∧
      field.length = 160 ∧ Rsa.PublicKey.decode? field = some Rsa.primeKey.toPublic ∧
      Request.publicKey .unset "alice" field = .ok request ∧
      request.encode = .ok (header ++ (nameField ++ field)) := by
  obtain ⟨field, held, -, length, decoded, carried⟩ :=
    (hold_fills_field { source := { seed := [] } }).1 Rsa.primeKey { seed := [] } Rsa.primeKey_made
  obtain ⟨request, header, nameField, accepted, -, -, -, written⟩ :=
    carried .unset "alice" (by decide)
  exact ⟨field, request, header, nameField, held, length, decoded, accepted, written⟩

end EncryptedBackup
