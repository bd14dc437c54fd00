/-
Keys that are saved come back. A key that a keyring obtained is sound (`Obtained.isSound`), and so the
text that it is saved as is accepted by every keyring, in white space too, which then saves the same
text and decrypts as the first one does (`saved_key_returns`). What was written for the last three
numbers of a key does not matter: they are computed anew.
-/
import EncryptedBackup.Proofs.Crypto.Keyrings
import EncryptedBackup.Proofs.Crypto.Rsa.Roots
import EncryptedBackup.Proofs.Keyring.Generation

namespace EncryptedBackup

namespace Rsa.PrivateKey

variable {k : PrivateKey}

theorem isSound_of_made (promise : k.toPublic.Made) (sound : k.Sound) : k.isSound = true := by
  simp [isSound, promise.isSound, sound.one_lt_p, sound.one_lt_q, sound.product, sound.inverse_p,
    sound.inverse_q]

/-- A key of factors that are coprime has a coefficient, and is written with it. -/
theorem exists_written (sound : k.Sound) (coprime : Nat.Coprime k.p k.q) :
    ∃ coefficient, k.IsCoefficient coefficient ∧ k.encode? = some (k.written coefficient) := by
  obtain ⟨coefficient, found⟩ := inverseMod?_of_coprime coprime.symm
  have positive : 0 < k.p := Nat.zero_lt_of_lt sound.one_lt_p
  refine ⟨coefficient, IsCoefficient.of_coefficient? positive found, ?_⟩
  rw [encode?_eq]
  show (inverseMod? k.q k.p).map _ = _
  rw [found]
  rfl

/-- What follows from the other numbers takes no more room than they do. -/
theorem written_fits_of_own {coefficient : Nat} (sound : k.Sound) (below : coefficient < k.p)
    (short : 2 * k.ownLength + 100 ≤ Der.maxLength) :
    (k.written coefficient).length ≤ Der.maxLength := by
  have p := sound.one_lt_p
  have q := sound.one_lt_q
  have first : bits (k.secret % (k.p - 1)) ≤ bits k.p :=
    bits_mono ((Nat.mod_lt _ (by omega)).le.trans (Nat.sub_le _ _))
  have second : bits (k.secret % (k.q - 1)) ≤ bits k.q :=
    bits_mono ((Nat.mod_lt _ (by omega)).le.trans (Nat.sub_le _ _))
  have third : bits coefficient ≤ bits k.p := bits_mono below.le
  have product : bits k.p + bits k.q ≤ bits k.modulus + 1 := by
    rw [← sound.product]
    exact bits_add_le (by omega) (by omega)
  have zero : bits 0 = 0 := rfl
  apply written_fits
  simp only [room, allNumbers, List.map_cons, List.map_nil, List.sum_cons, List.sum_nil, zero]
  unfold ownLength at short
  omega

theorem ownLength_le_of_made (promise : k.toPublic.Made) (sound : k.Sound)
    (secret : k.secret < k.modulus) : k.ownLength ≤ 645 := by
  have modulus : bits k.modulus = 1024 := promise.size
  have exponent : k.exponent ≤ k.modulus := by
    have accepted := promise.isSound
    simp only [PublicKey.isSound, Bool.and_eq_true, decide_eq_true_eq] at accepted
    exact accepted.2.le
  have p : k.p ≤ k.modulus := by
    rw [← sound.product]
    exact Nat.le_mul_of_pos_right _ (Nat.zero_lt_of_lt sound.one_lt_q)
  have q : k.q ≤ k.modulus := by
    rw [← sound.product]
    exact Nat.le_mul_of_pos_left _ (Nat.zero_lt_of_lt sound.one_lt_p)
  replace exponent := bits_mono exponent
  replace secret := bits_mono secret.le
  replace p := bits_mono p
  replace q := bits_mono q
  unfold ownLength
  omega

end Rsa.PrivateKey

/-- The secret exponent of a key that is made is below `(p - 1) * (q - 1)`. -/
theorem Rsa.secret_lt_of_generate? {source rest : Entropy} {key : PrivateKey}
    (h : generate? source = some (key, rest)) : key.secret < key.modulus := by
  obtain ⟨⟨p, q, formed⟩, accepted, -⟩ := formed_of_generate? h
  have sound := PrivateKey.Sound.of_isSound accepted
  unfold keyOf? at formed
  obtain ⟨secret, inverse, formed⟩ := Option.bind_eq_some_iff.1 formed
  cases formed
  have positive : 0 < (p - 1) * (q - 1) :=
    Nat.mul_pos (Nat.sub_pos_of_lt sound.one_lt_p) (Nat.sub_pos_of_lt sound.one_lt_q)
  calc secret < (p - 1) * (q - 1) := (inverseMod?_spec positive inverse).2
    _ ≤ p * q := Nat.mul_le_mul (Nat.sub_le ..) (Nat.sub_le ..)

namespace RsaKeyring

/-! ## Loading -/

/-- Offer a keyring a text: what it refuses leaves it as it is. -/
def offer (r : RsaKeyring) (text : String) : Except Error Unit × RsaKeyring :=
  match r.load text with
  | .ok loaded => (.ok (), loaded)
  | .error e => (.error e, r)

variable {r r₀ : RsaKeyring} {key : Rsa.PrivateKey} {text : String}

theorem offer_of_load {loaded : RsaKeyring} (accepted : r.load text = .ok loaded) :
    r.offer text = (.ok (), loaded) := by
  unfold offer
  rw [accepted]

theorem offer_of_refused {e : Error} (refused : (r.offer text).1 = .error e) :
    (r.offer text).2 = r := by
  unfold offer at refused ⊢
  split at refused
  · cases refused
  · rfl

/-- What is loaded is a sound key that takes no more bytes than the text has characters. -/
theorem of_load (accepted : r₀.load text = .ok r) (held : r.key = some key) :
    key.isSound = true ∧ key.ownLength ≤ text.toList.length := by
  unfold load at accepted
  split at accepted
  · cases accepted
  · rename_i bs denoted
    split at accepted
    · cases accepted
    · rename_i decoded
      cases accepted
      cases held
      obtain ⟨sound, length⟩ := Rsa.PrivateKey.of_decode? decoded
      have shorter := Text.Base64.length_of_decodeChars? denoted
      have trimmed := Text.trim_length_le text
      exact ⟨sound, by omega⟩

/-- The written form of a key is loaded from any white space around it. -/
theorem load_between {bs : Bytes} {before after : List Char}
    (decoded : Rsa.PrivateKey.decode? bs = some key)
    (front : ∀ c ∈ before, Text.isBlank c = true) (back : ∀ c ∈ after, Text.isBlank c = true) :
    r.load (String.ofList (before ++ ((Text.Base64.encode bs).toList ++ after))) =
      .ok { r with key := some key } := by
  have trimmed := Text.trim_between (Text.Base64.solid_encode bs) front back
  unfold load
  rw [trimmed, Text.Base64.decode?_encode]
  simp only [decoded]

/-- What a keyring decrypts depends on its key alone. -/
theorem unwrap_congr (same : r₀.key = r.key) (c : Bytes) : r₀.unwrap c = r.unwrap c := by
  unfold unwrap
  rw [same]

/-! ## Keys that a keyring obtained -/

/-- How a keyring comes by its key: from a text that it accepts, whatever that says about the numbers
that follow from the others, or from a generator that keeps its promise. -/
inductive Obtained (r : RsaKeyring) (key : Rsa.PrivateKey) : Prop
  | loaded {r₀ : RsaKeyring} {text : String} (accepted : r₀.load text = .ok r)
      (held : r.key = some key)
  | made {r₀ : RsaKeyring} {source : Entropy} {field : Bytes} (promise : key.toPublic.Made)
      (sound : key.Sound) (kept : r₀.hold (some (key, source)) = (.ok field, r))

namespace Obtained

theorem held (obtained : r.Obtained key) : r.key = some key := by
  cases obtained with
  | loaded accepted held => exact held
  | made promise sound kept => exact (key_of_hold kept).1

theorem isSound (obtained : r.Obtained key) : key.isSound = true := by
  cases obtained with
  | loaded accepted held => exact (of_load accepted held).1
  | made promise sound kept => exact Rsa.PrivateKey.isSound_of_made promise sound

/-- A keyring that made a key obtained one that keeps the promise. -/
theorem of_generate {field : Bytes} (generated : r₀.generate = (.ok field, r)) :
    ∃ key, r.Obtained key ∧ key.toPublic.Made ∧ key.secret < key.modulus := by
  obtain ⟨key, source, drawn, kept⟩ := drawn_of_generate generated
  obtain ⟨promise, sound⟩ := Rsa.made_of_generate? drawn
  exact ⟨key, made promise (.of_isSound sound) kept, promise, Rsa.secret_lt_of_generate? drawn⟩

end Obtained

/-- Every keyring accepts a text, within white space too, and then saves the same text and decrypts
whatever it is given as this one does. -/
def RestoredBy (r : RsaKeyring) (s : String) : Prop :=
  ∀ (other : RsaKeyring) (before after : List Char),
    (∀ c ∈ before, Text.isBlank c = true) → (∀ c ∈ after, Text.isBlank c = true) →
    ∃ loaded, other.offer (String.ofList (before ++ (s.toList ++ after))) = (.ok (), loaded) ∧
      loaded.save = .ok s ∧ ∀ c, loaded.unwrap c = r.unwrap c

theorem restoredBy_encode {bs : Bytes} (decoded : Rsa.PrivateKey.decode? bs = some key)
    (encoded : key.encode? = some bs) (held : r.key = some key) :
    r.RestoredBy (Text.Base64.encode bs) := by
  intro other before after front back
  refine ⟨{ other with key := some key }, offer_of_load (load_between decoded front back),
    save_of_encode? rfl encoded, ?_⟩
  intro c
  exact unwrap_congr held.symm c

/-- A key of coprime factors is saved as a text without white space: its written form, in which the
last three numbers follow from the others, and which restores the key if it is not too long to be
read. That of a key that is made never is, nor that of a key that was loaded from a text of less than
half that length. Every keyring that made a key obtained one of this kind, and a keyring that refuses a
text is left as it was. -/
theorem saved_key_returns (obtained : r.Obtained key) (coprime : Nat.Coprime key.p key.q) :
    (∃ coefficient bs s, key.IsCoefficient coefficient ∧ bs = key.written coefficient ∧
      s = Text.Base64.encode bs ∧ r.save = .ok s ∧ (∀ c ∈ s.toList, Text.isBlank c = false) ∧
      (bs.length ≤ Der.maxLength → r.RestoredBy s) ∧
      (key.toPublic.Made → key.secret < key.modulus → bs.length ≤ Der.maxLength) ∧
      ∀ (r₀ : RsaKeyring) (text : String), r₀.load text = .ok r →
        2 * text.toList.length + 100 ≤ Der.maxLength → bs.length ≤ Der.maxLength) ∧
    (∀ (r₀ made : RsaKeyring) (field : Bytes), r₀.generate = (.ok field, made) →
      ∃ key, made.Obtained key ∧ key.toPublic.Made ∧ key.secret < key.modulus) ∧
    ∀ (other : RsaKeyring) (text : String) (e : Error),
      (other.offer text).1 = .error e → (other.offer text).2 = other := by
  have accepted := obtained.isSound
  have sound := Rsa.PrivateKey.Sound.of_isSound accepted
  have held := obtained.held
  obtain ⟨coefficient, inverse, encoded⟩ := Rsa.PrivateKey.exists_written sound coprime
  refine ⟨?_, ?_, ?_⟩
  · refine ⟨coefficient, _, _, inverse, rfl, rfl, save_of_encode? held encoded,
      Text.Base64.solid_encode _, ?_, ?_, ?_⟩
    · intro fits
      exact restoredBy_encode (Rsa.PrivateKey.decode?_written accepted fits) encoded held
    · intro promise secret
      have own := Rsa.PrivateKey.ownLength_le_of_made promise sound secret
      have room : 2 * 645 + 100 ≤ Der.maxLength := by decide
      exact Rsa.PrivateKey.written_fits_of_own sound inverse.below (by omega)
    · intro r₀ text loaded short
      have own := (of_load loaded held).2
      exact Rsa.PrivateKey.written_fits_of_own sound inverse.below (by omega)
  · intro r₀ made field generated
    exact Obtained.of_generate generated
  · intro other text e refused
    exact offer_of_refused refused

/-! ## A key that is not saved as it was loaded -/

/-- A small key, the second of its factors the larger. -/
def smallKey : Rsa.PrivateKey := { modulus := 55, exponent := 3, secret := 7, p := 5, q := 11 }

theorem saved_key_returns_small :
    ∃ s, RsaKeyring.save { key := some smallKey, source := { seed := [] } } = .ok s ∧
      RsaKeyring.RestoredBy { key := some smallKey, source := { seed := [] } } s := by
  have accepted : smallKey.isSound = true := by decide
  have fits {coefficient : Nat} (below : coefficient < smallKey.p) :
      (smallKey.written coefficient).length ≤ Der.maxLength :=
    Rsa.PrivateKey.written_fits_of_own (.of_isSound accepted) below (by decide)
  -- the text that is loaded has a zero for the coefficient
  have zero : 0 < smallKey.p := by decide
  have loaded := load_encode { source := { seed := [] } }
    (Rsa.PrivateKey.decode?_written accepted (fits zero))
  obtain ⟨⟨coefficient, _, s, inverse, rfl, -, saved, -, restored, -, -⟩, -, -⟩ :=
    saved_key_returns (.loaded loaded rfl) (by decide)
  exact ⟨s, saved, restored (fits inverse.below)⟩

end RsaKeyring

end EncryptedBackup
