/-
Private keys as text. What a keyring saves stands on a line of its own (`isLine_of_save`), and the
written form of a key, as text, is loaded as that key (`load_encode`). So it is with a pair that is
given beforehand (`PresetKeyring.generate_encode`, `PresetKeyring.load_encode`).
-/
import EncryptedBackup.Keyring.Rsa
import EncryptedBackup.Proofs.Text.Base64

namespace EncryptedBackup

namespace RsaKeyring

theorem load_encode (r : RsaKeyring) {key : Rsa.PrivateKey} {bs : Bytes}
    (decoded : Rsa.PrivateKey.decode? bs = some key) :
    r.load (Text.Base64.encode bs) = .ok { r with key := some key } := by
  unfold load
  rw [Text.trim_of_solid (Text.Base64.solid_encode bs), Text.Base64.decode?_encode]
  simp only [decoded]

/-- A text that is no key is an error of the keys. -/
theorem keys_of_load {r : RsaKeyring} {text : String} {e : Error} (unusable : r.load text = .error e) :
    ∃ defect, e = .keys defect := by
  unfold load at unusable
  split at unusable
  · cases unusable
    exact ⟨_, rfl⟩
  split at unusable
  · cases unusable
    exact ⟨_, rfl⟩
  · cases unusable

theorem save_of_encode? {r : RsaKeyring} {key : Rsa.PrivateKey} {bs : Bytes}
    (held : r.key = some key) (written : key.encode? = some bs) :
    r.save = .ok (Text.Base64.encode bs) := by
  unfold save
  simp only [held, written]

theorem unwrap_of_decrypt {r : RsaKeyring} {key : Rsa.PrivateKey} {ciphertext message : Bytes}
    (held : r.key = some key) (decrypted : Oaep.decrypt key ciphertext = .ok message) :
    r.unwrap ciphertext = .ok message := by
  unfold unwrap
  simp only [held, decrypted]

theorem length_of_hold {r made : RsaKeyring} {field : Bytes}
    (drawn : Option (Rsa.PrivateKey × Entropy)) (held : r.hold drawn = (.ok field, made)) :
    field.length = Wire.publicKeyWidth := by
  unfold hold at held
  split at held
  · cases held
  · simp only at held
    split at held
    · cases held
      assumption
    · cases held

/-- The public half of a key that is made fills its field. -/
theorem length_of_generate {r made : RsaKeyring} {field : Bytes}
    (generated : r.generate = (.ok field, made)) : field.length = Wire.publicKeyWidth :=
  length_of_hold (Rsa.generate? r.source) generated

/-- A key that is saved stands on a line of its own. -/
theorem isLine_of_save {r : RsaKeyring} {text : String} (saved : r.save = .ok text) :
    Text.IsLine text := by
  unfold save at saved
  split at saved
  · cases saved
  split at saved
  · cases saved
  rename_i bs written
  cases saved
  unfold Rsa.PrivateKey.encode? at written
  obtain ⟨coefficient, -, written⟩ := Option.bind_eq_some_iff.1 written
  cases written
  exact Text.Base64.isLine_encode (List.cons_ne_nil _ _)

end RsaKeyring

namespace PresetKeyring

/-- The keyring with a key. -/
def holding (r : PresetKeyring) (key : Rsa.PrivateKey) : PresetKeyring :=
  { r with ring := { r.ring with key := some key } }

variable {r : PresetKeyring} {key : Rsa.PrivateKey} {bs : Bytes}

theorem load_encode (r : PresetKeyring) (decoded : Rsa.PrivateKey.decode? bs = some key) :
    Keyring.load r (Text.Base64.encode bs) = .ok (r.holding key) := by
  have loaded := r.ring.load_encode decoded
  show (r.ring.load (Text.Base64.encode bs)).map _ = _
  rw [loaded]
  rfl

theorem generate_encode (preset : r.privateText = Text.Base64.encode bs)
    (decoded : Rsa.PrivateKey.decode? bs = some key) :
    Keyring.generate r = (.ok r.publicField, r.holding key) := by
  have loaded := r.ring.load_encode decoded
  rw [← preset] at loaded
  simp only [Keyring.generate, loaded]
  rfl

end PresetKeyring

end EncryptedBackup
