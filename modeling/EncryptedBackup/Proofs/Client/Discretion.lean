/-
Backups keep their session key to themselves. Against two servers whose words differ in encrypted
keys only, a backup ends in the same way, leaves the same log and the same files, and sends the same
requests but for ciphertext (`backup_betrays_no_key`).
-/
import EncryptedBackup.Client
import EncryptedBackup.Keyring.Toy
import EncryptedBackup.Proofs.Handshake.Discretion
import EncryptedBackup.Proofs.Upload.Discretion

namespace EncryptedBackup

variable {κ σ : Type} [Keyring κ] [Server σ]

/-- A backup is its own twin. -/
theorem Client.twins_backup {ring : κ} (veils : Veils ring) (veils' : Veils (Keyring.generate ring).2)
    (peer : String) (path : Path) (options : UploadOptions) :
    Handshake.Twins ring (· = ring) (fun held => held = ring ∨ held = (Keyring.generate ring).2) Eq
      (backup peer path options : Handshake κ (InWorld σ) Report) (backup peer path options) := by
  refine (Handshake.twins_establish peer).andThen fun _ => ?_
  refine Handshake.Twins.session.bind fun s s' ⟨resembles, held⟩ => ?_
  have sealing : Veils s.keyring := by
    obtain same | same := held
    · exact same ▸ veils
    · exact same ▸ veils'
  exact .perform (Upload.twins_sendFile resembles sealing path options)

/-- No word about the key. Let two servers recite texts that differ in encrypted session keys only,
each of which opens, and let encryption hide all of a plaintext but its length. Then a backup has the
same outcome with either of them; the log and the files are the same in the end, and so are all
requests up to the ciphertext in their packets. The sessions differ in the key that they hold at
most. -/
theorem backup_betrays_no_key (s : Session κ) (w : World σ) (server : σ) {texts texts' : List Bytes}
    (ready : w.line.Ready) (recites : Recites w.line.server texts) (recites' : Recites server texts')
    (lengths : texts.map List.length = texts'.map List.length)
    (echoes : Echoes s.keyring (w.line.arriving ++ texts.flatten)
      (w.line.arriving ++ texts'.flatten))
    (veils : Veils s.keyring) (veils' : Veils (Keyring.generate s.keyring).2) (peer : String)
    (path : Path) (options : UploadOptions) :
    ∃ (outcome : Except Error Report) (t t' : Session κ) (v v' : World σ),
      w.conduct s (Client.backup peer path options) = (outcome, t, v) ∧
      { w with line := { w.line with server } }.conduct s (Client.backup peer path options) =
        (outcome, t', v') ∧
      v.log = v'.log ∧ v.disk = v'.disk ∧
      v.line.taken.map Frame.outline = v'.line.taken.map Frame.outline ∧ t.Resembles t' := by
  have alike : w.Alike s.keyring { w with line := { w.line with server } } :=
    { disk := rfl, log := rfl
      line :=
        { isOpen := rfl, conditions := rfl, count := rfl, ready, ready' := ready, taken := rfl
          arriving := rfl, said := ⟨texts, texts', ⟨recites, recites', lengths⟩, echoes⟩ } }
  have twins := Client.twins_backup veils veils' peer path options _ _ s s alike ⟨s.key, rfl, rfl⟩ rfl
  obtain ⟨outcome, resembles, shown⟩ := twins.outcome fun _ _ state => ⟨state.1, state.2.2.shown⟩
  obtain ⟨disk, log, taken⟩ := World.shown_iff.1 shown
  exact ⟨_, _, _, _, _, rfl, congrArg (·, _, _) outcome.symm, log, disk, taken, resembles⟩

/-! ## Two keys for one client -/

/-- The stand-in encrypts so too, unless it is told to fail. -/
theorem ToyKeyring.veils {ring : ToyKeyring} (willing : .encrypt ∉ ring.failing) : Veils ring := by
  refine ⟨id, fun key bs => ⟨Bytes.xor bs
    (List.replicate (bs.length / key.bytes.length + 1) key.bytes).flatten, ?_, ?_⟩⟩
  · show ToyKeyring.encrypt ring key bs = _
    unfold ToyKeyring.encrypt attempt
    rw [if_neg willing]
    rfl
  · have nonempty : 0 < key.bytes.length := by
      have := key.length_valid
      omega
    have enough := Nat.lt_mul_div_succ bs.length nonempty
    unfold Bytes.xor
    rw [List.length_zipWith, List.length_flatten, List.map_replicate, List.sum_replicate_nat,
      Nat.mul_comm]
    exact Nat.min_eq_left (Nat.le_of_lt enough)

/-- What a server says to a new client: an id, a session key, and a checksum that it confirms. -/
def welcome (encrypted : Bytes) : List Bytes :=
  [⟨3, .registered, .bare (some .unset)⟩, ⟨3, .publicKeyReceived, .withKey .unset encrypted⟩,
    ⟨3, .fileReceived, .checksum .unset 3 "notes" (checksum [1, 2, 3])⟩,
    ⟨3, .messageReceived, .bare none⟩].map fun a : Answer => a.header.encode ++ a.body.encode

/-- An open line to such a server, and three bytes of notes. -/
def welcomed (encrypted : Bytes) : World Script :=
  { disk := { entries := [([Utf8.encode "notes"], .file 0)], contents := [#[1, 2, 3]] }
    line := { server := { replies := (welcome encrypted).map .bytes }, isOpen := true }
    network := .error .connectionRefused }

/-- A client that is new. -/
def newcomer : Session ToyKeyring := .fresh "alice" {} (.ofText "me.info")

/-- The backup of the newcomer, with a session key of sixteen times the same byte. -/
def welcomedBackup (b : UInt8) : Except Error Report × Session ToyKeyring × World Script :=
  (welcomed (List.replicate 16 b)).conduct newcomer
    (Client.backup "localhost:1256" (.ofText "notes") {})

/-- Two backups that succeed, under different keys. -/
theorem backup_betrays_no_key_newcomer :
    ∃ (t t' : Session ToyKeyring) (v v' : World Script),
      welcomedBackup 1 = (.ok ⟨"notes", 3, 1, 1, checksum [1, 2, 3], .ofNanos 0⟩, t, v) ∧
      welcomedBackup 2 = (.ok ⟨"notes", 3, 1, 1, checksum [1, 2, 3], .ofNanos 0⟩, t', v') ∧
      t.key ≠ t'.key ∧ v.log = v'.log ∧ v.disk = v'.disk ∧
      v.line.taken.map Frame.outline = v'.line.taken.map Frame.outline := by
  have opens (b : UInt8) :
      Opens (keyringAt newcomer.keyring .publicKeyReceived) (List.replicate 16 b) :=
    ⟨⟨List.replicate 16 b, .inl List.length_replicate⟩, rfl⟩
  have first : (welcomedBackup 1).1.toOption =
      some ⟨"notes", 3, 1, 1, checksum [1, 2, 3], .ofNanos 0⟩ := by decide +kernel
  have differ : (welcomedBackup 1).2.1.key ≠ (welcomedBackup 2).2.1.key := by decide +kernel
  obtain ⟨outcome, t, t', v, v', ran, ran', log, disk, taken, -⟩ :=
    backup_betrays_no_key newcomer (welcomed (List.replicate 16 1)) _ rfl
      (Script.recites (welcome (List.replicate 16 1)) [] { seed := [] })
      (Script.recites (welcome (List.replicate 16 2)) [] { seed := [] }) rfl
      (.frame _ _ rfl (.key _ .unset rfl (.inl rfl) rfl rfl (opens 1) (opens 2) (.same _)))
      (ToyKeyring.veils nofun) (ToyKeyring.veils nofun) "localhost:1256" (.ofText "notes") {}
  rw [show welcomedBackup 1 = _ from ran] at first differ ⊢
  rw [show welcomedBackup 2 = _ from ran'] at differ ⊢
  obtain rfl := ok_of_toOption first
  exact ⟨t, t', v, v', rfl, rfl, differ, log, disk, taken⟩

end EncryptedBackup
