/-
What a client remembers. A text describes an identity if its first three lines have a name, a client id
and a private key (`Identity.parse_eq_ok_iff`). An identity that is stored is loaded again as it was,
and one that was loaded is not changed by storing and loading it (`identity_remembered`).
-/
import EncryptedBackup.Proofs.Crypto.Keyrings
import EncryptedBackup.Proofs.Crypto.Rsa.Encoding
import EncryptedBackup.Proofs.Crypto.Rsa.Roots
import EncryptedBackup.Proofs.Text.Entries
import EncryptedBackup.Proofs.World.Setup
import EncryptedBackup.World.Script

namespace EncryptedBackup

open Text

/-! ## Texts of identities -/

theorem Text.EntryAt.isLine {content t : String} {i : Nat} (entry : EntryAt content i t) : IsLine t :=
  Job.isLine_of_line? (Job.line?_eq_some_iff.2 entry)

namespace Identity

/-- A text describes an identity if its first lines have the parts of it. -/
theorem parse_eq_ok_iff {shownPath content : String} {i : Identity} :
    parse shownPath content = .ok i ↔ EntryAt content 0 i.name ∧
      (∃ id, EntryAt content 1 id ∧ ClientId.ofText id = .ok i.clientId) ∧
      EntryAt content 2 i.privateKey := by
  constructor
  · intro parsed
    unfold parse at parsed
    cases named : Job.line? (lines content) 0 with
    | none => simp [named] at parsed
    | some name =>
      cases numbered : Job.line? (lines content) 1 with
      | none => simp [named, numbered] at parsed
      | some id =>
        cases keyed : Job.line? (lines content) 2 with
        | none => simp [named, numbered, keyed] at parsed
        | some privateKey =>
          simp only [named, numbered, keyed] at parsed
          cases valid : ClientId.ofText id with
          | error defect =>
            rw [valid] at parsed
            cases parsed
          | ok clientId =>
            rw [valid] at parsed
            cases parsed
            exact ⟨Job.line?_eq_some_iff.1 named, ⟨id, Job.line?_eq_some_iff.1 numbered, valid⟩,
              Job.line?_eq_some_iff.1 keyed⟩
  · rintro ⟨named, ⟨id, numbered, valid⟩, keyed⟩
    unfold parse
    simp only [Job.line?_eq_some_iff.2 named, Job.line?_eq_some_iff.2 numbered,
      Job.line?_eq_some_iff.2 keyed, valid]
    rfl

variable {σ : Type} [Server σ] {w : World σ} {path : Path} {i : Identity}

omit [Server σ] in
/-- What is loaded fits on the lines of a file, whatever the file was like. -/
theorem isLine_of_describes (described : w.disk.Describes path (parse path.text) i) :
    IsLine i.name ∧ IsLine i.privateKey := by
  obtain ⟨content, -, parsed⟩ := described
  obtain ⟨named, -, keyed⟩ := parse_eq_ok_iff.1 parsed
  exact ⟨named.isLine, keyed.isLine⟩

/-- What is stored is loaded. -/
theorem load_of_store {w' : World σ} (sound : w.disk.Sound) (name : IsLine i.name)
    (privateKey : IsLine i.privateKey) (stored : w.run (store path i) = (.ok (), w')) :
    w'.run (load path) = (.ok i, w') := by
  obtain ⟨log, ran⟩ := run_store w path i
  rw [stored] at ran
  cases written : w.disk.write path (Utf8.encode i.render) with
  | error fault =>
    rw [written] at ran
    cases ran
  | ok disk =>
    rw [written] at ran
    cases ran
    exact run_load ⟨_, Disk.read_write sound written, parse_render _ name privateKey⟩

/-- What is loaded from a file can be stored there, if the path names the file. -/
theorem exists_store (described : w.disk.Describes path (parse path.text) i)
    (named : path.fileName? ≠ none) : ∃ w', w.run (store path i) = (.ok (), w') := by
  obtain ⟨content, holds, -⟩ := described
  obtain ⟨n, found, -⟩ := Disk.find_of_read holds
  obtain ⟨log, ran⟩ := run_store w path i
  rw [Disk.write_of_find found named] at ran
  exact ⟨_, ran⟩

end Identity

/-! ## Storing and loading -/

/-- What a client remembers is not changed by being stored and loaded. An identity whose name and
private key stand on lines of their own is loaded as it was stored, whatever the file held before; the
name of every job and every private key that is saved are such texts. So is what was loaded from any
file, however that was written: it can be stored at the path again, and then the same is loaded. -/
theorem identity_remembered {σ : Type} [Server σ] :
    (∀ (w w' : World σ) (path : Path) (i : Identity), w.disk.Sound → IsLine i.name →
      IsLine i.privateKey → w.run (Identity.store path i) = (.ok (), w') →
        w'.run (Identity.load path) = (.ok i, w')) ∧
    (∀ (content : String) (job : Job), Job.parse content = .ok job → IsLine job.name) ∧
    (∀ (ring : RsaKeyring) (text : String), Keyring.save ring = .ok text → IsLine text) ∧
    ∀ (w w₁ : World σ) (path : Path) (i : Identity), w.disk.Sound →
      w.run (Identity.load path) = (.ok i, w₁) →
        (path.fileName? ≠ none → ∃ w₂, w₁.run (Identity.store path i) = (.ok (), w₂)) ∧
        ∀ w₂, w₁.run (Identity.store path i) = (.ok (), w₂) →
          w₂.run (Identity.load path) = (.ok i, w₂) := by
  refine ⟨fun _ _ _ _ => Identity.load_of_store, fun _ _ => Job.isLine_name,
    fun _ _ => RsaKeyring.isLine_of_save, ?_⟩
  intro w w₁ path i sound loaded
  obtain ⟨rfl, described⟩ := Identity.describes_of_run_load loaded
  obtain ⟨name, privateKey⟩ := Identity.isLine_of_describes described
  exact ⟨Identity.exists_store described, fun w₂ => Identity.load_of_store sound name privateKey⟩

/-- An identity file as someone might have edited it. -/
def edited : World Script :=
  { disk :=
      { entries := [([Utf8.encode "me.info"], .file 0)]
        contents := [(Utf8.encode
          "\t alice\r\n2A2A2A2A2A2A2A2A2A2A2A2A2A2A2A2A \r\n AAAA\r\nand more").toArray] }
    line := { server := {} }
    network := .ok {} }

def editedIdentity : Identity := ⟨"alice", ⟨List.replicate 16 0x2A, rfl⟩, "AAAA"⟩

/-- A keyring with the key of two small primes. -/
def smallKeyring : RsaKeyring := { key := some ⟨143, 7, 103, 11, 13⟩, source := { seed := [] } }

theorem smallKeyring_save : ∃ text, Keyring.save smallKeyring = .ok text := by
  let key : Rsa.PrivateKey := ⟨143, 7, 103, 11, 13⟩
  obtain ⟨coefficient, found⟩ := inverseMod?_of_coprime (by decide : Nat.Coprime 13 11)
  have written : key.encode? = some (key.written coefficient) := by
    rw [Rsa.PrivateKey.encode?_eq]
    show (inverseMod? 13 11).map _ = _
    rw [found]
    rfl
  exact ⟨_, RsaKeyring.save_of_encode? rfl written⟩

theorem edited_sound : edited.disk.Sound := by
  rintro x (_ | ⟨_, ⟨⟩⟩) n ⟨⟩
  decide

theorem edited_describes : edited.disk.Describes (.ofText "me.info")
    (Identity.parse (Path.ofText "me.info").text) editedIdentity :=
  ⟨_, rfl, rfl⟩

theorem identity_remembered_edited :
    (∃ w, edited.run (Identity.store (.ofText "me.info") ⟨"a\rb", .unset, "key"⟩) = (.ok (), w) ∧
      w.run (Identity.load (.ofText "me.info")) = (.ok ⟨"a\rb", .unset, "key"⟩, w)) ∧
    IsLine "alice" ∧ (∃ text, Keyring.save smallKeyring = .ok text ∧ IsLine text) ∧
    ∃ w, edited.run (Identity.store (.ofText "me.info") editedIdentity) = (.ok (), w) ∧
      w.run (Identity.load (.ofText "me.info")) = (.ok editedIdentity, w) := by
  obtain ⟨stored, named, saved, kept⟩ := identity_remembered (σ := Script)
  refine ⟨⟨_, rfl, ?_⟩, named "localhost\nalice\nnotes" _ rfl, ?_, ?_⟩
  · refine stored _ _ _ _ edited_sound ⟨?_, ?_, ?_⟩ (.of_solid (by decide) (by simp; decide)) rfl
    · decide
    · decide
    · decide
  · obtain ⟨text, written⟩ := smallKeyring_save
    exact ⟨text, written, saved _ _ written⟩
  · obtain ⟨again, still⟩ := kept _ _ _ _ edited_sound (Identity.run_load edited_describes)
    obtain ⟨w, ran⟩ := again (by decide)
    exact ⟨w, ran, still w ran⟩

end EncryptedBackup
