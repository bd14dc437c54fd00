/-
When the identity file changes. An operation leaves the disk alone unless the client is given an id
and then, in answer to its new public key, a key that it can use; then the new identity is saved, or
the operation fails (`Operation.filed`). So it is for every handshake, and for backups too, whatever
becomes of the upload (`identity_filed`).
-/
import EncryptedBackup.Client
import EncryptedBackup.Proofs.Handshake.Resumption
import EncryptedBackup.Proofs.Upload.ReadOnly
import EncryptedBackup.Proofs.World.Disk
import EncryptedBackup.Proofs.Text.Lines

namespace EncryptedBackup

variable {κ : Type} [Keyring κ]

/-! ## The file of an identity -/

theorem Session.write_of_file {s : Session κ} {d d' : Disk} (h : s.file d = .ok d') :
    ∃ privateKey, Keyring.save s.keyring = .ok privateKey ∧
      d.write s.store (Utf8.encode (Identity.mk s.name s.clientId privateKey).render) = .ok d' := by
  obtain ⟨privateKey, exported, h⟩ := exists_of_bind_ok h
  exact ⟨privateKey, exported, ok_of_mapError h⟩

theorem Disk.Sound.file {s : Session κ} {d d' : Disk} (sound : d.Sound) (h : s.file d = .ok d') :
    d'.Sound := by
  obtain ⟨privateKey, -, written⟩ := s.write_of_file h
  exact sound.write written

theorem Session.read_file {s : Session κ} {d d' : Disk} (sound : d.Sound) (h : s.file d = .ok d') :
    ∃ privateKey, Keyring.save s.keyring = .ok privateKey ∧
      d'.read s.store = .ok (Utf8.encode (Identity.mk s.name s.clientId privateKey).render) := by
  obtain ⟨privateKey, exported, written⟩ := s.write_of_file h
  exact ⟨privateKey, exported, Disk.read_write sound written⟩

/-! ## Rounds of a registration -/

namespace Round

omit [Keyring κ] in
theorem code_of_assigned? {x : Round} {id : ClientId} (h : x.assigned? = some id) :
    x.request.header.code = RequestCode.register.number := by
  obtain ⟨r, -, -, -, asked⟩ := answer_of_assigned? h
  exact asked

/-- Does a round bring a key in answer to a public key? -/
def Grants (x : Round) (keyring : κ) : Prop :=
  x.request.header.code = RequestCode.sendPublicKey.number ∧ (x.delivered? keyring).isSome

theorem Grants.answer {x : Round} {keyring : κ} (h : x.Grants keyring) :
    ∃ r, x.answer = .ok r ∧ r.code = .publicKeyReceived ∧ (r.granted? keyring).isSome := by
  obtain ⟨asked, delivered⟩ := h
  obtain ⟨key, delivered⟩ := Option.isSome_iff_exists.1 delivered
  obtain ⟨r, answered, granted, ⟨-, code⟩ | ⟨other, -⟩⟩ := answer_of_delivered? delivered
  · exact ⟨r, answered, code, Option.isSome_iff_exists.2 ⟨key, granted⟩⟩
  · cases asked.symm.trans other

end Round

namespace Handshake

/-- A client is given an id and then, in answer to a public key, a key. -/
def Welcomes (keyring : κ) (xs : List Round) : Prop :=
  ∃ x y, [x, y].Sublist xs ∧ x.assigned?.isSome ∧ y.Grants keyring

/-- The rounds in which a client registers: it is given an id and then, under that id, a key in
answer to the public half `field` of a key pair that is made for it; `keyring` holds the pair. -/
structure Registers (s : Session κ) (xs : List Round) (id : ClientId) (field : Bytes)
    (keyring : κ) : Prop where
  made : Keyring.generate s.keyring = (.ok field, keyring)
  rounds : ∃ x y, [x, y].Sublist xs ∧ x.assigned? = some id ∧
    y.request = .publicKey id s.name field ∧ y.Grants keyring

variable {taking : Prop} {d d' : Disk}

section

variable {s s' : Session κ} {xs : List Round}

/-- Tries of an exchange of keys in which a key comes end with it. -/
theorem Tries.granted {id : ClientId} {name : String} {field : Bytes} {left : Nat}
    {outcome : Except Error (Option Unit)}
    (tries : Tries taking (.publicKey id name field) KeyVerdict s left xs outcome s') {x : Round}
    (mem : x ∈ xs) (h : x.Grants s.keyring) : outcome = .ok (some ()) := by
  obtain ⟨r, answered, code, granted⟩ := h.answer
  obtain ⟨o, s₁, verdict, ends⟩ := tries.answered mem answered
  cases verdict with
  | rejected other => exact absurd code other
  | unusable _ nothing =>
    rw [nothing] at granted
    cases granted
  | granted =>
    rcases ends with ends | rfl
    · cases ends
    · rfl

/-- All that an operation sends with a public key is about one key pair. -/
theorem KeyExchange.publicKey {outcome : Except Error Unit}
    (h : KeyExchange taking s xs outcome s') (some : xs ≠ []) :
    ∃ field, Keyring.generate s.keyring = (.ok field, s'.keyring) ∧
      ∀ x ∈ xs, x.request = .publicKey s.clientId s.name field := by
  cases h with
  | unmade | unsendable => exact absurd rfl some
  | failed made tries | exhausted made tries | done made tries =>
    rw [congrArg Session.keyring tries.session_of_key]
    exact ⟨_, made, tries.request⟩

/-- An exchange of keys in which a key comes succeeds. -/
theorem KeyExchange.granted {outcome : Except Error Unit}
    (h : KeyExchange taking s xs outcome s') {x : Round} (mem : x ∈ xs)
    (grants : x.Grants s'.keyring) : outcome = .ok () := by
  cases h with
  | unmade | unsendable => cases mem
  | failed made tries | exhausted made tries =>
    rw [congrArg Session.keyring tries.session_of_key] at grants
    cases tries.granted mem grants
  | done => rfl

/-- An exchange of keys changes the keyring and the key of a session, and nothing else. -/
theorem KeyExchange.session {outcome : Except Error Unit} (h : KeyExchange taking s xs outcome s') :
    s' = { s with keyring := s'.keyring, key := s'.key } := by
  cases h with
  | unmade | unsendable => rfl
  | failed made tries | exhausted made tries | done made tries =>
    rw [tries.session_of_key]

theorem Registration.same {outcome : Except Error Unit}
    (h : Registration taking s d xs outcome s' d') : s'.name = s.name ∧ s'.store = s.store := by
  cases h with
  | unsendable => exact ⟨rfl, rfl⟩
  | failed tries | exhausted tries =>
    cases tries.session_of_register
    exact ⟨rfl, rfl⟩
  | assigned tries exchange filing =>
    cases tries.session_of_register
    rw [exchange.session]
    exact ⟨rfl, rfl⟩

/-- No operation changes the name of a session, or where its identity is kept. -/
theorem Operation.same {c : Call} {outcome : Except Error Unit}
    (h : Operation taking s d c xs outcome s' d') : s'.name = s.name ∧ s'.store = s.store := by
  cases h with
  | exchange h =>
    rw [h.session]
    exact ⟨rfl, rfl⟩
  | registration other h => exact h.same
  | reconnection other h =>
    cases h with
    | unsendable => exact ⟨rfl, rfl⟩
    | failed tries | exhausted tries | resumed tries =>
      rw [tries.session_of_reconnect]
      exact ⟨rfl, rfl⟩
    | forgotten tries registration =>
      have same := registration.same
      rwa [tries.session_of_reconnect] at same

end

/-! ## Operations and the disk -/

/-- What an operation with these rounds makes of the disk. -/
inductive Filed (s : Session κ) (d : Disk) (xs : List Round) (outcome : Except Error Unit)
    (s' : Session κ) : Disk → Prop where
  | kept (unwelcome : ¬ Welcomes s'.keyring xs)
    (unregistered : outcome = .ok () →
      ∀ x ∈ xs, x.request.header.code ≠ RequestCode.register.number) :
    Filed s d xs outcome s' d
  | filed {id : ClientId} {field : Bytes} {d' : Disk}
    (registers : Registers s xs id field s'.keyring)
    (named : s'.clientId = id) (filing : Filing s' d (.ok ()) outcome d') : Filed s d xs outcome s' d'

section

variable {s s' : Session κ} {xs : List Round} {outcome : Except Error Unit}

theorem not_welcomes_of_unassigned {keyring : κ}
    (h : ∀ x ∈ xs, x.request.header.code ≠ RequestCode.register.number) :
    ¬ Welcomes keyring xs := by
  rintro ⟨x, y, both, given, -⟩
  obtain ⟨id, given⟩ := Option.isSome_iff_exists.1 given
  exact h x (both.subset List.mem_cons_self) (Round.code_of_assigned? given)

theorem not_welcomes_of_ungranted {keyring : κ} (h : ∀ x ∈ xs, ¬ x.Grants keyring) :
    ¬ Welcomes keyring xs := by
  rintro ⟨x, y, both, -, grants⟩
  exact h y (both.subset (List.mem_cons_of_mem x List.mem_cons_self)) grants

omit [Keyring κ] in
theorem code_of_plain {id : ClientId} {code : RequestCode} {name : String}
    (h : ∀ x ∈ xs, x.request = .plain id code name) :
    ∀ x ∈ xs, x.request.header.code = code.number := by
  intro x mem
  rw [h x mem]
  rfl

theorem not_grants_of_plain {id : ClientId} {code : RequestCode} {name : String} {keyring : κ}
    (h : ∀ x ∈ xs, x.request = .plain id code name)
    (other : code.number ≠ RequestCode.sendPublicKey.number) : ∀ x ∈ xs, ¬ x.Grants keyring :=
  fun x mem grants => other ((code_of_plain h x mem).symm.trans grants.1)

theorem KeyExchange.filed (h : KeyExchange taking s xs outcome s') :
    Filed s d xs outcome s' d := by
  have code : ∀ x ∈ xs, x.request.header.code ≠ RequestCode.register.number := by
    intro x mem
    obtain ⟨field, -, request⟩ := h.publicKey (List.ne_nil_of_mem mem)
    rw [request x mem]
    exact nofun
  exact .kept (not_welcomes_of_unassigned code) fun _ => code

/-- An id and then a key are what a client registers with. -/
theorem registers_of_exchange {ys : List Round} {id : ClientId} {s₁ : Session κ}
    (tries : Tries taking (.plain s.clientId .register s.name) IdVerdict
      { s with phase := .registering } maxTries xs (.ok (some id)) s₁)
    (exchange : KeyExchange taking { s₁ with clientId := id, phase := .registered } ys (.ok ()) s') :
    ∃ field, Registers s (xs ++ ys) id field s'.keyring := by
  cases tries.session_of_register
  obtain ⟨earlier, r, rfl, verdict⟩ := tries.settled rfl
  obtain ⟨between, y, key, rfl, delivered⟩ := exchange.endsInKey
  obtain ⟨field, made, request⟩ := exchange.publicKey (List.append_ne_nil_of_right_ne_nil _ nofun)
  have asked := request y (List.mem_append_right _ List.mem_cons_self)
  refine ⟨field, made, _, y, (List.sublist_append_right earlier [_]).append
    (List.sublist_append_right between [y]), ?_, asked, ?_, ?_⟩
  · cases verdict with
    | assigned code this => exact Round.assigned?_register code this
  · rw [asked]
    rfl
  · rw [delivered]
    rfl

theorem Registration.filed (h : Registration taking s d xs outcome s' d') :
    Filed s d xs outcome s' d' := by
  cases h with
  | unsendable => exact .kept (not_welcomes_of_ungranted (List.forall_mem_nil _)) nofun
  | failed tries | exhausted tries =>
    exact .kept (not_welcomes_of_ungranted (not_grants_of_plain tries.request nofun)) nofun
  | @assigned xs ys id s₁ _ _ _ _ tries exchange filing =>
    have named : s'.clientId = id := by rw [exchange.session]
    cases filing with
    | unexchanged e =>
      refine .kept (not_welcomes_of_ungranted fun x mem grants => ?_) nofun
      rcases List.mem_append.1 mem with mem | mem
      · exact not_grants_of_plain tries.request nofun x mem grants
      · cases exchange.granted mem grants
    | unsaved unsaved =>
      obtain ⟨field, registers⟩ := registers_of_exchange tries exchange
      exact .filed registers named (.unsaved unsaved)
    | saved saved =>
      obtain ⟨field, registers⟩ := registers_of_exchange tries exchange
      exact .filed registers named (.saved saved)

theorem Reconnection.filed (h : Reconnection taking s d xs outcome s' d') :
    Filed s d xs outcome s' d' := by
  have unasked {xs : List Round} (h : ∀ x ∈ xs, x.request = .plain s.clientId .reconnect s.name) :
      ∀ x ∈ xs, x.request.header.code ≠ RequestCode.register.number := by
    intro x mem
    rw [code_of_plain h x mem]
    exact nofun
  cases h with
  | unsendable => exact .kept (not_welcomes_of_ungranted (List.forall_mem_nil _)) nofun
  | failed tries | exhausted tries | resumed tries =>
    exact .kept (not_welcomes_of_unassigned (unasked tries.request)) fun _ => unasked tries.request
  | @forgotten xs ys s₁ _ _ _ tries registration =>
    have before := unasked tries.request
    have same : s₁.name = s.name ∧ s₁.keyring = s.keyring := by
      rw [tries.session_of_reconnect]
      exact ⟨rfl, rfl⟩
    obtain ⟨name, keyring⟩ := same
    cases registration.filed with
    | kept unwelcome unregistered =>
      refine .kept ?_ fun succeeded => List.forall_mem_append.2 ⟨before, unregistered succeeded⟩
      rintro ⟨x, y, both, given, grants⟩
      -- nothing is given in the first rounds, so both rounds are among the others
      obtain ⟨l, l', split, first, second⟩ := List.sublist_append_iff.1 both
      cases l with
      | nil =>
        rw [List.nil_append] at split
        rw [← split] at second
        exact unwelcome ⟨x, y, second, given, grants⟩
      | cons z l =>
        obtain ⟨rfl, -⟩ := List.cons.inj split
        obtain ⟨id, given⟩ := Option.isSome_iff_exists.1 given
        exact before x (first.subset List.mem_cons_self) (Round.code_of_assigned? given)
    | filed registers named filing =>
      obtain ⟨x, y, both, given, asked, grants⟩ := registers.rounds
      have made := registers.made
      rw [name] at asked
      rw [keyring] at made
      exact .filed ⟨made, x, y, List.sublist_append_of_sublist_right both, given, asked, grants⟩
        named filing

theorem Operation.filed {c : Call} (h : Operation taking s d c xs outcome s' d') :
    Filed s d xs outcome s' d' := by
  cases h with
  | exchange h => exact h.filed
  | registration other h => exact h.filed
  | reconnection other h => exact h.filed

end

/-! ## Undertakings -/

/-- What a client may do that involves a handshake. -/
inductive Undertaking where
  | call (c : Call)
  | backup (peer : String) (path : Path) (options : UploadOptions)

namespace Undertaking

/-- The handshake that an undertaking starts with. -/
def handshake : Undertaking → Call
  | .call c => c
  | .backup peer _ _ => .establish peer

variable {σ : Type} [Server σ]

/-- What comes of an undertaking: a report if it is a backup that succeeds. -/
def conduct (u : Undertaking) (w : World σ) (s : Session κ) :
    Except Error (Option Report) × Session κ × World σ :=
  match u with
  | .call c =>
    let (outcome, s', w') := c.conduct w s
    (outcome.map fun _ => none, s', w')
  | .backup peer path options =>
    let (outcome, s', w') := w.conduct s (Client.backup peer path options)
    (outcome.map some, s', w')

/-- Behind an undertaking the session and the disk are what the handshake has left. -/
theorem conduct_spec (u : Undertaking) (w : World σ) (s : Session κ) :
    (u.conduct w s).2.1 = (u.handshake.conduct w s).2.1 ∧
      (u.conduct w s).2.2.disk = (u.handshake.conduct w s).2.2.disk ∧
      ((u.conduct w s).1.isOk = true → (u.handshake.conduct w s).1 = .ok ()) := by
  cases u with
  | call c =>
    refine ⟨rfl, rfl, fun succeeded => ?_⟩
    unfold conduct at succeeded
    unfold handshake
    rcases ran : c.conduct w s with ⟨e | _, s', w'⟩
    · simp only [ran] at succeeded
      cases succeeded
    · rfl
  | backup peer path options =>
    unfold conduct handshake Call.conduct Client.backup
    simp only
    rcases ran : w.conduct s (establish peer) with ⟨e | _, s', w'⟩
    · rw [World.conduct_bind_of_error ran]
      exact ⟨rfl, rfl, nofun⟩
    · rw [World.conduct_bind_of_ok ran, World.conduct_bind_of_ok (World.conduct_get ..),
        World.conduct_perform]
      exact ⟨rfl, Upload.readOnly_sendFile s' path options w', fun _ => rfl⟩

end Undertaking

/-- An undertaking leaves the disk alone, unless its handshake gives the client an id and then a key:
then the handshake succeeds and the file has the name, the id and the private key of the pair whose
public half was sent, or the file cannot be written and the handshake fails. What follows the
handshake changes nothing of that. -/
theorem identity_filed {σ : Type} [Server σ] (u : Undertaking) {w : World σ} (s : Session κ)
    (ready : w.line.Ready) (sound : w.disk.Sound) :
    let xs := w.rounds (u.handshake.conduct w s).2.2
    let outcome := (u.handshake.conduct w s).1
    let s' := (u.conduct w s).2.1
    let d' := (u.conduct w s).2.2.disk
    ((u.conduct w s).1.isOk = true → outcome = .ok ()) ∧
    (¬ Welcomes s'.keyring xs ∧ d' = w.disk ∧
        (outcome = .ok () → ∀ x ∈ xs, x.request.header.code ≠ RequestCode.register.number) ∨
      ∃ id field, Registers s xs id field s'.keyring ∧
        ((∃ e, s'.file w.disk = .error e ∧ outcome = .error e ∧ d' = w.disk) ∨
          s'.file w.disk = .ok d' ∧ outcome = .ok () ∧
            ∃ privateKey, Keyring.save s'.keyring = .ok privateKey ∧
              d'.read s.store = .ok (Utf8.encode
                (s.name ++ "\n" ++ id.text ++ "\n" ++ privateKey ++ "\n")))) := by
  obtain ⟨session, disk, succeeds⟩ := u.conduct_spec w s
  intro xs outcome s' d'
  refine ⟨succeeds, ?_⟩
  obtain ⟨xs', outcome', s₁, w₁, ran, bears, operation⟩ := u.handshake.spec w s ready
  have rounds : xs = xs' := by
    unfold xs
    rw [ran, World.rounds_of_bears bears]
  have ended : outcome = outcome' := congrArg Prod.fst ran
  have left : s' = s₁ := session.trans (congrArg (·.2.1) ran)
  have written : d' = w₁.disk := disk.trans (congrArg (·.2.2.disk) ran)
  rw [rounds, ended, left, written]
  generalize w₁.disk = d₁ at operation
  cases operation.filed with
  | kept unwelcome unregistered => exact .inl ⟨unwelcome, rfl, unregistered⟩
  | @filed id field _ registers named filing =>
    obtain ⟨name, store⟩ := operation.same
    refine .inr ⟨id, field, registers, ?_⟩
    cases filing with
    | unsaved unsaved => exact .inl ⟨_, unsaved, rfl, rfl⟩
    | saved saved =>
      obtain ⟨privateKey, exported, read⟩ := s₁.read_file sound saved
      rw [Identity.render_eq, name, named, store] at read
      exact .inr ⟨saved, rfl, privateKey, exported, read⟩

end Handshake

/-! ## A backup of a new client -/

open Handshake

/-- A backup of a file that is not there. -/
def hopeless : Undertaking := .backup "server" (.ofText "notes.txt") {}

theorem identity_filed_hopeless :
    ((hopeless.conduct welcoming alice).1.isOk = false ∧
      ((hopeless.conduct welcoming alice).2.2.disk.read (.ofText "me.info")).toOption = some
        (Utf8.encode "alice\n01010101010101010101010101010101\nfake-private-key-1\n")) ∧
    let xs := welcoming.rounds (hopeless.handshake.conduct welcoming alice).2.2
    let outcome := (hopeless.handshake.conduct welcoming alice).1
    let s' := (hopeless.conduct welcoming alice).2.1
    let d' := (hopeless.conduct welcoming alice).2.2.disk
    ((hopeless.conduct welcoming alice).1.isOk = true → outcome = .ok ()) ∧
    (¬ Welcomes s'.keyring xs ∧ d' = welcoming.disk ∧
        (outcome = .ok () → ∀ x ∈ xs, x.request.header.code ≠ RequestCode.register.number) ∨
      ∃ id field, Registers alice xs id field s'.keyring ∧
        ((∃ e, s'.file welcoming.disk = .error e ∧ outcome = .error e ∧ d' = welcoming.disk) ∨
          s'.file welcoming.disk = .ok d' ∧ outcome = .ok () ∧
            ∃ privateKey, Keyring.save s'.keyring = .ok privateKey ∧
              d'.read alice.store = .ok (Utf8.encode
                (alice.name ++ "\n" ++ id.text ++ "\n" ++ privateKey ++ "\n")))) := by
  have sound : welcoming.disk.Sound := nofun
  exact ⟨by decide +kernel, identity_filed hopeless alice rfl sound⟩

end EncryptedBackup
