/-
Does the identity file agree with the server? The private key on disk is that of the public key which
the server accepted last for the client id in the file, if the call in which it did registered the
client to the end; if not, the file is from before that call (`store_agrees`). So it does not agree
behind a mere exchange of keys: that makes a new key pair, which is saved nowhere
(`agreement_broken`).
-/
import EncryptedBackup.Proofs.Handshake.Timeline
import EncryptedBackup.Proofs.Text.Hex

namespace EncryptedBackup

/-! ## Identities by their text -/

/-- Identities of one name are told apart by the bytes of their text. -/
theorem Identity.eq_of_encode_render {name : String} {a b : ClientId} {p q : String}
    (h : Utf8.encode (Identity.mk name a p).render = Utf8.encode (Identity.mk name b q).render) :
    a = b ∧ p = q := by
  have texts := congrArg String.toList (Utf8.eq_of_encode_eq h)
  simp only [Identity.render_eq, String.toList_append, List.append_assoc, List.append_cancel_left_eq]
    at texts
  -- the ids are equally long, so what follows them starts at the same place
  obtain ⟨ids, rest⟩ := List.append_inj texts (by rw [a.text_length, b.text_length])
  obtain ⟨keys, -⟩ := List.append_inj' (List.append_cancel_left rest) rfl
  exact ⟨ClientId.eq_of_text_eq (String.toList_inj.1 ids), String.toList_inj.1 keys⟩

variable {κ : Type} [Keyring κ]

/-! ## Public keys that are accepted -/

/-- Does the server accept a public key for a client id? -/
def Round.accepts (x : Round) (id : ClientId) : Bool :=
  match x.answer with
  | .ok r => x.request.header.code = RequestCode.sendPublicKey.number ∧
      x.request.header.clientId = id ∧ r.code = .publicKeyReceived
  | .error _ => false

namespace Record

/-- Was a public key accepted for a client id in a call? -/
def Accepts (r : Record κ) (id : ClientId) : Prop := ∃ x ∈ r.rounds, x.accepts id = true

/-- Did a call register the client to the end? -/
def Registered (r : Record κ) : Prop :=
  r.outcome.isOk = true ∧ ∃ x ∈ r.rounds, x.assigned?.isSome = true

instance (r : Record κ) (id : ClientId) : Decidable (r.Accepts id) :=
  inferInstanceAs (Decidable (∃ x ∈ r.rounds, x.accepts id = true))

instance (r : Record κ) : Decidable r.Registered :=
  inferInstanceAs (Decidable (_ ∧ ∃ x ∈ r.rounds, x.assigned?.isSome = true))

end Record

namespace Handshake

section

variable {taking : Prop} {c : Call} {d d' : Disk} {s s' : Session κ} {xs : List Round}
  {outcome : Except Error Unit}

theorem Registration.publicKey (h : Registration taking s d xs outcome s' d') {x : Round}
    (mem : x ∈ xs) (asked : x.request.header.code = RequestCode.sendPublicKey.number) :
    ∃ id field, x.request = .publicKey id s.name field ∧
      Keyring.generate s.keyring = (.ok field, s'.keyring) := by
  cases h with
  | unsendable => cases mem
  | failed tries | exhausted tries => cases (code_of_plain tries.request x mem).symm.trans asked
  | assigned tries exchange filing =>
    rcases List.mem_append.1 mem with mem | mem
    · cases (code_of_plain tries.request x mem).symm.trans asked
    · cases tries.session_of_register
      obtain ⟨field, made, request⟩ := exchange.publicKey (List.ne_nil_of_mem mem)
      exact ⟨_, field, request x mem, made⟩

/-- An operation sends the public half of the key pair that the session has behind it. -/
theorem Operation.publicKey (h : Operation taking s d c xs outcome s' d') {x : Round}
    (mem : x ∈ xs) (asked : x.request.header.code = RequestCode.sendPublicKey.number) :
    ∃ id field, x.request = .publicKey id s.name field ∧
      Keyring.generate s.keyring = (.ok field, s'.keyring) := by
  cases h with
  | exchange h =>
    obtain ⟨field, made, request⟩ := h.publicKey (List.ne_nil_of_mem mem)
    exact ⟨_, field, request x mem, made⟩
  | registration other h => exact h.publicKey mem asked
  | reconnection other h =>
    cases h with
    | unsendable => cases mem
    | failed tries | exhausted tries | resumed tries =>
      cases (code_of_plain tries.request x mem).symm.trans asked
    | forgotten tries registration =>
      rcases List.mem_append.1 mem with mem | mem
      · cases (code_of_plain tries.request x mem).symm.trans asked
      · have sent := registration.publicKey mem asked
        rwa [tries.session_of_reconnect] at sent

theorem accepts_of_grants {x : Round} {keyring : κ} {id : ClientId} {name : String} {field : Bytes}
    (asked : x.request = .publicKey id name field) (grants : x.Grants keyring) :
    x.accepts id = true := by
  obtain ⟨r, answered, code, -⟩ := grants.answer
  unfold Round.accepts
  rw [answered, asked]
  exact decide_eq_true ⟨rfl, rfl, code⟩

/-- A call that registers the client to the end leaves the new identity in the file, with the private
half of a public key that was accepted; any other leaves the disk alone. -/
theorem Operation.saved (h : Operation taking s d c xs outcome s' d') (sound : d.Sound) :
    let r : Record κ := ⟨c, xs, outcome, s'.keyring, d, d'⟩
    (¬ r.Registered ∧ d' = d) ∨
      r.Registered ∧ d'.Sound ∧ ∃ id privateKey, r.Accepts id ∧
        Keyring.save s'.keyring = .ok privateKey ∧
        d'.read s.store = .ok (Utf8.encode (Identity.mk s.name id privateKey).render) := by
  intro r
  obtain ⟨name, store⟩ := h.same
  cases h.filed with
  | kept unwelcome unregistered =>
    refine .inl ⟨?_, rfl⟩
    rintro ⟨succeeded, x, mem, given⟩
    obtain ⟨id, given⟩ := Option.isSome_iff_exists.1 given
    cases outcome with
    | error e => cases succeeded
    | ok _ => exact unregistered rfl x mem (Round.code_of_assigned? given)
  | filed registers named filing =>
    cases filing with
    | unsaved =>
      refine .inl ⟨?_, rfl⟩
      rintro ⟨succeeded, -⟩
      cases succeeded
    | saved saved =>
      obtain ⟨x, y, both, given, asked, grants⟩ := registers.rounds
      obtain ⟨privateKey, exported, read⟩ := s'.read_file sound saved
      rw [name, store, named] at read
      have first : x ∈ xs := both.subset List.mem_cons_self
      have second : y ∈ xs := both.subset (List.mem_cons_of_mem x List.mem_cons_self)
      exact .inr ⟨⟨rfl, x, first, Option.isSome_iff_exists.2 ⟨_, given⟩⟩, sound.file saved, _,
        privateKey, ⟨y, second, accepts_of_grants asked grants⟩, exported, read⟩

end

end Handshake

/-! ## Many calls -/

/-- As long as the client is alone with its disk, the disk stays sound, and the session keeps its
name and its file. -/
theorem Timeline.same {start s : Session κ} {d₀ d : Disk} {past : List (Record κ)}
    (sound : d₀.Sound) (timeline : Timeline True start d₀ past s d) :
    d.Sound ∧ s.name = start.name ∧ s.store = start.store := by
  induction timeline with
  | start => exact ⟨sound, rfl, rfl⟩
  | @call σ _ past s d w earlier c ready same ih =>
    obtain ⟨sound, name, store⟩ := ih
    cases same trivial
    have operation := c.record_spec s ready
    obtain ⟨name', store'⟩ := operation.same
    refine ⟨?_, name'.trans name, store'.trans store⟩
    rcases operation.saved sound with ⟨-, kept⟩ | ⟨-, sound', -⟩
    · rw [kept]
      exact sound
    · exact sound'

/-- The private key in the file is that of the public key which was accepted last for the client id in
the file, if that call registered the client to the end; if not, the file is from before the call. -/
theorem Timeline.agrees {start s : Session κ} {d₀ d : Disk} {past : List (Record κ)}
    (sound : d₀.Sound) (timeline : Timeline True start d₀ past s d) {id : ClientId} :
    ∀ {earlier later : List (Record κ)} {r : Record κ} {text : String},
      past = earlier ++ r :: later → r.Accepts id → (∀ q ∈ later, ¬ q.Accepts id) →
      d.read s.store = .ok (Utf8.encode (Identity.mk s.name id text).render) →
      (r.Registered → Keyring.save r.keyring = .ok text) ∧ (¬ r.Registered → d = r.before) := by
  induction timeline with
  | start =>
    intro earlier later r text split
    cases earlier with
    | nil => cases split
    | cons => cases split
  | @call σ _ past s d w before c ready same ih =>
    intro earlier later r text split accepts last holds
    obtain ⟨sound, -⟩ := before.same sound
    cases same trivial
    have operation := c.record_spec s ready
    obtain ⟨name, store⟩ := operation.same
    rw [name, store] at holds
    rcases split_of_append split with ⟨-, rfl, rfl⟩ | ⟨between, rfl, here⟩
    · -- the call is the one that is asked about
      rcases operation.saved sound with ⟨unregistered, kept⟩ | ⟨registered, -, id', _, -, exported, read⟩
      · exact ⟨fun registered => absurd registered unregistered, fun _ => kept⟩
      · cases (Identity.eq_of_encode_render (Except.ok.inj (read.symm.trans holds))).2
        exact ⟨fun _ => exported, fun unregistered => absurd registered unregistered⟩
    · -- it comes behind the one that is asked about, and has saved nothing
      obtain ⟨since, none⟩ := List.forall_mem_append.1 last
      rcases operation.saved sound with ⟨-, kept⟩ | ⟨-, -, id', _, accepts', -, read⟩
      · rw [kept] at holds ⊢
        exact ih here accepts since holds
      · cases (Identity.eq_of_encode_render (Except.ok.inj (read.symm.trans holds))).1
        exact absurd accepts' (none _ List.mem_cons_self)

/-- Each public key that was sent is the public half of the key pair behind its call. -/
theorem Timeline.publicKey {alone : Prop} {start s : Session κ} {d₀ d : Disk}
    {past : List (Record κ)} (timeline : Timeline alone start d₀ past s d) :
    ∀ r ∈ past, ∀ x ∈ r.rounds, x.request.header.code = RequestCode.sendPublicKey.number →
      ∃ id field keyring, x.request = .publicKey id s.name field ∧
        Keyring.generate keyring = (.ok field, r.keyring) := by
  induction timeline with
  | start => exact List.forall_mem_nil _
  | @call σ _ past s d w earlier c ready same ih =>
    have operation := c.record_spec s ready
    rw [operation.same.1, List.forall_mem_append, List.forall_mem_singleton]
    refine ⟨ih, fun x mem asked => ?_⟩
    obtain ⟨id, field, request, made⟩ := operation.publicKey mem asked
    exact ⟨id, field, _, request, made⟩

/-- Let a client be alone with its disk and the file hold the client id that it has now. Then the
private key in the file belongs to the public key which the server accepted last for that id, if the
call in which it did registered the client to the end; if not, the file is from before the call. -/
theorem store_agrees {start s : Session κ} {d₀ d : Disk} {earlier later : List (Record κ)}
    {r : Record κ} (sound : d₀.Sound)
    (timeline : Timeline True start d₀ (earlier ++ r :: later) s d)
    (accepts : r.Accepts s.clientId) (last : ∀ q ∈ later, ¬ q.Accepts s.clientId) {text : String}
    (holds : d.read s.store = .ok (Utf8.encode (Identity.mk s.name s.clientId text).render)) :
    (∀ x ∈ r.rounds, x.accepts s.clientId = true → ∃ field keyring,
      x.request = .publicKey s.clientId s.name field ∧
        Keyring.generate keyring = (.ok field, r.keyring)) ∧
    (r.Registered → Keyring.save r.keyring = .ok text) ∧ (¬ r.Registered → d = r.before) := by
  refine ⟨fun x mem accepted => ?_, timeline.agrees sound rfl accepts last holds⟩
  unfold Round.accepts at accepted
  split at accepted
  · obtain ⟨asked, own, -⟩ := of_decide_eq_true accepted
    have sent : r ∈ earlier ++ r :: later := List.mem_append_right _ List.mem_cons_self
    obtain ⟨id, field, keyring, request, made⟩ := timeline.publicKey r sent x mem asked
    rw [request] at own
    cases own
    exact ⟨field, keyring, request, made⟩
  · cases accepted

/-! ## A client that exchanges keys once more -/

open Handshake

/-- A client that registers has the private key in its file that belongs to the public key which was
accepted. -/
theorem store_agrees_alice : ∃ (r : Record ToyKeyring) (s : Session ToyKeyring) (d : Disk),
    Timeline True alice {} [r] s d ∧ r.Accepts s.clientId ∧ r.Registered ∧
      d.read s.store = .ok (Utf8.encode
        (Identity.mk s.name s.clientId "fake-private-key-1").render) ∧
      Keyring.save r.keyring = .ok "fake-private-key-1" := by
  have sound : Disk.Sound {} := nofun
  have call : ∃ (r : Record ToyKeyring) (s : Session ToyKeyring) (d : Disk),
      Timeline True alice {} ([] ++ r :: []) s d ∧ r.Accepts s.clientId ∧ r.Registered ∧
        (d.read s.store).toOption = some (Utf8.encode
          (Identity.mk s.name s.clientId "fake-private-key-1").render) := by
    have timeline : Timeline True alice {} _ _ _ :=
      .one (s := alice) (w := welcoming) (.register "server") rfl
    refine ⟨_, _, _, timeline, ?_⟩
    decide +kernel
  obtain ⟨r, s, d, timeline, accepts, registered, read⟩ := call
  have holds := ok_of_toOption read
  have agrees := store_agrees sound timeline accepts (List.forall_mem_nil _) holds
  exact ⟨r, s, d, timeline, accepts, registered, holds, agrees.2.1 registered⟩

/-- An open line to a server that accepts another public key of the first client. -/
def rekeying (d : Disk) : World Script :=
  { scripted
      [.bytes (Archive.say .publicKeyReceived (.withKey (sampleId 1) (List.replicate 32 8)))] with
    disk := d }

theorem rekeying_disk (d : Disk) : (rekeying d).disk = d := rfl

/-- The call succeeds and its public key is accepted, but the file keeps the private key from
before. -/
theorem agreement_broken : ∃ (past : List (Record ToyKeyring)) (r : Record ToyKeyring)
    (s : Session ToyKeyring) (d : Disk),
    alice.Made ∧ Timeline True alice {} (past ++ [r]) s d ∧ r.outcome.isOk = true ∧
      r.Accepts s.clientId ∧
      (d.read s.store).toOption = some (Utf8.encode
        (Identity.mk s.name s.clientId "fake-private-key-1").render) ∧
      (Keyring.save r.keyring).toOption = some "fake-private-key-2" := by
  have first : Timeline True alice {} _ _ _ :=
    .one (s := alice) (w := welcoming) (.register "server") rfl
  have second := first.call (w := rekeying _) .sendPublicKey rfl fun _ => rekeying_disk _
  have made : alice.Made := .inl ⟨_, _, _, rfl⟩
  refine ⟨_, _, _, _, made, second, ?_⟩
  decide +kernel

end EncryptedBackup
