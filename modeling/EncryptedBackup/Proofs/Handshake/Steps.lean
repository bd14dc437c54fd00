/-
The operations of a handshake as rounds, in full: which requests are tried, what each answer is
taken for, how the operation ends, and what becomes of the session and of the disk (`KeyExchange`,
`Registration`, `Reconnection`). Every run of an operation is one of these (`conduct_sendPublicKey`,
`conduct_register`, `conduct_reconnect`, `conduct_establish`).
-/
import EncryptedBackup.Proofs.Handshake.Rounds
import EncryptedBackup.Proofs.World.Setup

namespace EncryptedBackup

variable {κ : Type} [Keyring κ]

/-! ## What answers are taken for -/

omit [Keyring κ] in
theorem SessionKey.ofBytes_bytes (key : SessionKey) : ofBytes key.bytes = .ok key := by
  unfold ofBytes
  rw [dif_pos key.length_valid]

/-- The session key that a response grants to the holder of a keyring. -/
def Response.granted? (r : Response) (keyring : κ) : Option SessionKey := do
  let encrypted ← r.encryptedKey.toOption
  let bytes ← (Keyring.unwrap keyring encrypted).toOption
  (SessionKey.ofBytes bytes).toOption

/-- Does a round say that the server has forgotten the client? -/
def Round.forgets (x : Round) : Bool :=
  match x.answer with
  | .ok r => x.request.header.code = RequestCode.reconnect.number ∧ r.code = .reconnectionFailed
  | .error _ => false

/-- The disk on which the identity of a session is saved. -/
def Session.file (s : Session κ) (d : Disk) : Except Error Disk := do
  let privateKey ← Keyring.save s.keyring
  let identity : Identity := { name := s.name, clientId := s.clientId, privateKey }
  Except.mapError .file (d.write s.store (Utf8.encode identity.render))

namespace Handshake

variable {taking : Prop}

/-- An answer to a public key. -/
inductive KeyVerdict (r : Response) (s : Session κ) :
    Except Error (Option Unit) → Session κ → Prop where
  | rejected (h : r.code ≠ .publicKeyReceived) : KeyVerdict r s (.ok none) s
  | unusable (h : r.code = .publicKeyReceived) (nothing : r.granted? s.keyring = none) (e : Error) :
    KeyVerdict r s (.error e) s
  | granted (h : r.code = .publicKeyReceived) {key : SessionKey}
    (this : r.granted? s.keyring = some key) :
    KeyVerdict r s (.ok (some ())) { s with key := some key }

omit [Keyring κ] in
/-- An answer to a registration. -/
inductive IdVerdict (r : Response) (s : Session κ) :
    Except Error (Option ClientId) → Session κ → Prop where
  | rejected (h : r.code ≠ .registered) : IdVerdict r s (.ok none) s
  | unnamed (h : r.code = .registered) {e : Error} (nothing : r.clientId = .error e) :
    IdVerdict r s (.error e) s
  | assigned (h : r.code = .registered) {id : ClientId} (this : r.clientId = .ok id) :
    IdVerdict r s (.ok (some id)) s

/-- An answer to a reconnection. -/
inductive ReconnectVerdict (r : Response) (s : Session κ) :
    Except Error (Option Reception) → Session κ → Prop where
  | unclear (h : r.code ≠ .reconnected) (h' : r.code ≠ .reconnectionFailed) :
    ReconnectVerdict r s (.ok none) s
  | unusable (h : r.code = .reconnected) (nothing : r.granted? s.keyring = none) (e : Error) :
    ReconnectVerdict r s (.error e) s
  | resumed (h : r.code = .reconnected) {key : SessionKey}
    (this : r.granted? s.keyring = some key) :
    ReconnectVerdict r s (.ok (some .resumed)) { s with key := some key }
  | forgotten (h : r.code = .reconnectionFailed) : ReconnectVerdict r s (.ok (some .forgotten)) s

/-- The tries of an exchange of keys change at most the key of a session. -/
theorem Tries.session_of_key {f : Frame} {s s' : Session κ} {left : Nat} {xs : List Round}
    {outcome : Except Error (Option Unit)} (tries : Tries taking f KeyVerdict s left xs outcome s') :
    s' = { s with key := s'.key } :=
  tries.keeps (P := fun s' => s' = { s with key := s'.key }) (fun h => by cases h <;> rfl) rfl

omit [Keyring κ] in
/-- The tries of a registration change nothing in a session. -/
theorem Tries.session_of_register {f : Frame} {s s' : Session κ} {left : Nat} {xs : List Round}
    {outcome : Except Error (Option ClientId)} (tries : Tries taking f IdVerdict s left xs outcome s') :
    s' = s :=
  tries.keeps (P := fun s' => s' = s) (fun h => by cases h <;> rfl) rfl

/-- The tries of a reconnection change at most the key of a session. -/
theorem Tries.session_of_reconnect {f : Frame} {s s' : Session κ} {left : Nat} {xs : List Round}
    {outcome : Except Error (Option Reception)}
    (tries : Tries taking f ReconnectVerdict s left xs outcome s') : s' = { s with key := s'.key } :=
  tries.keeps (P := fun s' => s' = { s with key := s'.key }) (fun h => by cases h <;> rfl) rfl

/-! ## Operations -/

/-- An exchange of keys. -/
inductive KeyExchange (taking : Prop) (s : Session κ) :
    List Round → Except Error Unit → Session κ → Prop where
  | unmade {e : Error} {keyring : κ} (made : Keyring.generate s.keyring = (.error e, keyring)) :
    KeyExchange taking s [] (.error e) { s with keyring }
  | unsendable {field : Bytes} {keyring : κ} {e : Error}
    (made : Keyring.generate s.keyring = (.ok field, keyring))
    (unmade : Request.publicKey s.clientId s.name field = .error e) :
    KeyExchange taking s [] (.error e) { s with keyring }
  | failed {field : Bytes} {keyring : κ} {xs : List Round} {e : Error} {s' : Session κ}
    (made : Keyring.generate s.keyring = (.ok field, keyring))
    (tries : Tries taking (.publicKey s.clientId s.name field) KeyVerdict { s with keyring }
      maxTries xs (.error e) s') :
    KeyExchange taking s xs (.error e) s'
  | exhausted {field : Bytes} {keyring : κ} {xs : List Round} {s' : Session κ}
    (made : Keyring.generate s.keyring = (.ok field, keyring))
    (tries : Tries taking (.publicKey s.clientId s.name field) KeyVerdict { s with keyring }
      maxTries xs (.ok none) s') :
    KeyExchange taking s xs (.error (.keyExchangeFailed maxTries)) s'
  | done {field : Bytes} {keyring : κ} {xs : List Round} {s' : Session κ}
    (made : Keyring.generate s.keyring = (.ok field, keyring))
    (tries : Tries taking (.publicKey s.clientId s.name field) KeyVerdict { s with keyring }
      maxTries xs (.ok (some ())) s') :
    KeyExchange taking s xs (.ok ()) s'

/-- What becomes of an identity: it is saved if the exchange of keys succeeded. -/
inductive Filing (s : Session κ) (d : Disk) :
    (exchanged outcome : Except Error Unit) → Disk → Prop where
  | unexchanged (e : Error) : Filing s d (.error e) (.error e) d
  | unsaved {e : Error} (h : s.file d = .error e) : Filing s d (.ok ()) (.error e) d
  | saved {d' : Disk} (h : s.file d = .ok d') : Filing s d (.ok ()) (.ok ()) d'

/-- A registration: a client id, then a key, then the saving of both. -/
inductive Registration (taking : Prop) (s : Session κ) (d : Disk) :
    List Round → Except Error Unit → Session κ → Disk → Prop where
  | unsendable {e : Error} (unmade : Request.plain s.clientId .register s.name = .error e) :
    Registration taking s d [] (.error e) { s with phase := .registering } d
  | failed {xs : List Round} {e : Error} {s' : Session κ}
    (tries : Tries taking (.plain s.clientId .register s.name) IdVerdict
      { s with phase := .registering } maxTries xs (.error e) s') :
    Registration taking s d xs (.error e) s' d
  | exhausted {xs : List Round} {s' : Session κ}
    (tries : Tries taking (.plain s.clientId .register s.name) IdVerdict
      { s with phase := .registering } maxTries xs (.ok none) s') :
    Registration taking s d xs (.error (.registrationFailed maxTries))
      { s' with phase := .unregistered } d
  | assigned {xs ys : List Round} {clientId : ClientId} {s₁ s' : Session κ}
    {exchanged outcome : Except Error Unit} {d' : Disk}
    (tries : Tries taking (.plain s.clientId .register s.name) IdVerdict
      { s with phase := .registering } maxTries xs (.ok (some clientId)) s₁)
    (exchange : KeyExchange taking { s₁ with clientId, phase := .registered } ys exchanged s')
    (filing : Filing s' d exchanged outcome d') :
    Registration taking s d (xs ++ ys) outcome s' d'

/-- A reconnection, and the registration that follows if the server has forgotten the client. -/
inductive Reconnection (taking : Prop) (s : Session κ) (d : Disk) :
    List Round → Except Error Unit → Session κ → Disk → Prop where
  | unsendable {e : Error} (unmade : Request.plain s.clientId .reconnect s.name = .error e) :
    Reconnection taking s d [] (.error e) { s with phase := .reconnecting } d
  | failed {xs : List Round} {e : Error} {s' : Session κ}
    (tries : Tries taking (.plain s.clientId .reconnect s.name) ReconnectVerdict
      { s with phase := .reconnecting } maxTries xs (.error e) s') :
    Reconnection taking s d xs (.error e) s' d
  | exhausted {xs : List Round} {s' : Session κ}
    (tries : Tries taking (.plain s.clientId .reconnect s.name) ReconnectVerdict
      { s with phase := .reconnecting } maxTries xs (.ok none) s') :
    Reconnection taking s d xs (.error (.reconnectionRefused maxTries))
      { s' with phase := .hasIdentity } d
  | resumed {xs : List Round} {s' : Session κ}
    (tries : Tries taking (.plain s.clientId .reconnect s.name) ReconnectVerdict
      { s with phase := .reconnecting } maxTries xs (.ok (some .resumed)) s') :
    Reconnection taking s d xs (.ok ()) { s' with phase := .connected } d
  | forgotten {xs ys : List Round} {s₁ s' : Session κ} {outcome : Except Error Unit} {d' : Disk}
    (tries : Tries taking (.plain s.clientId .reconnect s.name) ReconnectVerdict
      { s with phase := .reconnecting } maxTries xs (.ok (some .forgotten)) s₁)
    (registration : Registration taking { s₁ with clientId := .unset, key := none } d ys outcome s'
      d') :
    Reconnection taking s d (xs ++ ys) outcome s' d'

/-! ## Judging answers -/

variable {σ : Type} [Server σ]

omit [Server σ] in
theorem conduct_adoptKey (w : World σ) (s : Session κ) (encrypted : Bytes) :
    w.conduct s (adoptKey encrypted) =
      match Keyring.unwrap s.keyring encrypted >>= SessionKey.ofBytes with
      | .error e => (.error e, s, w)
      | .ok key => (.ok (), { s with key := some key }, w) := by
  unfold adoptKey
  rw [World.conduct_bind_of_ok (World.conduct_get ..)]
  cases Keyring.unwrap s.keyring encrypted with
  | error e => exact World.conduct_bind_of_error (World.conduct_settle ..)
  | ok bytes =>
    rw [World.conduct_bind_of_ok (World.conduct_settle ..)]
    simp only [bind, Except.bind]
    cases SessionKey.ofBytes bytes with
    | error e => exact World.conduct_bind_of_error (World.conduct_settle ..)
    | ok key => exact World.conduct_bind_of_ok (World.conduct_settle ..)

omit [Server σ] in
/-- What a response grants is taken, and what follows is done; if it grants nothing, nothing is
done. -/
theorem conduct_grant {β : Type} (w : World σ) (s : Session κ) (r : Response)
    (next : Handshake κ (InWorld σ) β) :
    (r.granted? s.keyring = none ∧ ∃ e, w.conduct s (do
      adoptKey (← settle r.encryptedKey)
      next) = (.error e, s, w)) ∨
    ∃ key, r.granted? s.keyring = some key ∧ w.conduct s (do
      adoptKey (← settle r.encryptedKey)
      next) = w.conduct { s with key := some key } next := by
  unfold Response.granted?
  cases r.encryptedKey with
  | error e => exact .inl ⟨rfl, e, World.conduct_bind_of_error (World.conduct_settle ..)⟩
  | ok encrypted =>
    rw [World.conduct_bind_of_ok (World.conduct_settle ..)]
    have adopted := conduct_adoptKey w s encrypted
    cases unwrapped : Keyring.unwrap s.keyring encrypted with
    | error e =>
      rw [unwrapped] at adopted
      exact .inl ⟨by simp [Except.toOption, unwrapped], e, World.conduct_bind_of_error adopted⟩
    | ok bytes =>
      rw [unwrapped] at adopted
      simp only [bind, Except.bind] at adopted
      cases fits : SessionKey.ofBytes bytes with
      | error e =>
        rw [fits] at adopted
        exact .inl ⟨by simp [Except.toOption, unwrapped, fits], e,
          World.conduct_bind_of_error adopted⟩
      | ok key =>
        rw [fits] at adopted
        exact .inr ⟨key, by simp [Except.toOption, unwrapped, fits],
          World.conduct_bind_of_ok adopted⟩

theorem judges_key : Judges (σ := σ) (fun attempt (response : Response) =>
    (if response.code = .publicKeyReceived then do
      adoptKey (← settle response.encryptedKey)
      log .sessionKeyReceived
      return some ()
    else do
      log (.publicKeyRejected attempt response.code)
      return none : Handshake κ (InWorld σ) (Option Unit))) KeyVerdict where
  judged i r s w := by
    by_cases received : r.code = .publicKeyReceived
    · rw [if_pos received]
      rcases conduct_grant w s r (do log .sessionKeyReceived; return some ()) with
        ⟨nothing, e, ran⟩ | ⟨key, granted, ran⟩
      · exact ⟨_, _, w.log, ran, .unusable received nothing e⟩
      · exact ⟨_, _, _, ran.trans (World.conduct_bind_of_ok (World.conduct_log ..)),
          .granted received granted⟩
    · rw [if_neg received]
      exact ⟨_, _, _, World.conduct_bind_of_ok (World.conduct_log ..), .rejected received⟩
  again h := by
    cases h
    rfl

omit [Keyring κ] in
theorem judges_id : Judges (σ := σ) (fun attempt (response : Response) =>
    (if response.code = .registered then
      return some (← settle response.clientId)
    else do
      log (.registrationRejected attempt response.code)
      return none : Handshake κ (InWorld σ) (Option ClientId))) IdVerdict where
  judged i r s w := by
    by_cases registered : r.code = .registered
    · rw [if_pos registered]
      cases named : r.clientId with
      | error e =>
        exact ⟨_, _, w.log, World.conduct_bind_of_error (World.conduct_settle ..),
          .unnamed registered named⟩
      | ok id =>
        exact ⟨_, _, w.log, World.conduct_bind_of_ok (World.conduct_settle ..),
          .assigned registered named⟩
    · rw [if_neg registered]
      exact ⟨_, _, _, World.conduct_bind_of_ok (World.conduct_log ..), .rejected registered⟩
  again h := by
    cases h
    rfl

theorem judges_reconnect : Judges (σ := σ) (fun attempt (response : Response) =>
    (match response.code with
    | .reconnected => do
      adoptKey (← settle response.encryptedKey)
      return some Reception.resumed
    | .reconnectionFailed => return some Reception.forgotten
    | code => do
      log (.reconnectionAnswered attempt code)
      return none : Handshake κ (InWorld σ) (Option Reception))) ReconnectVerdict where
  judged i r s w := by
    cases code : r.code with
    | reconnected =>
      rcases conduct_grant w s r (return some Reception.resumed) with
        ⟨nothing, e, ran⟩ | ⟨key, granted, ran⟩
      · exact ⟨_, _, w.log, ran, .unusable code nothing e⟩
      · exact ⟨_, _, w.log, ran, .resumed code granted⟩
    | reconnectionFailed => exact ⟨_, _, w.log, rfl, .forgotten code⟩
    | _ =>
      exact ⟨_, _, _, World.conduct_bind_of_ok (World.conduct_log ..),
        .unclear (by rw [code]; nofun) (by rw [code]; nofun)⟩
  again h := by
    cases h
    rfl

/-! ## Every run is an operation as described -/

omit [Server σ] in
theorem conduct_makeKeyPair (w : World σ) (s : Session κ) :
    w.conduct s makeKeyPair =
      ((Keyring.generate s.keyring).1, { s with keyring := (Keyring.generate s.keyring).2 }, w) := by
  unfold makeKeyPair
  rw [World.conduct_bind_of_ok (World.conduct_get ..)]
  rfl

/-- Every run of an exchange of keys is one, and leaves the disk alone. -/
theorem conduct_sendPublicKey (w : World σ) (s : Session κ) (ready : w.line.Ready)
    (promise : taking → w.line.Steady) :
    ∃ xs outcome s' l log, w.conduct s sendPublicKey = (outcome, s', w.talked l log) ∧
      w.line.Bears xs l ∧ KeyExchange taking s xs outcome s' := by
  have made := conduct_makeKeyPair w s
  unfold sendPublicKey
  rcases generated : Keyring.generate s.keyring with ⟨e | field, keyring⟩
  · rw [generated] at made
    exact ⟨[], _, _, _, w.log, World.conduct_bind_of_error made, rfl, .unmade generated⟩
  · rw [generated] at made
    simp only at made
    rw [World.conduct_bind_of_ok made, World.conduct_bind_of_ok (World.conduct_get ..)]
    rcases Request.publicKey_cases s.clientId s.name field with ⟨e, unmade⟩ | ⟨r, ok, writes⟩
    · rw [unmade]
      exact ⟨[], _, _, _, w.log, World.conduct_bind_of_error (World.conduct_settle ..), rfl,
        .unsendable generated unmade⟩
    · rw [ok, World.conduct_bind_of_ok (World.conduct_settle ..),
        World.conduct_bind_of_ok (World.conduct_log ..)]
      obtain ⟨xs, outcome, s', l, log, ran, bears, tries, -⟩ :=
        conduct_retry judges_key writes maxTries 1 { s with keyring }
          (w.talked w.line (.publicKeyMade :: w.log)) ready promise
      match outcome, tries with
      | .error e, tries =>
        exact ⟨xs, _, s', l, log, World.conduct_bind_of_error ran, bears, .failed generated tries⟩
      | .ok none, tries =>
        exact ⟨xs, _, s', l, log, World.conduct_bind_of_ok ran, bears, .exhausted generated tries⟩
      | .ok (some ()), tries =>
        exact ⟨xs, _, s', l, log, World.conduct_bind_of_ok ran, bears, .done generated tries⟩

/-- Saving an identity concerns the disk only. -/
theorem conduct_saveIdentity (w : World σ) (s : Session κ) :
    ∃ outcome d log, w.conduct s saveIdentity = (outcome, s, { w with disk := d, log }) ∧
      Filing s w.disk (.ok ()) outcome d := by
  unfold saveIdentity
  rw [World.conduct_bind_of_ok (World.conduct_get ..)]
  cases exported : Keyring.save s.keyring with
  | error e =>
    refine ⟨_, w.disk, w.log, World.conduct_bind_of_error (World.conduct_settle ..), .unsaved ?_⟩
    unfold Session.file
    rw [exported]
    rfl
  | ok privateKey =>
    rw [World.conduct_bind_of_ok (World.conduct_settle ..)]
    let identity : Identity := { name := s.name, clientId := s.clientId, privateKey }
    have filed : s.file w.disk =
        Except.mapError .file (w.disk.write s.store (Utf8.encode identity.render)) := by
      unfold Session.file
      rw [exported]
      rfl
    obtain ⟨log, stored⟩ := Identity.run_store w s.store identity
    have performed := w.conduct_perform s (Identity.store s.store identity)
    rw [stored] at performed
    cases saved : w.disk.write s.store (Utf8.encode identity.render) with
    | error fault =>
      rw [saved] at performed filed
      exact ⟨_, w.disk, w.log, World.conduct_bind_of_error performed, .unsaved filed⟩
    | ok disk =>
      rw [saved] at performed filed
      rw [World.conduct_bind_of_ok performed]
      exact ⟨_, disk, _, World.conduct_log .., .saved filed⟩

/-- Every run of a registration is one; it starts with a round if the line takes a request and the
name fits one. -/
theorem conduct_register (w : World σ) (s : Session κ) (peer : String) (ready : w.line.Ready)
    (promise : taking → w.line.Steady) :
    ∃ xs outcome s' w', w.conduct s (register peer) = (outcome, s', w') ∧
      w.line.Bears xs w'.line ∧ Registration taking s w.disk xs outcome s' w'.disk ∧
      (w.line.refusal = none → (Utf8.encode s.name).length < Wire.nameWidth → xs ≠ []) := by
  unfold register
  rw [World.conduct_bind_of_ok (World.conduct_get ..), World.conduct_bind_of_ok
    (World.conduct_log ..), World.conduct_bind_of_ok (World.conduct_enter ..),
    World.conduct_bind_of_ok (World.conduct_get ..)]
  rcases Request.plain_cases s.clientId .register s.name with ⟨e, unmade⟩ | ⟨r, ok, writes⟩
  · rw [unmade]
    refine ⟨[], _, _, _, World.conduct_bind_of_error (World.conduct_settle ..), rfl,
      .unsendable unmade, fun _ short => ?_⟩
    obtain ⟨r, made, -⟩ := Request.plain_writes s.clientId .register short
    rw [unmade] at made
    cases made
  · rw [ok, World.conduct_bind_of_ok (World.conduct_settle ..)]
    obtain ⟨xs, outcome, s', l, log, ran, bears, tries, starts⟩ :=
      conduct_retry judges_id writes maxTries 1 { s with phase := .registering }
        (w.talked w.line (.registering peer s.name :: w.log)) ready promise
    have starts' (open_ : w.line.refusal = none) : xs ≠ [] := starts open_ (by decide)
    match outcome, tries with
    | .error e, tries =>
      exact ⟨xs, _, s', _, World.conduct_bind_of_error ran, bears, .failed tries,
        fun open_ _ => starts' open_⟩
    | .ok none, tries =>
      exact ⟨xs, _, _, _, World.conduct_bind_of_ok ran, bears, .exhausted tries,
        fun open_ _ => starts' open_⟩
    | .ok (some clientId), tries =>
      -- the id is the session's from here on, whatever becomes of the exchange of keys
      rw [World.conduct_bind_of_ok ran]
      simp only
      rw [World.conduct_bind_of_ok (World.conduct_modify ..),
        World.conduct_bind_of_ok (World.conduct_log ..)]
      obtain ⟨ys, exchanged, s₂, l₂, log₂, ran₂, bears₂, exchange⟩ := conduct_sendPublicKey
        (w.talked l (.registered clientId :: log)) { s' with clientId, phase := .registered }
        (bears.ready _ ready) (fun h => bears.steady _ (promise h))
      simp only [World.talked_talked, World.talked_line, World.talked_log] at ran₂ ⊢
      have joined : w.line.Bears (xs ++ ys) l₂ := bears.append _ bears₂
      have starts'' (open_ : w.line.refusal = none) : xs ++ ys ≠ [] := by
        simp [starts' open_]
      cases exchanged with
      | error e =>
        exact ⟨_, _, _, _, World.conduct_bind_of_error ran₂, joined,
          .assigned tries exchange (.unexchanged e), fun open_ _ => starts'' open_⟩
      | ok _ =>
        rw [World.conduct_bind_of_ok ran₂]
        obtain ⟨outcome, d, log₃, saved, filing⟩ := conduct_saveIdentity (w.talked l₂ log₂) s₂
        exact ⟨_, _, _, _, saved, joined, .assigned tries exchange filing,
          fun open_ _ => starts'' open_⟩

omit [Server σ] in
/-- A client is forgotten in so many words. -/
theorem Tries.forgets {id : ClientId} {name : String} {s s' : Session κ} {left : Nat}
    {xs : List Round} {outcome : Except Error (Option Reception)}
    (tries : Tries taking (.plain id .reconnect name) ReconnectVerdict s left xs outcome s')
    (forgotten : outcome = .ok (some .forgotten)) : ∃ x ∈ xs, x.forgets = true := by
  induction tries with
  | exhausted => cases forgotten
  | refused fault => cases forgotten
  | unheard e => cases forgotten
  | judged h settled =>
    cases h with
    | forgotten code =>
      exact ⟨_, List.mem_singleton.2 rfl, decide_eq_true ⟨rfl, code⟩⟩
    | _ => cases forgotten
  | again h later ih =>
    obtain ⟨x, mem, found⟩ := ih forgotten
    exact ⟨x, List.mem_cons_of_mem _ mem, found⟩

/-- Every run of a reconnection is one, leaves the disk alone unless the server has forgotten the
client, and starts with a round if the line takes a request and the name fits one. -/
theorem conduct_reconnect (w : World σ) (s : Session κ) (peer : String) (ready : w.line.Ready)
    (promise : taking → w.line.Steady) :
    ∃ xs outcome s' w', w.conduct s (reconnect peer) = (outcome, s', w') ∧
      w.line.Bears xs w'.line ∧ Reconnection taking s w.disk xs outcome s' w'.disk ∧
      (w.line.refusal = none → (Utf8.encode s.name).length < Wire.nameWidth → xs ≠ []) ∧
      ((∀ x ∈ xs, x.forgets = false) → w'.disk = w.disk) := by
  unfold reconnect
  rw [World.conduct_bind_of_ok (World.conduct_get ..), World.conduct_bind_of_ok
    (World.conduct_log ..), World.conduct_bind_of_ok (World.conduct_enter ..)]
  rcases Request.plain_cases s.clientId .reconnect s.name with ⟨e, unmade⟩ | ⟨r, ok, writes⟩
  · rw [unmade]
    refine ⟨[], _, _, _, World.conduct_bind_of_error (World.conduct_settle ..), rfl,
      .unsendable unmade, fun _ short => ?_, fun _ => rfl⟩
    obtain ⟨r, made, -⟩ := Request.plain_writes s.clientId .reconnect short
    rw [unmade] at made
    cases made
  · rw [ok, World.conduct_bind_of_ok (World.conduct_settle ..)]
    obtain ⟨xs, outcome, s', l, log, ran, bears, tries, starts⟩ :=
      conduct_retry judges_reconnect writes maxTries 1 { s with phase := .reconnecting }
        (w.talked w.line (.reconnecting peer s.name s.clientId :: w.log)) ready promise
    have starts' (open_ : w.line.refusal = none) : xs ≠ [] := starts open_ (by decide)
    match outcome, tries with
    | .error e, tries =>
      exact ⟨xs, _, s', _, World.conduct_bind_of_error ran, bears, .failed tries,
        fun open_ _ => starts' open_, fun _ => rfl⟩
    | .ok none, tries =>
      exact ⟨xs, _, _, _, World.conduct_bind_of_ok ran, bears, .exhausted tries,
        fun open_ _ => starts' open_, fun _ => rfl⟩
    | .ok (some .resumed), tries =>
      exact ⟨xs, _, _, _, World.conduct_bind_of_ok ran, bears, .resumed tries,
        fun open_ _ => starts' open_, fun _ => rfl⟩
    | .ok (some .forgotten), tries =>
      obtain ⟨ys, outcome, s₂, w₂, ran₂, bears₂, registration, -⟩ := conduct_register
        (w.talked l (.forgotten :: log)) { s' with clientId := .unset, key := none } peer
        (bears.ready _ ready) (fun h => bears.steady _ (promise h))
      refine ⟨_, _, _, _, (World.conduct_bind_of_ok ran).trans
        ((World.conduct_bind_of_ok (World.conduct_log ..)).trans
          ((World.conduct_bind_of_ok (World.conduct_modify ..)).trans ran₂)),
        bears.append _ bears₂, .forgotten tries registration, fun open_ _ => ?_,
        fun remembered => ?_⟩
      · simp [starts' open_]
      -- the registration that follows may write to the disk, but then the server has forgotten
      · obtain ⟨x, mem, forgets⟩ := tries.forgets rfl
        rw [remembered x (List.mem_append_left ys mem)] at forgets
        cases forgets

/-- Every run of an establishment is a reconnection if an identity is loaded, and a registration
otherwise. -/
theorem conduct_establish (w : World σ) (s : Session κ) (peer : String) :
    w.conduct s (establish peer) =
      if s.phase = .hasIdentity then w.conduct s (reconnect peer)
      else w.conduct s (register peer) := by
  unfold establish
  rw [World.conduct_bind_of_ok (World.conduct_get ..)]
  cases s.phase with
  | hasIdentity => rfl
  | _ => rfl

end Handshake

end EncryptedBackup
