/-
Handshakes that bring one session key or another. Steps of a handshake are twins if in worlds that
are alike, with sessions that resemble one another, they come to related results or the same error
(`Handshake.Twins`); the whole handshake is its own twin (`twins_establish`). What is to be known of
the keyring on the way is a condition before and behind each step.
-/
import EncryptedBackup.Proofs.Handshake.Steps
import EncryptedBackup.Proofs.World.Twins

namespace EncryptedBackup

variable {κ σ α β γ δ : Type} [Keyring κ] [Server σ] {ring : κ}

/-! ## Steps -/

/-- In worlds that are alike, with sessions that resemble one another and a keyring of which `P` is
known, two steps come to related values, and worlds and sessions stay so, with a keyring of which
`Q` is known; or they come to the same error, and the worlds show the same. -/
def Handshake.Twins (ring : κ) (P Q : κ → Prop) (R : α → β → Prop)
    (x : Handshake κ (InWorld σ) α) (y : Handshake κ (InWorld σ) β) : Prop :=
  ∀ (w w' : World σ) (s s' : Session κ), w.Alike ring w' → s.Resembles s' → P s.keyring →
    Agree (fun a b => a.1.Resembles b.1 ∧ Q a.1.keyring ∧ a.2.Alike ring b.2)
      (fun a b => a.1.Resembles b.1 ∧ a.2.shown = b.2.shown) R (w.conduct s x) (w'.conduct s' y)

namespace Handshake.Twins

variable {O P Q : κ → Prop} {R : α → β → Prop} {T : γ → δ → Prop}

protected theorem bind {x : Handshake κ (InWorld σ) α} {y : Handshake κ (InWorld σ) β}
    {f : α → Handshake κ (InWorld σ) γ} {g : β → Handshake κ (InWorld σ) δ}
    (first : Twins ring O P R x y) (second : ∀ a b, R a b → Twins ring P Q T (f a) (g b)) :
    Twins ring O Q T (x >>= f) (y >>= g) := by
  intro w w' s s' alike resembles known
  have outcome := first w w' s s' alike resembles known
  generalize ran : w.conduct s x = p at outcome
  generalize ran' : w'.conduct s' y = q at outcome
  cases outcome with
  | ok value state =>
    rw [World.conduct_bind_of_ok ran, World.conduct_bind_of_ok ran']
    exact second _ _ value _ _ _ _ state.2.2 state.1 state.2.1
  | error e state =>
    rw [World.conduct_bind_of_error ran, World.conduct_bind_of_error ran']
    exact .error e state

/-- The first step has the same value in both runs. -/
theorem andThen {x y : Handshake κ (InWorld σ) α} {f : α → Handshake κ (InWorld σ) γ}
    {g : α → Handshake κ (InWorld σ) δ} (first : Twins ring O P Eq x y)
    (second : ∀ a, Twins ring P Q T (f a) (g a)) : Twins ring O Q T (x >>= f) (y >>= g) :=
  first.bind fun a _ same => same ▸ second a

/-- Less need be known behind a step. -/
theorem mono {x : Handshake κ (InWorld σ) α} {y : Handshake κ (InWorld σ) β}
    (twins : Twins ring O P R x y) (weaker : ∀ k, P k → Q k) : Twins ring O Q R x y := by
  intro w w' s s' alike resembles known
  have outcome := twins w w' s s' alike resembles known
  generalize w.conduct s x = p at outcome
  generalize w'.conduct s' y = q at outcome
  cases outcome with
  | ok value state => exact .ok value ⟨state.1, weaker _ state.2.1, state.2.2⟩
  | error e state => exact .error e state

theorem perform {x : Act (InWorld σ) α} {y : Act (InWorld σ) β} (twins : Act.Twins ring R x y) :
    Twins ring P P R (Handshake.perform x) (Handshake.perform y) := by
  intro w w' s s' alike resembles known
  have outcome := twins w w' alike
  rw [World.conduct_perform, World.conduct_perform]
  generalize w.run x = p at outcome
  generalize w'.run y = q at outcome
  cases outcome with
  | ok value state => exact .ok value ⟨resembles, known, state⟩
  | error e state => exact .error e ⟨resembles, state⟩

theorem settle {x : Except Error α} {y : Except Error β} (concurs : Concurs R x y) :
    Twins ring P P R (Handshake.settle x : Handshake κ (InWorld σ) α) (Handshake.settle y) := by
  intro w w' s s' alike resembles known
  rw [World.conduct_settle, World.conduct_settle]
  cases concurs with
  | ok value => exact .ok value ⟨resembles, known, alike⟩
  | error e => exact .error e ⟨resembles, alike.shown⟩

protected theorem pure {a : α} {b : β} (value : R a b) :
    Twins ring P P R (Pure.pure a : Handshake κ (InWorld σ) α) (Pure.pure b) :=
  settle (.ok value)

protected theorem throw (e : Error) :
    Twins ring P Q R (MonadExcept.throw e : Handshake κ (InWorld σ) α) (MonadExcept.throw e) :=
  fun _ _ _ _ alike resembles _ => .error e ⟨resembles, alike.shown⟩

theorem log (e : Event) :
    Twins ring P P Eq (Handshake.log e : Handshake κ (InWorld σ) Unit) (Handshake.log e) :=
  perform (.log e)

/-- The session as it stands. -/
theorem session : Twins ring P P (fun s s' => s.Resembles s' ∧ P s.keyring)
    (get : Handshake κ (InWorld σ) (Session κ)) get :=
  fun _ _ _ _ alike resembles known => .ok ⟨resembles, known⟩ ⟨resembles, known, alike⟩

theorem change {f g : Session κ → Session κ} (keeps : ∀ s s', s.Resembles s' →
    (f s).Resembles (g s') ∧ (f s).keyring = s.keyring) :
    Twins ring P P Eq (modify f : Handshake κ (InWorld σ) PUnit) (modify g) := by
  intro w w' s s' alike resembles known
  obtain ⟨still, same⟩ := keeps s s' resembles
  exact .ok rfl ⟨still, same.symm ▸ known, alike⟩

theorem enter (phase : Phase) : Twins ring P P Eq
    (Handshake.enter phase : Handshake κ (InWorld σ) Unit) (Handshake.enter phase) :=
  change fun _ _ ⟨key, same, held⟩ => ⟨⟨key, same ▸ rfl, held⟩, rfl⟩

/-- Tries of steps that are twins. -/
theorem retry {body body' : Nat → Handshake κ (InWorld σ) (Option α)}
    (step : ∀ i, Twins ring P P Eq (body i) (body' i)) : ∀ left attempt : Nat,
    Twins ring P P Eq (Handshake.retry body left attempt) (Handshake.retry body' left attempt)
  | 0, _ => .pure rfl
  | left + 1, attempt => (step attempt).andThen fun
    | some _ => .pure rfl
    | none => retry step left (attempt + 1)

end Handshake.Twins

/-! ## Keys -/

namespace Handshake

/-- The key in a response: the same bytes, or bytes that open both times. -/
theorem encryptedKey_concurs {r r' : Response} (resembles : r.Resembles ring r') :
    Concurs (fun bs bs' => bs = bs' ∨ Opens (keyringAt ring r.code) bs ∧
      Opens (keyringAt ring r.code) bs') r.encryptedKey r'.encryptedKey := by
  cases resembles with
  | same =>
    cases r.encryptedKey with
    | error e => exact .error e
    | ok bs => exact .ok (.inl rfl)
  | key _ _ _ opens opens' => exact .ok (.inr ⟨opens, opens'⟩)

theorem twins_adoptKey {held : κ} {bs bs' : Bytes}
    (taken : bs = bs' ∨ Opens held bs ∧ Opens held bs') :
    Twins ring (· = held) (· = held) Eq (adoptKey bs : Handshake κ (InWorld σ) Unit)
      (adoptKey bs') := by
  rintro w w' s _ alike ⟨key, rfl, some⟩ rfl
  rw [conduct_adoptKey, conduct_adoptKey]
  obtain rfl | ⟨⟨key₁, first⟩, ⟨key₂, second⟩⟩ := taken
  · cases Keyring.unwrap s.keyring bs >>= SessionKey.ofBytes with
    | error e => exact .error e ⟨⟨key, rfl, some⟩, alike.shown⟩
    | ok key' => exact .ok rfl ⟨⟨_, rfl, rfl⟩, rfl, alike⟩
  · rw [first, second]
    simp only [bind, Except.bind, SessionKey.ofBytes_bytes]
    exact .ok rfl ⟨⟨_, rfl, rfl⟩, rfl, alike⟩

/-- What a response grants is taken in both runs or in neither. -/
theorem twins_grant {held : κ} {r r' : Response} (resembles : r.Resembles ring r')
    (holds : keyringAt ring r.code = held) {next : Handshake κ (InWorld σ) α}
    (later : Twins ring (· = held) (· = held) Eq next next) :
    Twins ring (· = held) (· = held) Eq (do adoptKey (← settle r.encryptedKey); next)
      (do adoptKey (← settle r'.encryptedKey); next) := by
  refine (Twins.settle (encryptedKey_concurs resembles)).bind fun _ _ taken => ?_
  rw [holds] at taken
  exact (twins_adoptKey taken).andThen fun _ => later

theorem twins_makeKeyPair : Twins ring (· = ring) (· = (Keyring.generate ring).2) Eq
    (makeKeyPair : Handshake κ (InWorld σ) Bytes) makeKeyPair := by
  rintro w w' s _ alike ⟨key, rfl, held⟩ rfl
  rw [conduct_makeKeyPair, conduct_makeKeyPair]
  cases (Keyring.generate s.keyring).1 with
  | error e => exact .error e ⟨⟨key, rfl, held⟩, alike.shown⟩
  | ok field => exact .ok rfl ⟨⟨key, rfl, held⟩, rfl, alike⟩

/-! ## Operations -/

theorem twins_sendPublicKey : Twins ring (· = ring) (· = (Keyring.generate ring).2) Eq
    (sendPublicKey : Handshake κ (InWorld σ) Unit) sendPublicKey := by
  unfold sendPublicKey
  refine twins_makeKeyPair.andThen fun field => Twins.session.bind ?_
  rintro s _ ⟨⟨key, rfl, -⟩, -⟩
  refine (Twins.settle (Request.concurs_of_cases
    (Request.publicKey_cases s.clientId s.name field))).bind fun r r' request => ?_
  refine (Twins.log _).andThen fun _ => (Twins.retry (fun attempt => ?_) _ _).andThen fun taken => ?_
  · refine (Twins.perform (twins_exchange request)).bind fun r r' resembles => ?_
    rw [← resembles.code_eq]
    split
    · rename_i received
      exact twins_grant resembles (by rw [received]; rfl) ((Twins.log _).andThen fun _ => .pure rfl)
    · exact (Twins.log _).andThen fun _ => .pure rfl
  · split
    · exact .throw _
    · exact .pure rfl

theorem twins_store (path : Path) (i : Identity) : Act.Twins ring Eq
    (Identity.store path i : Act (InWorld σ) Unit) (Identity.store path i) := by
  refine Act.Twins.andThen (fun w w' alike => ?_) fun _ => .log _
  have written (w : World σ) :
      w.run (Act.orElse .file (Machine.writeFile path (Utf8.encode i.render))) =
        ((w.writeFile path (Utf8.encode i.render)).1.mapError .file,
          (w.writeFile path (Utf8.encode i.render)).2) := rfl
  rw [written, written]
  unfold World.writeFile
  rw [← alike.disk]
  cases w.disk.write path (Utf8.encode i.render) with
  | error fault => exact .error _ alike.shown
  | ok disk => exact .ok rfl ⟨rfl, alike.log, alike.line⟩

theorem twins_saveIdentity {P : κ → Prop} : Twins ring P P Eq
    (saveIdentity : Handshake κ (InWorld σ) Unit) saveIdentity := by
  unfold saveIdentity
  refine Twins.session.bind ?_
  rintro s _ ⟨⟨key, rfl, -⟩, -⟩
  refine (Twins.settle (.refl _)).andThen fun privateKey => ?_
  exact (Twins.perform (twins_store _ _)).andThen fun _ => .log _

/-- The id in a response has nothing to do with a key. -/
theorem clientId_concurs {r r' : Response} (resembles : r.Resembles ring r') :
    Concurs Eq r.clientId r'.clientId := by
  cases resembles with
  | same => exact .refl _
  | key => exact .ok rfl

theorem twins_register (peer : String) : Twins ring (· = ring) (· = (Keyring.generate ring).2) Eq
    (register peer : Handshake κ (InWorld σ) Unit) (register peer) := by
  unfold register
  refine Twins.session.bind ?_
  rintro s _ ⟨⟨key, rfl, -⟩, -⟩
  refine (Twins.log _).andThen fun _ => (Twins.enter _).andThen fun _ => ?_
  refine Twins.session.bind ?_
  rintro s _ ⟨⟨key, rfl, -⟩, -⟩
  refine (Twins.settle (Request.concurs_of_cases
    (Request.plain_cases s.clientId _ s.name))).bind fun r r' request => ?_
  refine (Twins.retry (fun attempt => ?_) _ _).andThen fun assigned => ?_
  · refine (Twins.perform (twins_exchange request)).bind fun r r' resembles => ?_
    rw [← resembles.code_eq]
    split
    · exact (Twins.settle (clientId_concurs resembles)).andThen fun _ => .pure rfl
    · exact (Twins.log _).andThen fun _ => .pure rfl
  · cases assigned with
    | none => exact (Twins.enter _).andThen fun _ => .throw _
    | some id =>
      refine Twins.andThen (Twins.change fun s s' ⟨key, same, held⟩ =>
        ⟨⟨key, same ▸ rfl, held⟩, rfl⟩) fun _ => ?_
      exact (Twins.log _).andThen fun _ => twins_sendPublicKey.andThen fun _ => twins_saveIdentity

theorem twins_reconnect (peer : String) : Twins ring (· = ring)
    (fun held => held = ring ∨ held = (Keyring.generate ring).2) Eq
    (reconnect peer : Handshake κ (InWorld σ) Unit) (reconnect peer) := by
  unfold reconnect
  refine Twins.session.bind ?_
  rintro s _ ⟨⟨key, rfl, -⟩, -⟩
  refine (Twins.log _).andThen fun _ => (Twins.enter _).andThen fun _ => ?_
  refine (Twins.settle (Request.concurs_of_cases
    (Request.plain_cases s.clientId _ s.name))).bind fun r r' request => ?_
  refine (Twins.retry (fun attempt => ?_) _ _).andThen fun received => ?_
  · refine (Twins.perform (twins_exchange request)).bind fun r r' resembles => ?_
    rw [← resembles.code_eq]
    split
    · rename_i resumed
      exact twins_grant resembles (by rw [resumed]; rfl) (.pure rfl)
    · exact .pure rfl
    · exact (Twins.log _).andThen fun _ => .pure rfl
  · match received with
    | some .resumed => exact ((Twins.enter _).andThen fun _ => .log _).mono fun _ => .inl
    | some .forgotten =>
      refine (Twins.log _).andThen fun _ => ?_
      refine Twins.andThen (Twins.change fun s s' ⟨_, same, _⟩ =>
        ⟨⟨none, same ▸ rfl, rfl⟩, rfl⟩) fun _ => ?_
      exact (twins_register peer).mono fun _ => .inr
    | none => exact (Twins.enter _).andThen fun _ => .throw _

theorem twins_establish (peer : String) : Twins ring (· = ring)
    (fun held => held = ring ∨ held = (Keyring.generate ring).2) Eq
    (establish peer : Handshake κ (InWorld σ) Unit) (establish peer) := by
  unfold establish
  refine Twins.session.bind ?_
  rintro s _ ⟨⟨key, rfl, -⟩, -⟩
  dsimp only
  split
  · exact twins_reconnect peer
  · exact (twins_register peer).mono fun _ => .inr

end Handshake

end EncryptedBackup
