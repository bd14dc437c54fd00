/-
Handshakes that succeed at the first try. What is heard in answer to each request decides how a
registration or a reconnection ends (`conduct_register_done`, `conduct_reconnect_done`); a server
that keeps what it is sent gives these answers to a client whose keyring unwraps what it wraps.
-/
import EncryptedBackup.Proofs.Handshake.Steps
import EncryptedBackup.Proofs.Wire.Answers

namespace EncryptedBackup

variable {κ : Type}

namespace Handshake

section

variable {σ α : Type} [Server σ] {w : World σ} {s : Session κ}

/-- One try is enough if its answer settles the matter. -/
theorem conduct_retry_first (s' : Session κ) (attempt : Nat) {judge : Nat → Response → Handshake κ (InWorld σ) (Option α)}
    {J : Response → Session κ → Except Error (Option α) → Session κ → Prop}
    (judges : Judges judge J) {request : Request} {f : Frame} (writes : request.Writes f)
    {left : Nat} (enough : 0 < left) (steady : w.line.Steady) {r : Response} {l : Line σ}
    (heard : (w.line.give f).hear = (.ok r, l)) {a : α}
    (settles : ∀ {outcome s₁}, J r s outcome s₁ → outcome = .ok (some a) ∧ s₁ = s') :
    ∃ log, w.conduct s (retry (fun i => do judge i (← perform (exchange request))) left attempt) =
      (.ok (some a), s', w.talked l log) := by
  obtain ⟨xs, outcome, s₁, l₁, log, ran, bears, tries, -⟩ :=
    conduct_retry judges writes left attempt s w steady.ready fun _ : True => steady
  refine ⟨log, ?_⟩
  cases tries with
  | exhausted => cases enough
  | refused closed => exact absurd trivial closed
  | unheard e =>
    have answer := bears.1
    rw [heard] at answer
    cases answer
  | judged h settled =>
    obtain ⟨answer, behind⟩ := bears
    rw [heard] at answer behind
    cases answer
    cases behind
    obtain ⟨rfl, rfl⟩ := settles h
    exact ran
  | again h later =>
    have answer := bears.1
    rw [heard] at answer
    cases answer
    cases (settles h).1

variable [Keyring κ]

/-- An exchange of keys whose first answer grants a key. -/
theorem conduct_sendPublicKey_done (steady : w.line.Steady)
    (short : (Utf8.encode s.name).length < Wire.nameWidth) {field : Bytes} {made : κ}
    (generated : Keyring.generate s.keyring = (.ok field, made))
    (full : field.length = Wire.publicKeyWidth) {r : Response} {l : Line σ} {key : SessionKey}
    (heard : (w.line.give (.publicKey s.clientId s.name field)).hear = (.ok r, l))
    (received : r.code = .publicKeyReceived) (granted : r.granted? made = some key) :
    ∃ log, w.conduct s sendPublicKey =
      (.ok (), { s with keyring := made, key := some key }, w.talked l log) := by
  have pair := conduct_makeKeyPair w s
  rw [generated] at pair
  obtain ⟨request, requested, writes⟩ := Request.publicKey_writes s.clientId short full
  obtain ⟨log, ran⟩ := conduct_retry_first { s with keyring := made, key := some key } 1
    judges_key writes (by decide : 0 < maxTries) (s := { s with keyring := made })
    (w := w.talked w.line (.publicKeyMade :: w.log)) steady heard (a := ()) (fun h => by
      cases h with
      | rejected other => exact absurd received other
      | unusable _ nothing =>
        rw [granted] at nothing
        cases nothing
      | granted _ this =>
        rw [granted] at this
        cases this
        exact ⟨rfl, rfl⟩)
  refine ⟨log, ?_⟩
  unfold sendPublicKey
  rw [World.conduct_bind_of_ok pair, World.conduct_bind_of_ok (World.conduct_get ..), requested,
    World.conduct_bind_of_ok (World.conduct_settle ..),
    World.conduct_bind_of_ok (World.conduct_log ..)]
  exact World.conduct_bind_of_ok ran

/-- A registration whose answers assign an id and grant a key, and whose identity can be saved. -/
theorem conduct_register_done (peer : String) (steady : w.line.Steady)
    (short : (Utf8.encode s.name).length < Wire.nameWidth)
    {r₁ r₂ : Response} {l₁ l₂ : Line σ} {id : ClientId} {key : SessionKey} {d : Disk}
    (first : (w.line.give (.plain s.clientId .register s.name)).hear = (.ok r₁, l₁))
    (registered : r₁.code = .registered) (assigned : r₁.clientId = .ok id)
    {field : Bytes} {made : κ} (generated : Keyring.generate s.keyring = (.ok field, made))
    (full : field.length = Wire.publicKeyWidth)
    (second : (l₁.give (.publicKey id s.name field)).hear = (.ok r₂, l₂))
    (received : r₂.code = .publicKeyReceived) (granted : r₂.granted? made = some key)
    (filed : Session.file { s with clientId := id, keyring := made } w.disk = .ok d) :
    ∃ log, w.conduct s (register peer) =
      (.ok (), { s with clientId := id, keyring := made, key := some key, phase := .registered },
        { w with disk := d, line := l₂, log }) := by
  obtain ⟨request, requested, writes⟩ := Request.plain_writes s.clientId .register short
  obtain ⟨log₁, tried⟩ := conduct_retry_first { s with phase := .registering } 1 judges_id writes
    (by decide : 0 < maxTries) (s := { s with phase := .registering })
    (w := w.talked w.line (.registering peer s.name :: w.log)) steady first (a := id) (fun h => by
      cases h with
      | rejected other => exact absurd registered other
      | unnamed _ nothing =>
        rw [assigned] at nothing
        cases nothing
      | assigned _ this =>
        rw [assigned] at this
        cases this
        exact ⟨rfl, rfl⟩)
  have behind : l₁ = (w.line.give (.plain s.clientId .register s.name)).hear.2 := by rw [first]
  have steady₁ : l₁.Steady := behind ▸ (steady.give _).hear
  obtain ⟨log₂, exchanged⟩ := conduct_sendPublicKey_done
    (w := w.talked l₁ (.registered id :: log₁))
    (s := { s with clientId := id, phase := .registered }) steady₁ short generated full second
    received granted
  obtain ⟨outcome, d', log₃, saved, filing⟩ := conduct_saveIdentity (w.talked l₂ log₂)
    { s with clientId := id, keyring := made, key := some key, phase := .registered }
  refine ⟨log₃, ?_⟩
  unfold register
  rw [World.conduct_bind_of_ok (World.conduct_get ..), World.conduct_bind_of_ok
    (World.conduct_log ..), World.conduct_bind_of_ok (World.conduct_enter ..),
    World.conduct_bind_of_ok (World.conduct_get ..), requested,
    World.conduct_bind_of_ok (World.conduct_settle ..), World.conduct_bind_of_ok tried]
  simp only
  rw [World.conduct_bind_of_ok (World.conduct_modify ..),
    World.conduct_bind_of_ok (World.conduct_log ..)]
  simp only [World.talked_talked, World.talked_line, World.talked_log] at exchanged ⊢
  rw [World.conduct_bind_of_ok exchanged]
  -- what is saved does not depend on the key or on the phase
  cases filing with
  | unsaved refused =>
    have filed' := filed.symm.trans refused
    cases filed'
  | saved written =>
    have filed' := filed.symm.trans written
    cases filed'
    exact saved

/-- A reconnection whose first answer grants a key. -/
theorem conduct_reconnect_done (peer : String) (steady : w.line.Steady)
    (short : (Utf8.encode s.name).length < Wire.nameWidth) {r : Response} {l : Line σ}
    {key : SessionKey} (heard : (w.line.give (.plain s.clientId .reconnect s.name)).hear = (.ok r, l))
    (resumed : r.code = .reconnected) (granted : r.granted? s.keyring = some key) :
    ∃ log, w.conduct s (reconnect peer) =
      (.ok (), { s with key := some key, phase := .connected }, w.talked l log) := by
  obtain ⟨request, requested, writes⟩ := Request.plain_writes s.clientId .reconnect short
  obtain ⟨log, tried⟩ := conduct_retry_first { s with phase := .reconnecting, key := some key } 1
    judges_reconnect writes (by decide : 0 < maxTries) (s := { s with phase := .reconnecting })
    (w := w.talked w.line (.reconnecting peer s.name s.clientId :: w.log)) steady heard (a := .resumed) (fun h => by
      cases h with
      | unclear other => exact absurd resumed other
      | unusable _ nothing =>
        rw [granted] at nothing
        cases nothing
      | resumed _ this =>
        rw [granted] at this
        cases this
        exact ⟨rfl, rfl⟩
      | forgotten other =>
        rw [resumed] at other
        cases other)
  refine ⟨.reconnected :: log, ?_⟩
  unfold reconnect
  rw [World.conduct_bind_of_ok (World.conduct_get ..), World.conduct_bind_of_ok
    (World.conduct_log ..), World.conduct_bind_of_ok (World.conduct_enter ..), requested,
    World.conduct_bind_of_ok (World.conduct_settle ..)]
  exact (World.conduct_bind_of_ok tried).trans
    (World.conduct_bind_of_ok (World.conduct_enter ..))

end

end Handshake

/-! ## A server that keeps what it is sent -/

namespace Archive

theorem answer_register (a : Archive) (id : ClientId) (name : String) :
    a.answer (.plain id .register name) = a.register := rfl

theorem answer_reconnect (a : Archive) (id : ClientId) (name : String) :
    a.answer (.plain id .reconnect name) = a.reconnect id := rfl

theorem answer_publicKey (a : Archive) (id : ClientId) (name : String) (field : Bytes) :
    a.answer (.publicKey id name field) = a.takeKey id field := by
  have behind : (Field.padded Wire.nameWidth (Utf8.encode name) ++ field).drop Wire.nameWidth =
      field := List.drop_left' (Field.padded_length ..)
  unfold answer Frame.publicKey
  simp only [RequestCode.ofNumber?_number, behind]

/-- The session key of the next exchange. -/
def nextKey (a : Archive) : SessionKey := a.sessionKeys a.exchanges

/-- The server behind an exchange of keys. -/
def exchanged (a : Archive) : Archive :=
  { a with key := some a.nextKey, exchanges := a.exchanges + 1 }

variable [Keyring κ]

/-- A keyring unwraps all the session keys that a server wraps for a public key, and these fit a
response. -/
structure Unwraps (a : Archive) (field : Bytes) (ring : κ) : Prop where
  unwrap_eq : ∀ n, Keyring.unwrap ring (a.wrap field (a.sessionKeys n)) = .ok (a.sessionKeys n).bytes
  fits : ∀ n, ClientId.length + (a.wrap field (a.sessionKeys n)).length ≤ Response.maxPayload

/-- A client that unwraps them is granted the next session key. -/
theorem Unwraps.granted {a : Archive} {field : Bytes} {ring : κ} (unwraps : a.Unwraps field ring)
    (code : ResponseCode) (id : ClientId) :
    (Response.framed code (.withKey id (a.wrap field a.nextKey))).granted? ring =
      some a.nextKey := by
  have unwrapped := unwraps.unwrap_eq a.exchanges
  unfold Response.granted? Response.framed Response.encryptedKey
  unfold nextKey
  simp only [Except.toOption, bind, Option.bind, unwrapped, SessionKey.ofBytes_bytes]

/-- A quiet line hears a key that was exchanged. -/
theorem Unwraps.hear_key {l : Line Archive} {a : Archive} {field : Bytes} {ring : κ}
    (unwraps : a.Unwraps field ring) (connected : l.isOpen = true) (quiet : l.arriving = [])
    {f : Frame} {code : ResponseCode} {id : ClientId}
    (brings : code = .publicKeyReceived ∨ code = .reconnected)
    (answered : l.server.answer f = a.exchangeKeys code id field) :
    (l.give f).hear = (.ok (Response.framed code (.withKey id (a.wrap field a.nextKey))),
      { l.give f with arriving := [] }) ∧ (l.give f).server = a.exchanged :=
  Line.hear_said connected quiet (Response.carries_key brings id (unwraps.fits a.exchanges)) answered

end Archive

namespace Handshake

variable [Keyring κ] {w : World Archive} {s : Session κ} {field : Bytes}

/-- A new client is given the next id and the next session key. -/
theorem conduct_register_archive (peer : String) (steady : w.line.Steady)
    (quiet : w.line.arriving = []) (short : (Utf8.encode s.name).length < Wire.nameWidth) {made : κ}
    (generated : Keyring.generate s.keyring = (.ok field, made))
    (full : field.length = Wire.publicKeyWidth) (unwraps : w.line.server.Unwraps field made)
    {id : ClientId} (next : id = Archive.idOf (w.line.server.assigned + 1)) {d : Disk}
    (filed : Session.file { s with clientId := id, keyring := made } w.disk = .ok d) :
    let a := w.line.server
    ∃ l log, w.conduct s (register peer) =
      (.ok (), { s with clientId := id, keyring := made, key := some a.nextKey,
                        phase := .registered }, { w with disk := d, line := l, log }) ∧
      l.Steady ∧ l.arriving = [] ∧
      l.taken = .publicKey id s.name field :: .plain s.clientId .register s.name :: w.line.taken ∧
      l.server = { a with assigned := a.assigned + 1, clients := (id, field) :: a.clients,
                          key := some a.nextKey, exchanges := a.exchanges + 1 } := by
  intro a
  have told : a.register = (Archive.say .registered (.bare (some id)),
      { a with assigned := a.assigned + 1 }) := by
    rw [next]
    rfl
  obtain ⟨first, server₁⟩ := Line.hear_said steady.isOpen quiet (Response.carries_id id)
    ((a.answer_register s.clientId s.name).trans told)
  have steady₁ := (steady.give (.plain s.clientId .register s.name)).hear
  rw [first] at steady₁
  generalize given : w.line.give (.plain s.clientId .register s.name) = l₁ at first server₁ steady₁
  have took : l₁.server.answer (.publicKey id s.name field) = _ :=
    l₁.server.answer_publicKey id s.name field
  rw [server₁] at took
  -- the server wraps as before
  have unwraps₁ : Archive.Unwraps { a with assigned := a.assigned + 1
                                           clients := (id, field) :: a.clients } field made :=
    ⟨unwraps.unwrap_eq, unwraps.fits⟩
  obtain ⟨second, server₂⟩ := unwraps₁.hear_key (l := { l₁ with arriving := [] }) steady₁.isOpen rfl
    (.inl rfl) ((congrArg (Archive.answer · _) server₁).trans took)
  have steady₂ := (steady₁.give (.publicKey id s.name field)).hear
  rw [second] at steady₂
  rw [← given] at first
  obtain ⟨log, ran⟩ := conduct_register_done peer steady short first rfl rfl generated full
    (by rw [given]; exact second) rfl (unwraps₁.granted _ id) filed
  refine ⟨_, log, ran, steady₂, rfl, ?_, server₂⟩
  rw [← given]
  rfl

/-- A client that is known is given the next session key. -/
theorem conduct_reconnect_archive (peer : String) (steady : w.line.Steady)
    (quiet : w.line.arriving = []) (short : (Utf8.encode s.name).length < Wire.nameWidth)
    (known : w.line.server.clients.lookup s.clientId = some field)
    (unwraps : w.line.server.Unwraps field s.keyring) :
    let a := w.line.server
    ∃ l log, w.conduct s (reconnect peer) =
      (.ok (), { s with key := some a.nextKey, phase := .connected }, w.talked l log) ∧
      l.Steady ∧ l.arriving = [] ∧
      l.taken = .plain s.clientId .reconnect s.name :: w.line.taken ∧ l.server = a.exchanged := by
  intro a
  have told : a.answer (.plain s.clientId .reconnect s.name) =
      a.exchangeKeys .reconnected s.clientId field := by
    rw [Archive.answer_reconnect]
    unfold Archive.reconnect
    rw [known]
  obtain ⟨heard, server⟩ := unwraps.hear_key steady.isOpen quiet (.inr rfl) told
  have steady₁ := (steady.give (.plain s.clientId .reconnect s.name)).hear
  rw [heard] at steady₁
  obtain ⟨log, ran⟩ := conduct_reconnect_done peer steady short heard rfl
    (unwraps.granted _ s.clientId)
  exact ⟨_, log, ran, steady₁, rfl, rfl, server⟩

end Handshake

end EncryptedBackup
