/-
What the rounds of a handshake make of a session's client id and key (`Standing`). Each request
carries the client id of its time, and each round changes the standing as `Standing.after` says;
every call leads through its rounds from one standing to another (`Call.through`), and one that
succeeds ends with the delivery of a key (`Call.endsInKey`).
-/
import EncryptedBackup.Proofs.Handshake.Steps

namespace EncryptedBackup

variable {κ : Type} [Keyring κ]

/-! ## What a round changes -/

namespace Round

omit [Keyring κ] in
/-- The client id that a round assigns: in answer to a registration. -/
def assigned? (x : Round) : Option ClientId :=
  match x.answer with
  | .ok r =>
    if x.request.header.code = RequestCode.register.number ∧ r.code = .registered then
      r.clientId.toOption
    else none
  | .error _ => none

/-- The session key that a round delivers to the holder of a keyring: in answer to a public key or
to a reconnection. -/
def delivered? (x : Round) (keyring : κ) : Option SessionKey :=
  match x.answer with
  | .ok r =>
    if x.request.header.code = RequestCode.sendPublicKey.number ∧ r.code = .publicKeyReceived ∨
        x.request.header.code = RequestCode.reconnect.number ∧ r.code = .reconnected then
      r.granted? keyring
    else none
  | .error _ => none

omit [Keyring κ] in
theorem assigned?_register {id given : ClientId} {name : String} {r : Response}
    (code : r.code = .registered) (named : r.clientId = .ok given) :
    assigned? ⟨.plain id .register name, .ok r⟩ = some given := by
  simp [assigned?, Frame.plain, code, named, Except.toOption]

omit [Keyring κ] in
/-- A round assigns an id if the answer to a registration brings it. -/
theorem answer_of_assigned? {x : Round} {id : ClientId} (h : x.assigned? = some id) :
    ∃ r, x.answer = .ok r ∧ r.code = .registered ∧ r.clientId = .ok id ∧
      x.request.header.code = RequestCode.register.number := by
  unfold assigned? at h
  split at h
  · rename_i r answered
    split at h
    · rename_i asked
      cases named : r.clientId with
      | error e =>
        rw [named] at h
        cases h
      | ok given =>
        rw [named] at h
        cases h
        exact ⟨r, answered, asked.2, named, asked.1⟩
    · cases h
  · cases h

/-- A round delivers a key if the answer to a public key or to a reconnection grants it. -/
theorem answer_of_delivered? {x : Round} {keyring : κ} {key : SessionKey}
    (h : x.delivered? keyring = some key) : ∃ r, x.answer = .ok r ∧ r.granted? keyring = some key ∧
      (x.request.header.code = RequestCode.sendPublicKey.number ∧ r.code = .publicKeyReceived ∨
        x.request.header.code = RequestCode.reconnect.number ∧ r.code = .reconnected) := by
  unfold delivered? at h
  split at h
  · rename_i r answered
    split at h
    · rename_i asked
      exact ⟨r, answered, h, asked⟩
    · cases h
  · cases h

/-- A round that delivers a key assigns no id and forgets nobody. -/
theorem of_delivered? {x : Round} {keyring : κ} {key : SessionKey}
    (h : x.delivered? keyring = some key) : x.assigned? = none ∧ x.forgets = false := by
  unfold assigned? forgets
  obtain ⟨r, answered, -, ⟨asked, received⟩ | ⟨asked, received⟩⟩ := answer_of_delivered? h
  · simp [answered, asked, received, RequestCode.number]
  · simp [answered, asked, received, RequestCode.number]

end Round

/-- Who a client is to its server, and the key they share. -/
structure Standing where
  clientId : ClientId
  key : Option SessionKey

omit [Keyring κ] in
/-- The standing of a session. -/
def Session.standing (s : Session κ) : Standing := ⟨s.clientId, s.key⟩

/-- A standing after a round. -/
def Standing.after (a : Standing) (keyring : κ) (x : Round) : Standing :=
  if x.forgets then ⟨.unset, none⟩
  else ⟨x.assigned?.getD a.clientId, (x.delivered? keyring).or a.key⟩

theorem Standing.after_of_delivered? (a : Standing) {keyring : κ} {x : Round} {key : SessionKey}
    (h : x.delivered? keyring = some key) : a.after keyring x = ⟨a.clientId, some key⟩ := by
  obtain ⟨assigned, forgets⟩ := Round.of_delivered? h
  unfold Standing.after
  rw [forgets, assigned, h]
  rfl

/-- Rounds lead from one standing to another, each request carrying the client id of its time. -/
def Standing.Through (keyring : κ) : Standing → List Round → Standing → Prop
  | a, [], b => a = b
  | a, x :: xs, b =>
    x.request.header.clientId = a.clientId ∧ (a.after keyring x).Through keyring xs b

theorem Standing.Through.append {keyring : κ} : ∀ (xs : List Round) {ys : List Round}
    {a b c : Standing}, a.Through keyring xs b → b.Through keyring ys c →
    a.Through keyring (xs ++ ys) c
  | [], _, _, _, _, first, second => by
    cases first
    exact second
  | _ :: xs, _, _, _, _, first, second => ⟨first.1, append xs first.2 second⟩

theorem Standing.Through.exists_of_append {keyring : κ} : ∀ (xs : List Round) {ys : List Round}
    {a c : Standing}, a.Through keyring (xs ++ ys) c →
    ∃ b : Standing, a.Through keyring xs b ∧ b.Through keyring ys c
  | [], _, a, _, h => ⟨a, rfl, h⟩
  | _ :: xs, _, _, _, h => by
    obtain ⟨b, first, second⟩ := exists_of_append xs h.2
    exact ⟨b, ⟨h.1, first⟩, second⟩

theorem Standing.after_publicKey (a : Standing) (keyring : κ) (id : ClientId) (name : String)
    (field : Bytes) (r : Response) :
    a.after keyring ⟨.publicKey id name field, .ok r⟩ =
      ⟨a.clientId, (if r.code = .publicKeyReceived then r.granted? keyring else none).or a.key⟩ := by
  simp [after, Round.forgets, Round.assigned?, Round.delivered?, Frame.publicKey, RequestCode.number]

theorem Standing.after_register (a : Standing) (keyring : κ) (id : ClientId) (name : String)
    (r : Response) :
    a.after keyring ⟨.plain id .register name, .ok r⟩ =
      ⟨(if r.code = .registered then r.clientId.toOption else none).getD a.clientId, a.key⟩ := by
  simp [after, Round.forgets, Round.assigned?, Round.delivered?, Frame.plain, RequestCode.number]

theorem Standing.after_reconnect (a : Standing) (keyring : κ) (id : ClientId) (name : String)
    (r : Response) :
    a.after keyring ⟨.plain id .reconnect name, .ok r⟩ =
      if r.code = .reconnectionFailed then ⟨.unset, none⟩
      else ⟨a.clientId, (if r.code = .reconnected then r.granted? keyring else none).or a.key⟩ := by
  simp [after, Round.forgets, Round.assigned?, Round.delivered?, Frame.plain, RequestCode.number]

/-! ## Operations through their rounds -/

namespace Handshake

variable {taking : Prop} {d d' : Disk}

/-- Tries lead to a standing if every verdict does. -/
theorem Tries.through {α : Type} {f : Frame} {s : Session κ} {keyring : κ}
    {J : Response → Session κ → Except Error (Option α) → Session κ → Prop}
    (place : Except Error (Option α) → Session κ → Standing)
    (own : f.header.clientId = s.clientId)
    (unsettled : ∀ outcome, outcome = .ok none ∨ (∃ e, outcome = .error e) →
      place outcome s = s.standing)
    (verdict : ∀ {r outcome s'}, J r s outcome s' →
      s.standing.after keyring ⟨f, .ok r⟩ = place outcome s') :
    ∀ {left : Nat} {xs : List Round} {outcome : Except Error (Option α)} {s' : Session κ},
    Tries taking f J s left xs outcome s' → s.standing.Through keyring xs (place outcome s') := by
  intro left xs outcome s' tries
  induction tries with
  | exhausted => exact (unsettled _ (.inl rfl)).symm
  | refused fault => exact (unsettled _ (.inr ⟨_, rfl⟩)).symm
  | unheard e => exact ⟨own, (unsettled _ (.inr ⟨_, rfl⟩)).symm⟩
  | judged h settled => exact ⟨own, verdict h⟩
  | again h later ih =>
    -- an answer that settles nothing leaves the standing as it was
    refine ⟨own, ?_⟩
    rw [verdict h, unsettled _ (.inl rfl)]
    exact ih

theorem through_key {s s' : Session κ} {id : ClientId} {name : String} {field : Bytes}
    {left : Nat} {xs : List Round} {outcome : Except Error (Option Unit)}
    (tries : Tries taking (.publicKey id name field) KeyVerdict s left xs outcome s')
    (own : id = s.clientId) :
    s.standing.Through s.keyring xs s'.standing := by
  refine Tries.through (fun _ s' => s'.standing) own (fun _ _ => rfl) ?_ tries
  intro r outcome s' h
  rw [Standing.after_publicKey]
  cases h with
  | rejected h =>
    rw [if_neg h]
    rfl
  | unusable h nothing e =>
    rw [if_pos h, nothing]
    rfl
  | granted h this =>
    rw [if_pos h, this]
    rfl

omit [Keyring κ] in
/-- The standing that the tries of a registration lead to. -/
def registeredPlace (outcome : Except Error (Option ClientId)) (s : Session κ) : Standing :=
  match outcome with
  | .ok (some id) => ⟨id, s.key⟩
  | _ => s.standing

theorem through_register {s s' : Session κ} (keyring : κ) {id : ClientId} {name : String}
    {left : Nat} {xs : List Round} {outcome : Except Error (Option ClientId)}
    (tries : Tries taking (.plain id .register name) IdVerdict s left xs outcome s')
    (own : id = s.clientId) :
    s.standing.Through keyring xs (registeredPlace outcome s') := by
  refine Tries.through registeredPlace own ?_ ?_ tries
  · rintro outcome (rfl | ⟨e, rfl⟩)
    · rfl
    · rfl
  intro r outcome s' h
  rw [Standing.after_register]
  cases h with
  | rejected h =>
    rw [if_neg h]
    rfl
  | unnamed h nothing =>
    rw [if_pos h, nothing]
    rfl
  | assigned h this =>
    rw [if_pos h, this]
    rfl

omit [Keyring κ] in
/-- The standing that the tries of a reconnection lead to. -/
def reconnectedPlace (outcome : Except Error (Option Reception)) (s : Session κ) : Standing :=
  match outcome with
  | .ok (some .forgotten) => ⟨.unset, none⟩
  | _ => s.standing

theorem through_reconnect {s s' : Session κ} {id : ClientId} {name : String} {left : Nat}
    {xs : List Round} {outcome : Except Error (Option Reception)}
    (tries : Tries taking (.plain id .reconnect name) ReconnectVerdict s left xs outcome s')
    (own : id = s.clientId) :
    s.standing.Through s.keyring xs (reconnectedPlace outcome s') := by
  refine Tries.through reconnectedPlace own ?_ ?_ tries
  · rintro outcome (rfl | ⟨e, rfl⟩)
    · rfl
    · rfl
  intro r outcome s' h
  rw [Standing.after_reconnect]
  cases h with
  | unclear h h' =>
    rw [if_neg h', if_neg h]
    rfl
  | unusable h nothing e =>
    rw [if_neg (by rw [h]; nofun), if_pos h, nothing]
    rfl
  | resumed h this =>
    rw [if_neg (by rw [h]; nofun), if_pos h, this]
    rfl
  | forgotten h =>
    rw [if_pos h]
    rfl

/-- The keyring has no part in rounds at whose end a client turns out to be forgotten. -/
theorem through_forgotten {s s' : Session κ} (keyring : κ) {id : ClientId} {name : String}
    {left : Nat} {xs : List Round} {outcome : Except Error (Option Reception)}
    (tries : Tries taking (.plain id .reconnect name) ReconnectVerdict s left xs outcome s')
    (own : id = s.clientId) (forgotten : outcome = .ok (some .forgotten)) :
    s' = s ∧ s.standing.Through keyring xs ⟨.unset, none⟩ := by
  induction tries with
  | exhausted => cases forgotten
  | refused fault => cases forgotten
  | unheard e => cases forgotten
  | judged h settled =>
    cases h with
    | forgotten h =>
      refine ⟨rfl, own, ?_⟩
      rw [Standing.after_reconnect, if_pos h]
      rfl
    | _ => cases forgotten
  | again h later ih =>
    obtain ⟨same, rest⟩ := ih forgotten
    cases h with
    | unclear h h' =>
      refine ⟨same, own, ?_⟩
      rw [Standing.after_reconnect, if_neg h', if_neg h]
      exact rest

/-! ## Operations -/

theorem KeyExchange.through {s s' : Session κ} {xs : List Round} {outcome : Except Error Unit}
    (h : KeyExchange taking s xs outcome s') : s.standing.Through s'.keyring xs s'.standing := by
  cases h with
  | unmade made => rfl
  | unsendable made unmade => rfl
  | failed made tries | exhausted made tries | done made tries =>
    rw [congrArg Session.keyring tries.session_of_key]
    exact through_key tries rfl

theorem Registration.through {s s' : Session κ} {xs : List Round} {outcome : Except Error Unit}
    (h : Registration taking s d xs outcome s' d') : s.standing.Through s'.keyring xs s'.standing := by
  cases h with
  | unsendable unmade => rfl
  | failed tries => exact through_register _ tries rfl
  | exhausted tries => exact through_register _ tries rfl
  | @assigned xs ys clientId s₁ _ _ _ _ tries exchange filing =>
    -- the keyring has no part in the first rounds, so that of the end will do
    have first : s.standing.Through s'.keyring xs ⟨clientId, s₁.key⟩ :=
      through_register _ tries rfl
    exact first.append _ exchange.through

theorem Reconnection.through {s s' : Session κ} {xs : List Round} {outcome : Except Error Unit}
    (h : Reconnection taking s d xs outcome s' d') : s.standing.Through s'.keyring xs s'.standing := by
  cases h with
  | unsendable unmade => rfl
  | failed tries =>
    rw [congrArg Session.keyring tries.session_of_reconnect]
    exact through_reconnect tries rfl
  | @exhausted _ s₁ tries =>
    show s.standing.Through s₁.keyring xs _
    rw [congrArg Session.keyring tries.session_of_reconnect]
    exact through_reconnect tries rfl
  | @resumed _ s₁ tries =>
    show s.standing.Through s₁.keyring xs _
    rw [congrArg Session.keyring tries.session_of_reconnect]
    exact through_reconnect tries rfl
  | forgotten tries registration =>
    obtain ⟨-, first⟩ := through_forgotten s'.keyring tries rfl rfl
    exact first.append _ registration.through

/-! ## Success -/

/-- The last round delivers a session key. -/
def EndsInKey (keyring : κ) (xs : List Round) : Prop :=
  ∃ earlier x key, xs = earlier ++ [x] ∧ x.delivered? keyring = some key

theorem EndsInKey.append {keyring : κ} {ys : List Round} (xs : List Round)
    (h : EndsInKey keyring ys) : EndsInKey keyring (xs ++ ys) := by
  obtain ⟨earlier, x, key, rfl, delivered⟩ := h
  exact ⟨xs ++ earlier, x, key, (List.append_assoc ..).symm, delivered⟩

theorem KeyExchange.endsInKey {s s' : Session κ} {xs : List Round}
    (h : KeyExchange taking s xs (.ok ()) s') : EndsInKey s'.keyring xs := by
  cases h with
  | done made tries =>
    rw [congrArg Session.keyring tries.session_of_key]
    obtain ⟨earlier, r, rfl, judged⟩ := tries.settled rfl
    cases judged with
    | @granted code key granted =>
      refine ⟨earlier, _, key, rfl, ?_⟩
      simp [Round.delivered?, Frame.publicKey, code, granted]

theorem Registration.endsInKey {s s' : Session κ} {xs : List Round}
    (h : Registration taking s d xs (.ok ()) s' d') : EndsInKey s'.keyring xs := by
  cases h with
  | @assigned xs _ _ _ _ _ _ _ tries exchange filing =>
    cases filing with
    | saved => exact exchange.endsInKey.append xs

theorem Reconnection.endsInKey {s s' : Session κ} {xs : List Round}
    (h : Reconnection taking s d xs (.ok ()) s' d') : EndsInKey s'.keyring xs := by
  cases h with
  | @resumed _ s₁ tries =>
    show EndsInKey s₁.keyring xs
    rw [congrArg Session.keyring tries.session_of_reconnect]
    obtain ⟨earlier, r, rfl, judged⟩ := tries.settled rfl
    cases judged with
    | @resumed code key granted =>
      refine ⟨earlier, _, key, rfl, ?_⟩
      simp [Round.delivered?, Frame.plain, code, granted]
  | forgotten tries registration => exact registration.endsInKey.append _

/-! ## Calls -/

/-- An operation that a caller may ask for. -/
inductive Call where
  | establish (peer : String)
  | register (peer : String)
  | reconnect (peer : String)
  | sendPublicKey

/-- What comes of a call. -/
def Call.conduct {σ : Type} [Server σ] (c : Call) (w : World σ) (s : Session κ) :
    Except Error Unit × Session κ × World σ :=
  match c with
  | .establish peer => w.conduct s (Handshake.establish peer)
  | .register peer => w.conduct s (Handshake.register peer)
  | .reconnect peer => w.conduct s (Handshake.reconnect peer)
  | .sendPublicKey => w.conduct s Handshake.sendPublicKey

variable {σ : Type} [Server σ]

/-- Whatever a call may come down to. -/
inductive Operation (taking : Prop) (s : Session κ) (d : Disk) :
    Call → List Round → Except Error Unit → Session κ → Disk → Prop where
  | exchange {xs : List Round} {outcome : Except Error Unit} {s' : Session κ}
    (h : KeyExchange taking s xs outcome s') : Operation taking s d .sendPublicKey xs outcome s' d
  | registration {c : Call} {xs : List Round} {outcome : Except Error Unit} {s' : Session κ}
    {d' : Disk} (other : c ≠ .sendPublicKey) (h : Registration taking s d xs outcome s' d') :
    Operation taking s d c xs outcome s' d'
  | reconnection {c : Call} {xs : List Round} {outcome : Except Error Unit} {s' : Session κ}
    {d' : Disk} (other : c ≠ .sendPublicKey) (h : Reconnection taking s d xs outcome s' d') :
    Operation taking s d c xs outcome s' d'

/-- Every run of a call is an operation. -/
theorem Call.spec (c : Call) (w : World σ) (s : Session κ) (ready : w.line.Ready) :
    ∃ xs outcome s' w', c.conduct w s = (outcome, s', w') ∧ w.line.Bears xs w'.line ∧
      Operation False s w.disk c xs outcome s' w'.disk := by
  have registers (c : Call) (other : c ≠ .sendPublicKey) (peer : String) : ∃ xs outcome s' w',
      w.conduct s (Handshake.register peer) = (outcome, s', w') ∧ w.line.Bears xs w'.line ∧
        Operation False s w.disk c xs outcome s' w'.disk := by
    obtain ⟨xs, outcome, s', w', ran, bears, registration, -⟩ :=
      conduct_register w s peer ready False.elim
    exact ⟨xs, outcome, s', w', ran, bears, .registration other registration⟩
  have reconnects (c : Call) (other : c ≠ .sendPublicKey) (peer : String) : ∃ xs outcome s' w',
      w.conduct s (Handshake.reconnect peer) = (outcome, s', w') ∧ w.line.Bears xs w'.line ∧
        Operation False s w.disk c xs outcome s' w'.disk := by
    obtain ⟨xs, outcome, s', w', ran, bears, reconnection, -⟩ :=
      conduct_reconnect w s peer ready False.elim
    exact ⟨xs, outcome, s', w', ran, bears, .reconnection other reconnection⟩
  cases c with
  | establish peer =>
    unfold Call.conduct
    simp only
    rw [conduct_establish]
    split
    · exact reconnects (.establish peer) nofun peer
    · exact registers (.establish peer) nofun peer
  | register peer => exact registers (.register peer) nofun peer
  | reconnect peer => exact reconnects (.reconnect peer) nofun peer
  | sendPublicKey =>
    obtain ⟨xs, outcome, s', l, log, ran, bears, exchange⟩ :=
      conduct_sendPublicKey w s ready False.elim
    exact ⟨xs, outcome, s', _, ran, bears, .exchange exchange⟩

omit [Server σ] in
theorem Operation.through {c : Call} {s s' : Session κ} {xs : List Round}
    {outcome : Except Error Unit} (h : Operation taking s d c xs outcome s' d') :
    s.standing.Through s'.keyring xs s'.standing := by
  cases h with
  | exchange h => exact h.through
  | registration other h => exact h.through
  | reconnection other h => exact h.through

omit [Server σ] in
theorem Operation.endsInKey {c : Call} {s s' : Session κ} {xs : List Round}
    (h : Operation taking s d c xs (.ok ()) s' d') : EndsInKey s'.keyring xs := by
  cases h with
  | exchange h => exact h.endsInKey
  | registration other h => exact h.endsInKey
  | reconnection other h => exact h.endsInKey

/-- The rounds of a call lead from the standing before it to that behind it. -/
theorem Call.through (c : Call) {w : World σ} (s : Session κ) (ready : w.line.Ready) :
    s.standing.Through (c.conduct w s).2.1.keyring (w.rounds (c.conduct w s).2.2)
      (c.conduct w s).2.1.standing := by
  obtain ⟨xs, outcome, s', w', ran, bears, operation⟩ := c.spec w s ready
  rw [ran, World.rounds_of_bears bears]
  exact operation.through

/-- A call that succeeds ends with a round that delivers a key. -/
theorem Call.endsInKey (c : Call) {w : World σ} {s : Session κ} (ready : w.line.Ready)
    (succeeded : (c.conduct w s).1 = .ok ()) :
    EndsInKey (c.conduct w s).2.1.keyring (w.rounds (c.conduct w s).2.2) := by
  obtain ⟨xs, outcome, s', w', ran, bears, operation⟩ := c.spec w s ready
  rw [ran] at succeeded
  cases succeeded
  rw [ran, World.rounds_of_bears bears]
  exact operation.endsInKey

end Handshake

end EncryptedBackup
