/-
Calls on one session, one after the other, with what each of them did (`Timeline`). What a session
has become can be read off them: it holds a key if one was delivered and the server has not forgotten
the client since (`Timeline.pending`), and its phase is a settled one if the last call that was more
than an exchange of keys was given an id or resumed (`Timeline.settled`). Both together make it
established (`Timeline.established_iff`).
-/
import EncryptedBackup.Proofs.Handshake.Filing

namespace EncryptedBackup

/-! ## Since -/

/-- One of a list is as `P` says, and all behind it are as `Q` says. -/
def Since {α : Type} (P Q : α → Prop) (past : List α) : Prop :=
  ∃ earlier a later, past = earlier ++ a :: later ∧ P a ∧ ∀ b ∈ later, Q b

section

variable {α : Type} {P Q : α → Prop} {past earlier later : List α} {a b : α}

/-- One more at the end is the one at which a list is split, or comes behind it. -/
theorem split_of_append (h : past ++ [b] = earlier ++ a :: later) :
    (past = earlier ∧ b = a ∧ later = []) ∨
      ∃ between, later = between ++ [b] ∧ past = earlier ++ a :: between := by
  rcases List.eq_nil_or_concat later with rfl | ⟨between, c, rfl⟩
  · obtain ⟨same, last⟩ := List.append_inj' h rfl
    exact .inl ⟨same, List.head_eq_of_cons_eq last, rfl⟩
  · rw [List.concat_eq_append, ← List.cons_append, ← List.append_assoc] at h
    obtain ⟨same, last⟩ := List.append_inj' h rfl
    cases last
    exact .inr ⟨between, List.concat_eq_append, same⟩

theorem not_since_nil : ¬ Since P Q [] := by
  rintro ⟨earlier, a, later, split, -⟩
  cases earlier with
  | nil => cases split
  | cons => cases split

theorem since_append : Since P Q (past ++ [b]) ↔ P b ∨ Q b ∧ Since P Q past := by
  constructor
  · rintro ⟨earlier, a, later, split, here, since⟩
    rcases split_of_append split with ⟨-, rfl, -⟩ | ⟨between, rfl, rfl⟩
    · exact .inl here
    · obtain ⟨since, last⟩ := List.forall_mem_append.1 since
      exact .inr ⟨last b List.mem_cons_self, earlier, a, between, rfl, here, since⟩
  · rintro (here | ⟨last, earlier, a, later, rfl, here, since⟩)
    · exact ⟨past, b, [], rfl, here, nofun⟩
    · refine ⟨earlier, a, later ++ [b], by simp, here, ?_⟩
      exact List.forall_mem_append.2 ⟨since, List.forall_mem_singleton.2 last⟩

end

variable {κ : Type} [Keyring κ]

/-! ## Timelines -/

/-- A call that was made on a session: its rounds and its outcome, the keyring behind it, and the
disk before and behind it. -/
structure Record (κ : Type) where
  call : Handshake.Call
  rounds : List Round
  outcome : Except Error Unit
  keyring : κ
  before : Disk
  after : Disk

omit [Keyring κ] in
def Record.dealings (r : Record κ) : List (Dealing κ) := r.rounds.map fun x => ⟨r.keyring, x⟩

def Handshake.Call.record {σ : Type} [Server σ] (c : Call) (w : World σ) (s : Session κ) :
    Record κ :=
  { call := c, rounds := w.rounds (c.conduct w s).2.2, outcome := (c.conduct w s).1
    keyring := (c.conduct w s).2.1.keyring, before := w.disk, after := (c.conduct w s).2.2.disk }

/-- What calls make of a session and of the disk, each on any line to any server. Nobody else changes
the disk between two calls if the client is `alone` with it. -/
inductive Timeline (alone : Prop) (start : Session κ) (d₀ : Disk) :
    List (Record κ) → Session κ → Disk → Prop where
  | start : Timeline alone start d₀ [] start d₀
  | call {σ : Type} [Server σ] {past : List (Record κ)} {s : Session κ} {d : Disk} {w : World σ}
    (earlier : Timeline alone start d₀ past s d) (c : Handshake.Call) (ready : w.line.Ready)
    (same : alone → w.disk = d) :
    Timeline alone start d₀ (past ++ [c.record w s]) (c.conduct w s).2.1 (c.conduct w s).2.2.disk

theorem Timeline.one {alone : Prop} {σ : Type} [Server σ] {s : Session κ} {w : World σ}
    (c : Handshake.Call) (ready : w.line.Ready) :
    Timeline alone s w.disk [c.record w s] (c.conduct w s).2.1 (c.conduct w s).2.2.disk :=
  Timeline.start.call c ready fun _ => rfl

open Handshake

theorem Handshake.Call.record_spec {σ : Type} [Server σ] (c : Call) {w : World σ} (s : Session κ)
    (ready : w.line.Ready) :
    Operation False s w.disk c (c.record w s).rounds (c.record w s).outcome (c.conduct w s).2.1
      (c.conduct w s).2.2.disk := by
  obtain ⟨xs, outcome, s', w', ran, bears, operation⟩ := c.spec w s ready
  unfold record
  rw [ran, World.rounds_of_bears bears]
  exact operation

/-! ## Keys that are pending -/

/-- A key was delivered, and the client was not forgotten since. -/
def Pending (past : List (Record κ)) : Prop :=
  Since (fun d => d.delivered?.isSome) (fun d => d.round.forgets = false)
    (past.flatMap Record.dealings)

theorem Standing.isSome_key_after (a : Standing) (keyring : κ) (x : Round) :
    (a.after keyring x).key.isSome ↔
      (x.delivered? keyring).isSome ∨ x.forgets = false ∧ a.key.isSome := by
  cases delivered : x.delivered? keyring with
  | some key =>
    rw [a.after_of_delivered? delivered]
    exact iff_of_true rfl (.inl rfl)
  | none =>
    unfold Standing.after
    rw [delivered]
    cases x.forgets with
    | true => simp
    | false => simp

theorem Standing.Through.pending {keyring : κ} : ∀ (xs : List Round) {a b : Standing}
    {past : List (Dealing κ)}, a.Through keyring xs b →
    (a.key.isSome ↔ Since (fun d => d.delivered?.isSome) (fun d => d.round.forgets = false) past) →
    (b.key.isSome ↔ Since (fun d => d.delivered?.isSome) (fun d => d.round.forgets = false)
      (past ++ xs.map fun x => (⟨keyring, x⟩ : Dealing κ)))
  | [], _, _, past, through, held => by
    cases through
    rw [List.map_nil, List.append_nil]
    exact held
  | x :: xs, a, b, past, through, held => by
    have next : (a.after keyring x).key.isSome ↔ Since (fun d => d.delivered?.isSome)
        (fun d => d.round.forgets = false) (past ++ [(⟨keyring, x⟩ : Dealing κ)]) := by
      rw [since_append, a.isSome_key_after, held]
      rfl
    have later := Standing.Through.pending xs through.2 next
    rwa [List.append_assoc] at later

/-- A session holds a key if one is pending, and only then. -/
theorem Timeline.pending {alone : Prop} {start s : Session κ} {d₀ d : Disk}
    {past : List (Record κ)} (made : start.Made) (timeline : Timeline alone start d₀ past s d) :
    s.key.isSome ↔ Pending past := by
  unfold Pending
  induction timeline with
  | start =>
    rw [made.key]
    exact iff_of_false nofun not_since_nil
  | @call σ _ past s d w earlier c ready same ih =>
    rw [List.flatMap_append, List.flatMap_singleton]
    exact (c.through s ready).pending _ ih

/-! ## Phases that are settled -/

/-- Is a handshake complete in this phase, if a key is held? -/
def Phase.Settled (p : Phase) : Prop := p = .registered ∨ p = .connected

instance (p : Phase) : Decidable p.Settled := inferInstanceAs (Decidable (_ ∨ _))

omit [Keyring κ] in
theorem Session.isEstablished_iff (s : Session κ) :
    s.isEstablished = true ↔ s.phase.Settled ∧ s.key.isSome := by
  unfold isEstablished Phase.Settled
  rw [Bool.and_eq_true, Bool.or_eq_true, beq_iff_eq, beq_iff_eq]

/-- Does a round give the client an id, or resume it? -/
def Round.Settles (x : Round) (keyring : κ) : Prop :=
  x.assigned?.isSome ∨
    x.request.header.code = RequestCode.reconnect.number ∧ (x.delivered? keyring).isSome

theorem Round.Settles.resumed {x : Round} {keyring : κ} (h : x.Settles keyring)
    (asked : x.request.header.code = RequestCode.reconnect.number) :
    ∃ r, x.answer = .ok r ∧ r.code = .reconnected ∧ (r.granted? keyring).isSome := by
  rcases h with given | ⟨-, delivered⟩
  · obtain ⟨id, given⟩ := Option.isSome_iff_exists.1 given
    cases asked.symm.trans (Round.code_of_assigned? given)
  · obtain ⟨key, delivered⟩ := Option.isSome_iff_exists.1 delivered
    obtain ⟨r, answered, granted, ⟨other, -⟩ | ⟨-, code⟩⟩ := answer_of_delivered? delivered
    · cases asked.symm.trans other
    · exact ⟨r, answered, code, Option.isSome_iff_exists.2 ⟨key, granted⟩⟩

theorem Round.Settles.assigned {x : Round} {keyring : κ} (h : x.Settles keyring)
    (asked : x.request.header.code = RequestCode.register.number) :
    ∃ id, x.assigned? = some id := by
  rcases h with given | ⟨other, -⟩
  · exact Option.isSome_iff_exists.1 given
  · cases asked.symm.trans other

namespace Handshake

section

variable {taking : Prop} {d d' : Disk} {s s' : Session κ} {xs : List Round} {x : Round}

omit [Keyring κ] in
/-- Tries of a registration in which an id is given end with it. -/
theorem Tries.assigned {id given : ClientId} {name : String} {left : Nat}
    {outcome : Except Error (Option ClientId)}
    (tries : Tries taking (.plain id .register name) IdVerdict s left xs outcome s')
    (mem : x ∈ xs) (h : x.assigned? = some given) : outcome = .ok (some given) := by
  obtain ⟨r, answered, code, named, -⟩ := Round.answer_of_assigned? h
  obtain ⟨o, s₁, verdict, ends⟩ := tries.answered mem answered
  cases verdict with
  | rejected other => exact absurd code other
  | unnamed _ nothing =>
    rw [nothing] at named
    cases named
  | assigned _ this =>
    rw [this] at named
    cases named
    rcases ends with ends | rfl
    · cases ends
    · rfl

/-- Tries of a reconnection in which a key comes end with it, or it is of no use. -/
theorem Tries.resumed {id : ClientId} {name : String} {left : Nat}
    {outcome : Except Error (Option Reception)}
    (tries : Tries taking (.plain id .reconnect name) ReconnectVerdict s left xs outcome s')
    (mem : x ∈ xs) {r : Response} (answered : x.answer = .ok r) (code : r.code = .reconnected) :
    outcome = .ok (some .resumed) ∨ r.granted? s.keyring = none ∧ ∃ e, outcome = .error e := by
  obtain ⟨o, s₁, verdict, ends⟩ := tries.answered mem answered
  cases verdict with
  | unclear other => exact absurd code other
  | unusable _ nothing e =>
    rcases ends with ends | rfl
    · cases ends
    · exact .inr ⟨nothing, e, rfl⟩
  | resumed =>
    rcases ends with ends | rfl
    · cases ends
    · exact .inl rfl
  | forgotten other => cases code.symm.trans other

variable {outcome : Except Error Unit}

/-- Behind a registration the phase is settled if an id was given, and only then. -/
theorem Registration.settled (h : Registration taking s d xs outcome s' d') :
    s'.phase.Settled ↔ ∃ x ∈ xs, x.Settles s'.keyring := by
  have unsettled {xs : List Round} {o : Except Error (Option ClientId)} {s₁ : Session κ}
      (tries : Tries taking (.plain s.clientId .register s.name) IdVerdict
        { s with phase := .registering } maxTries xs o s₁)
      (nameless : ∀ id, o ≠ .ok (some id)) (keyring : κ) : ¬ ∃ x ∈ xs, x.Settles keyring := by
    rintro ⟨x, mem, settles⟩
    obtain ⟨id, given⟩ := settles.assigned (code_of_plain tries.request x mem)
    exact nameless id (tries.assigned mem given)
  have underway : ¬ Phase.registering.Settled := by decide
  cases h with
  | unsendable => exact iff_of_false underway (by simp)
  | failed tries =>
    refine iff_of_false ?_ (unsettled tries (by simp) _)
    rw [tries.session_of_register]
    exact underway
  | exhausted tries =>
    refine iff_of_false ?_ (unsettled tries (by simp) _)
    exact (by decide : ¬ Phase.unregistered.Settled)
  | assigned tries exchange filing =>
    refine iff_of_true (.inl exchange.keeps.1) ?_
    obtain ⟨earlier, r, rfl, verdict⟩ := tries.settled rfl
    cases verdict with
    | assigned code this =>
      refine ⟨_, List.mem_append_left _ (List.mem_append_right _ List.mem_cons_self), .inl ?_⟩
      rw [Round.assigned?_register code this]
      rfl

/-- Behind a reconnection the phase is settled if the client was resumed or given an id, and only
then. -/
theorem Reconnection.settled (h : Reconnection taking s d xs outcome s' d') :
    s'.phase.Settled ↔ ∃ x ∈ xs, x.Settles s'.keyring := by
  have unsettled {xs : List Round} {o : Except Error (Option Reception)} {s₁ : Session κ}
      (tries : Tries taking (.plain s.clientId .reconnect s.name) ReconnectVerdict
        { s with phase := .reconnecting } maxTries xs o s₁) {keyring : κ}
      (other : o ≠ .ok (some .resumed)) (same : (∃ e, o = .error e) → keyring = s.keyring) :
      ¬ ∃ x ∈ xs, x.Settles keyring := by
    rintro ⟨x, mem, settles⟩
    obtain ⟨r, answered, code, granted⟩ := settles.resumed (code_of_plain tries.request x mem)
    -- a key that comes is either taken or of no use, and then the call has failed here
    rcases tries.resumed mem answered code with resumed | ⟨nothing, failed⟩
    · exact other resumed
    · rw [same failed, nothing] at granted
      cases granted
  have underway : ¬ Phase.reconnecting.Settled := by decide
  cases h with
  | unsendable => exact iff_of_false underway (by simp)
  | failed tries =>
    refine iff_of_false ?_ (unsettled tries (by simp) fun _ => ?_)
    · rw [tries.session_of_reconnect]
      exact underway
    · rw [tries.session_of_reconnect]
  | exhausted tries =>
    refine iff_of_false ?_ (unsettled tries (by simp) (by simp))
    exact (by decide : ¬ Phase.hasIdentity.Settled)
  | @resumed _ s₁ tries =>
    refine iff_of_true (.inr rfl) ?_
    obtain ⟨earlier, r, rfl, verdict⟩ := tries.settled rfl
    have same : s₁.keyring = s.keyring := by rw [tries.session_of_reconnect]
    cases verdict with
    | @resumed code key granted =>
      refine ⟨_, List.mem_append_right _ List.mem_cons_self, .inr ⟨rfl, ?_⟩⟩
      simp [Round.delivered?, Frame.plain, code, granted]
  | @forgotten xs ys _ _ _ _ tries registration =>
    -- the registration may change the keyring, but no key has come before it
    have earlier : ¬ ∃ x ∈ xs, x.Settles s'.keyring := unsettled tries (by simp) (by simp)
    rw [registration.settled]
    constructor
    · rintro ⟨x, mem, settles⟩
      exact ⟨x, List.mem_append_right xs mem, settles⟩
    · rintro ⟨x, mem, settles⟩
      rcases List.mem_append.1 mem with mem | mem
      · exact absurd ⟨x, mem, settles⟩ earlier
      · exact ⟨x, mem, settles⟩

end

end Handshake

/-- The last call that was more than an exchange of keys gave the client an id, or resumed it. -/
def Settled (past : List (Record κ)) : Prop :=
  Since (fun r => r.call ≠ .sendPublicKey ∧ ∃ x ∈ r.rounds, x.Settles r.keyring)
    (fun r => r.call = .sendPublicKey) past

theorem Handshake.Operation.settled {taking : Prop} {c : Call} {s s' : Session κ} {d d' : Disk}
    {xs : List Round} {outcome : Except Error Unit}
    (h : Operation taking s d c xs outcome s' d') :
    s'.phase.Settled ↔ (c ≠ .sendPublicKey ∧ ∃ x ∈ xs, x.Settles s'.keyring) ∨
      c = .sendPublicKey ∧ s.phase.Settled := by
  cases h with
  | exchange h =>
    rw [h.keeps.1]
    exact ⟨fun settled => .inr ⟨rfl, settled⟩, fun h => h.elim (fun h => absurd rfl h.1) And.right⟩
  | registration other h =>
    rw [h.settled, and_iff_right other, or_iff_left fun h => other h.1]
  | reconnection other h =>
    rw [h.settled, and_iff_right other, or_iff_left fun h => other h.1]

/-- The phase of a session is settled if its calls have settled it, and only then. -/
theorem Timeline.settled {alone : Prop} {start s : Session κ} {d₀ d : Disk}
    {past : List (Record κ)} (made : start.Made) (timeline : Timeline alone start d₀ past s d) :
    s.phase.Settled ↔ Settled past := by
  unfold EncryptedBackup.Settled
  induction timeline with
  | start =>
    refine iff_of_false ?_ not_since_nil
    rcases made.start with phase | ⟨phase, -⟩
    · rw [phase]
      decide
    · rw [phase]
      decide
  | call earlier c ready same ih =>
    rw [since_append, ← ih]
    exact (c.record_spec _ ready).settled

/-- A session is established if a key is pending and its phase is settled, and only then. -/
theorem Timeline.established_iff {alone : Prop} {start s : Session κ} {d₀ d : Disk}
    {past : List (Record κ)} (made : start.Made) (timeline : Timeline alone start d₀ past s d) :
    s.isEstablished = true ↔ Settled past ∧ Pending past := by
  rw [s.isEstablished_iff, timeline.settled made, timeline.pending made]

end EncryptedBackup
