/-
The trace of a whole handshake over a line that takes every request: up to three stages, each of
them one request that is tried again until an answer settles it (`Stage`). A session that starts
afresh reconnects if it has an identity, registers if it has none or is forgotten, and exchanges
keys once it has an id (`Trace.Shaped`); how the last stage ends decides what comes of it all
(`Trace.Concludes`). Every establishment of a fresh session has such a trace (`establish_trace`).
-/
import EncryptedBackup.Proofs.Handshake.Resumption

namespace EncryptedBackup

variable {κ : Type} [Keyring κ]

namespace Handshake

/-! ## Stages -/

/-- The last round brought a response that is as `p` says. -/
def Ended (xs : List Round) (p : Response → Prop) : Prop :=
  ∃ x r, xs.getLast? = some x ∧ x.answer = .ok r ∧ p r

/-- The last round brought no response but an error. -/
def Unheard (xs : List Round) (e : Error) : Prop :=
  ∃ x, xs.getLast? = some x ∧ x.answer = .error e

/-- A stage of up to `left` tries: the same request over and over, as long as it is answered and no
answer settles it. -/
structure Stage (f : Frame) (settles : ResponseCode → Prop) (left : Nat) (xs : List Round) :
    Prop where
  request : ∀ x ∈ xs, x.request = f
  length_le : xs.length ≤ left
  unsettled : ∀ x ∈ xs.dropLast, ∃ r, x.answer = .ok r ∧ ¬ settles r.code
  patient : Ended xs (fun r => ¬ settles r.code) → xs.length = left

omit [Keyring κ] in
theorem not_ended_nil {p : Response → Prop} : ¬ Ended [] p := by
  rintro ⟨x, r, last, -⟩
  cases last

omit [Keyring κ] in
theorem not_unheard_nil {e : Error} : ¬ Unheard [] e := by
  rintro ⟨x, last, -⟩
  cases last

omit [Keyring κ] in
theorem Stage.nil (f : Frame) (settles : ResponseCode → Prop) (left : Nat) :
    Stage f settles left [] :=
  ⟨nofun, Nat.zero_le _, nofun, fun h => absurd h not_ended_nil⟩

omit [Keyring κ] in
theorem getLast?_append_of_ne (xs : List Round) {ys : List Round} (some : ys ≠ []) :
    (xs ++ ys).getLast? = ys.getLast? := by
  rw [List.getLast?_append, List.getLast?_eq_some_getLast some, Option.some_or]

omit [Keyring κ] in
theorem Ended.of_append (xs : List Round) {ys : List Round} {p : Response → Prop}
    (some : ys ≠ []) :
    Ended (xs ++ ys) p ↔ Ended ys p := by
  unfold Ended
  rw [getLast?_append_of_ne xs some]

omit [Keyring κ] in
theorem Ended.iff {xs : List Round} {p : Response → Prop} {r : Response} (h : Ended xs (· = r)) :
    Ended xs p ↔ p r := by
  obtain ⟨x, _, last, answered, rfl⟩ := h
  constructor
  · rintro ⟨y, r', last', answered', holds⟩
    cases last.symm.trans last'
    cases answered.symm.trans answered'
    exact holds
  · exact fun holds => ⟨x, _, last, answered, holds⟩

omit [Keyring κ] in
theorem Ended.both {xs : List Round} {p q : Response → Prop} (h : Ended xs p) (h' : Ended xs q) :
    ∃ r, p r ∧ q r := by
  obtain ⟨x, r, last, answered, holds⟩ := h
  have heard : Ended xs (· = r) := ⟨x, r, last, answered, rfl⟩
  exact ⟨r, holds, heard.iff.1 h'⟩

omit [Keyring κ] in
theorem Unheard.not_ended {xs : List Round} {p : Response → Prop} {e : Error} (h : Unheard xs e) :
    ¬ Ended xs p := by
  rintro ⟨y, r, last, answered, -⟩
  obtain ⟨x, last', unheard⟩ := h
  cases last.symm.trans last'
  cases answered.symm.trans unheard

omit [Keyring κ] in
theorem Unheard.eq {xs : List Round} {e e' : Error} (h : Unheard xs e) (h' : Unheard xs e') :
    e = e' := by
  obtain ⟨x, last, unheard⟩ := h
  obtain ⟨y, last', unheard'⟩ := h'
  cases last.symm.trans last'
  cases unheard.symm.trans unheard'
  rfl

section

variable {α : Type} {f : Frame} {s s' : Session κ} {left : Nat} {xs : List Round}
  {J : Response → Session κ → Except Error (Option α) → Session κ → Prop}
  {outcome : Except Error (Option α)}

omit [Keyring κ] in
theorem Tries.made (some : 0 < left) (tries : Tries True f J s left xs outcome s') : xs ≠ [] := by
  cases tries with
  | exhausted => cases some
  | refused closed => exact absurd trivial closed
  | unheard | judged | again => exact List.cons_ne_nil _ _

omit [Keyring κ] in
/-- Tries over a line that takes every request are a stage. -/
theorem Tries.stage {settles : ResponseCode → Prop}
    (judged : ∀ {r outcome s'}, J r s outcome s' → (outcome = .ok none ↔ ¬ settles r.code))
    (tries : Tries True f J s left xs outcome s') : Stage f settles left xs := by
  have request := tries.request
  induction tries with
  | exhausted => exact .nil ..
  | refused closed => exact absurd trivial closed
  | unheard e =>
    refine ⟨request, by simp, by simp, ?_⟩
    rintro ⟨x, r, last, answered, -⟩
    cases last
    cases answered
  | judged h settled =>
    refine ⟨request, by simp, by simp, ?_⟩
    rintro ⟨x, r, last, answered, unsettled⟩
    cases last
    cases answered
    exact absurd ((judged h).2 unsettled) settled
  | @again left r xs outcome s' h later ih =>
    have stage := ih later.request
    refine ⟨request, Nat.succ_le_succ stage.length_le, ?_, ?_⟩
    · cases xs with
      | nil => exact nofun
      | cons x xs =>
        rw [List.dropLast_cons_of_ne_nil (List.cons_ne_nil x xs), List.forall_mem_cons]
        exact ⟨⟨r, rfl, (judged h).1 rfl⟩, stage.unsettled⟩
    · intro ended
      cases left with
      | zero =>
        cases later with
        | exhausted => rfl
      | succ left =>
        have more := later.made (Nat.succ_pos left)
        exact congrArg (· + 1) (stage.patient ((Ended.of_append [_] more).1 ended))

omit [Keyring κ] in
/-- Tries end with a round that cannot be heard or with a verdict. -/
theorem Tries.ending (some : 0 < left) (tries : Tries True f J s left xs outcome s') :
    (∃ e, Unheard xs e ∧ outcome = .error e ∧ s' = s) ∨
      ∃ r, Ended xs (· = r) ∧ J r s outcome s' := by
  induction tries with
  | exhausted => cases some
  | refused closed => exact absurd trivial closed
  | unheard e => exact .inl ⟨e, ⟨_, rfl, rfl⟩, rfl, rfl⟩
  | @judged _ r _ _ h settled => exact .inr ⟨r, ⟨_, r, rfl, rfl, rfl⟩, h⟩
  | @again left r xs _ _ h later ih =>
    cases left with
    | zero =>
      cases later with
      | exhausted => exact .inr ⟨r, ⟨_, r, rfl, rfl, rfl⟩, h⟩
    | succ left =>
      -- the tries that follow end with the same round
      have more := later.made (Nat.succ_pos left)
      rcases ih (Nat.succ_pos left) with ⟨e, ⟨x, last, unheard⟩, ends⟩ | ⟨r', ended, h'⟩
      · refine .inl ⟨e, ⟨x, ?_, unheard⟩, ends⟩
        rw [← last]
        exact getLast?_append_of_ne [_] more
      · exact .inr ⟨r', (Ended.of_append [_] more).2 ended, h'⟩

end

/-! ## Traces -/

/-- The rounds of a handshake by stages, the client id that keys are exchanged under and the public
key that is sent. -/
structure Trace where
  reconnects : List Round := []
  registers : List Round := []
  exchanges : List Round := []
  clientId : ClientId := .unset
  publicKey : Bytes := []

namespace Trace

/-- All rounds, in order. -/
def rounds (t : Trace) : List Round := t.reconnects ++ (t.registers ++ t.exchanges)

/-- The last registration was answered with the client id that keys are exchanged under. -/
def Assigned (t : Trace) : Prop :=
  Ended t.registers fun r => r.code = .registered ∧ r.clientId = .ok t.clientId

/-- Which stages there are and what is sent in each of them. -/
structure Shaped (t : Trace) (s : Session κ) : Prop where
  reconnects : Stage (.plain s.clientId .reconnect s.name)
    (fun c => c = .reconnected ∨ c = .reconnectionFailed) maxTries t.reconnects
  registers : Stage (.plain .unset .register s.name) (· = .registered) maxTries t.registers
  exchanges : Stage (.publicKey t.clientId s.name t.publicKey) (· = .publicKeyReceived) maxTries
    t.exchanges
  reconnects_iff : t.reconnects ≠ [] ↔ s.phase = .hasIdentity
  registers_iff : t.registers ≠ [] ↔
    t.reconnects = [] ∨ Ended t.reconnects (·.code = .reconnectionFailed)
  assigned : t.exchanges ≠ [] → t.Assigned
  made : t.exchanges ≠ [] → ∃ keyring, Keyring.generate s.keyring = (.ok t.publicKey, keyring)
  exchanges_follow : t.Assigned → ∀ field keyring,
    Keyring.generate s.keyring = (.ok field, keyring) → field.length = Wire.publicKeyWidth →
      t.exchanges ≠ []

/-- What comes of a handshake, for a disk on which the identity of a new registration is saved. -/
structure Concludes (t : Trace) (s : Session κ) (d : Disk) (outcome : Except Error Unit)
    (s' : Session κ) : Prop where
  /-- Only an exchange of keys takes a key pair, and only one. -/
  keyring : s'.keyring = s.keyring ∧ ¬ t.Assigned ∨
    s'.keyring = (Keyring.generate s.keyring).2 ∧ t.Assigned
  succeeds : outcome = .ok () ↔
    Ended t.reconnects (fun r => r.code = .reconnected ∧ (r.granted? s.keyring).isSome) ∨
      Ended t.exchanges
        (fun r => r.code = .publicKeyReceived ∧ (r.granted? s'.keyring).isSome) ∧
        ∃ d', s'.file d = .ok d'
  established : outcome = .ok () → s'.isEstablished = true
  refused : Ended t.reconnects (fun r => r.code ≠ .reconnected ∧ r.code ≠ .reconnectionFailed) →
    outcome = .error (.reconnectionRefused maxTries)
  unregistered : Ended t.registers (·.code ≠ .registered) →
    outcome = .error (.registrationFailed maxTries)
  unexchanged : Ended t.exchanges (·.code ≠ .publicKeyReceived) →
    outcome = .error (.keyExchangeFailed maxTries)
  unheard : ∀ e, Unheard t.rounds e → outcome = .error e

end Trace

/-! ## An exchange of keys as a stage -/

/-- What an exchange of keys is like if all of its requests are taken. -/
structure Exchanged (field : Bytes) (s s' : Session κ) (xs : List Round)
    (outcome : Except Error Unit) : Prop where
  stage : Stage (.publicKey s.clientId s.name field) (· = .publicKeyReceived) maxTries xs
  keyring : s'.keyring = (Keyring.generate s.keyring).2
  made : xs ≠ [] → ∃ keyring, Keyring.generate s.keyring = (.ok field, keyring)
  follows : ∀ field keyring, Keyring.generate s.keyring = (.ok field, keyring) →
    field.length = Wire.publicKeyWidth → xs ≠ []
  succeeds : outcome = .ok () ↔
    Ended xs fun r => r.code = .publicKeyReceived ∧ (r.granted? s'.keyring).isSome
  holds : outcome = .ok () → s'.key.isSome
  unexchanged : Ended xs (·.code ≠ .publicKeyReceived) → outcome = .error (.keyExchangeFailed maxTries)
  unheard : ∀ e, Unheard xs e → outcome = .error e

theorem exchanged_of_tries {field : Bytes} {keyring : κ} {s s' : Session κ} {xs : List Round}
    {o : Except Error (Option Unit)} (made : Keyring.generate s.keyring = (.ok field, keyring))
    (tries : Tries True (.publicKey s.clientId s.name field) KeyVerdict { s with keyring } maxTries
      xs o s') :
    Exchanged field s s' xs (o.bind fun
      | none => .error (.keyExchangeFailed maxTries)
      | some _ => .ok ()) := by
  have kept : s'.keyring = keyring := congrArg Session.keyring tries.session_of_key
  have stage : Stage (.publicKey s.clientId s.name field) (· = .publicKeyReceived) maxTries xs := by
    refine tries.stage fun h => ?_
    cases h with
    | rejected h => exact iff_of_true rfl h
    | unusable h => exact iff_of_false nofun (not_not_intro h)
    | granted h => exact iff_of_false nofun (not_not_intro h)
  have some : xs ≠ [] := tries.made (by decide)
  have exchanged {outcome : Except Error Unit}
      (succeeds : outcome = .ok () ↔
        Ended xs fun r => r.code = .publicKeyReceived ∧ (r.granted? s'.keyring).isSome)
      (holds : outcome = .ok () → s'.key.isSome)
      (unexchanged : Ended xs (·.code ≠ .publicKeyReceived) →
        outcome = .error (.keyExchangeFailed maxTries))
      (unheard : ∀ e, Unheard xs e → outcome = .error e) : Exchanged field s s' xs outcome :=
    { stage, succeeds, holds, unexchanged, unheard
      keyring := by rw [made, kept]
      made := fun _ => ⟨keyring, made⟩
      follows := fun _ _ _ _ => some }
  rcases tries.ending (by decide) with ⟨e, unheard, rfl, rfl⟩ | ⟨r, ended, verdict⟩
  · refine exchanged (iff_of_false nofun unheard.not_ended) nofun
      (fun h => absurd h unheard.not_ended) fun e' h => ?_
    rw [unheard.eq h]
    rfl
  · have heard (e : Error) : ¬ Unheard xs e := fun h => h.not_ended ended
    cases verdict with
    | rejected h =>
      exact exchanged (iff_of_false nofun fun h' => h (ended.iff.1 h').1) nofun (fun _ => rfl)
        fun e h => absurd h (heard e)
    | unusable h nothing e =>
      refine exchanged (iff_of_false nofun fun h' => ?_) nofun (fun h' => absurd h (ended.iff.1 h'))
        fun e h => absurd h (heard e)
      have granted := (ended.iff.1 h').2
      rw [nothing] at granted
      cases granted
    | granted h this =>
      refine exchanged (iff_of_true rfl (ended.iff.2 ⟨h, ?_⟩)) (fun _ => rfl)
        (fun h' => absurd h (ended.iff.1 h')) fun e h => absurd h (heard e)
      rw [this]
      rfl

theorem KeyExchange.exchanged {s s' : Session κ} {xs : List Round} {outcome : Except Error Unit}
    (h : KeyExchange True s xs outcome s') (short : (Utf8.encode s.name).length < Wire.nameWidth) :
    ∃ field, Exchanged field s s' xs outcome := by
  have untried (e : Error) (ring : s'.keyring = (Keyring.generate s.keyring).2)
      (idle : ∀ field keyring, Keyring.generate s.keyring = (.ok field, keyring) →
        field.length ≠ Wire.publicKeyWidth) : Exchanged [] s s' [] (.error e) :=
    { stage := .nil ..
      keyring := ring
      made := fun some => absurd rfl some
      follows := fun field keyring made full => absurd full (idle field keyring made)
      succeeds := iff_of_false nofun not_ended_nil
      holds := nofun
      unexchanged := fun h => absurd h not_ended_nil
      unheard := fun _ h => absurd h not_unheard_nil }
  cases h with
  | unmade made =>
    refine ⟨[], untried _ (by rw [made]) fun field keyring made' => ?_⟩
    rw [made] at made'
    cases made'
  | unsendable made unmade =>
    refine ⟨[], untried _ (by rw [made]) fun field keyring made' full => ?_⟩
    cases made.symm.trans made'
    obtain ⟨r, ok, -⟩ := Request.publicKey_writes s.clientId short full
    rw [unmade] at ok
    cases ok
  | failed made tries | exhausted made tries | done made tries =>
    exact ⟨_, exchanged_of_tries made tries⟩

/-! ## Registrations and reconnections as traces -/

omit [Keyring κ] in
theorem Unheard.of_append (xs : List Round) {ys : List Round} {e : Error} (some : ys ≠ []) :
    Unheard (xs ++ ys) e ↔ Unheard ys e := by
  unfold Unheard
  rw [getLast?_append_of_ne xs some]

omit [Keyring κ] in
theorem Tries.stage_of_register {id : ClientId} {name : String} {s s' : Session κ} {left : Nat}
    {xs : List Round} {o : Except Error (Option ClientId)}
    (tries : Tries True (.plain id .register name) IdVerdict s left xs o s') :
    Stage (.plain id .register name) (· = .registered) left xs := by
  refine tries.stage fun h => ?_
  cases h with
  | rejected h => exact iff_of_true rfl h
  | unnamed h => exact iff_of_false nofun (not_not_intro h)
  | assigned h => exact iff_of_false nofun (not_not_intro h)

theorem Tries.stage_of_reconnect {id : ClientId} {name : String} {s s' : Session κ} {left : Nat}
    {xs : List Round} {o : Except Error (Option Reception)}
    (tries : Tries True (.plain id .reconnect name) ReconnectVerdict s left xs o s') :
    Stage (.plain id .reconnect name) (fun c => c = .reconnected ∨ c = .reconnectionFailed) left
      xs := by
  refine tries.stage fun h => ?_
  cases h with
  | unclear h h' => exact iff_of_true rfl (not_or.2 ⟨h, h'⟩)
  | unusable h => exact iff_of_false nofun (not_not_intro (.inl h))
  | resumed h => exact iff_of_false nofun (not_not_intro (.inl h))
  | forgotten h => exact iff_of_false nofun (not_not_intro (.inr h))

/-- A trace of registrations alone, none of which is given an id. -/
theorem trace_of_unassigned {s s₁ : Session κ} {xs : List Round} {o : Except Error (Option ClientId)}
    (tries : Tries True (.plain s.clientId .register s.name) IdVerdict
      { s with phase := .registering } maxTries xs o s₁)
    (unset : s.clientId = .unset) (unassigned : ∀ id, o ≠ .ok (some id))
    (away : s.phase ≠ .hasIdentity) :
    Trace.Shaped { registers := xs } s ∧ ∀ (d : Disk) (s' : Session κ), s'.keyring = s.keyring →
      Trace.Concludes { registers := xs } s d
        (o.bind fun _ => .error (.registrationFailed maxTries)) s' := by
  have some : xs ≠ [] := tries.made (by decide)
  have failed : (o.bind fun _ => .error (.registrationFailed maxTries) : Except Error Unit) ≠
      .ok () := by
    cases o <;> exact nofun
  have nameless (id : ClientId) : ¬ Trace.Assigned { registers := xs, clientId := id } := by
    intro assigned
    rcases tries.ending (by decide) with ⟨e, unheard, -⟩ | ⟨r, ended, verdict⟩
    · exact unheard.not_ended assigned
    · obtain ⟨code, named⟩ := ended.iff.1 assigned
      cases verdict with
      | rejected h => exact h code
      | unnamed h nothing =>
        rw [nothing] at named
        cases named
      | assigned h this => exact unassigned _ rfl
  constructor
  · exact
      { reconnects := .nil ..
        registers := by
          rw [← unset]
          exact tries.stage_of_register
        exchanges := .nil ..
        reconnects_iff := iff_of_false (not_not_intro rfl) away
        registers_iff := iff_of_true some (.inl rfl)
        assigned := fun h => absurd rfl h
        made := fun h => absurd rfl h
        exchanges_follow := fun h => absurd h (nameless _) }
  · intro d s' kept
    refine
      { keyring := .inl ⟨kept, nameless _⟩
        succeeds := iff_of_false failed (not_or.2 ⟨not_ended_nil, fun h => not_ended_nil h.1⟩)
        established := fun h => absurd h failed
        refused := fun h => absurd h not_ended_nil
        unregistered := fun ended => ?_
        unexchanged := fun h => absurd h not_ended_nil
        unheard := fun e unheard => ?_ }
    · rcases tries.ending (by decide) with ⟨e, unheard, -⟩ | ⟨r, ended', verdict⟩
      · exact absurd ended unheard.not_ended
      · cases verdict with
        | rejected h => rfl
        | unnamed h => exact absurd h (ended'.iff.1 ended)
        | assigned h => exact absurd h (ended'.iff.1 ended)
    · simp only [Trace.rounds, List.nil_append, List.append_nil] at unheard
      rcases tries.ending (by decide) with ⟨e', unheard', rfl, -⟩ | ⟨r, ended, -⟩
      · rw [unheard.eq unheard']
        rfl
      · exact absurd ended unheard.not_ended

/-- A registration of a client without an id is a trace without reconnections. -/
theorem Registration.trace {s s' : Session κ} {d d' : Disk} {xs : List Round}
    {outcome : Except Error Unit} (h : Registration True s d xs outcome s' d')
    (unset : s.clientId = .unset) (away : s.phase ≠ .hasIdentity)
    (short : (Utf8.encode s.name).length < Wire.nameWidth) :
    ∃ t : Trace, t.reconnects = [] ∧ t.registers ≠ [] ∧ t.rounds = xs ∧ t.Shaped s ∧
      t.Concludes s d outcome s' := by
  cases h with
  | unsendable unmade =>
    obtain ⟨r, made, -⟩ := Request.plain_writes s.clientId .register short
    rw [unmade] at made
    cases made
  | failed tries =>
    obtain ⟨shaped, concludes⟩ := trace_of_unassigned tries unset nofun away
    cases tries.session_of_register
    exact ⟨_, rfl, tries.made (by decide), List.append_nil _, shaped, concludes d _ rfl⟩
  | exhausted tries =>
    obtain ⟨shaped, concludes⟩ := trace_of_unassigned tries unset nofun away
    cases tries.session_of_register
    exact ⟨_, rfl, tries.made (by decide), List.append_nil _, shaped, concludes d _ rfl⟩
  | @assigned xs ys clientId s₁ _ exchanged _ _ tries exchange filing =>
    cases tries.session_of_register
    obtain ⟨field, told⟩ := exchange.exchanged short
    let t : Trace := { registers := xs, exchanges := ys, clientId, publicKey := field }
    have some : xs ≠ [] := tries.made (by decide)
    have assigned : t.Assigned := by
      rcases tries.ending (by decide) with ⟨e, -, ends, -⟩ | ⟨r, ended, verdict⟩
      · cases ends
      · cases verdict with
        | assigned h this => exact ended.iff.2 ⟨h, this⟩
    have failed (e : Error) (h : exchanged = .error e) : outcome = .error e := by
      cases filing with
      | unexchanged => exact h
      | unsaved | saved => cases h
    refine ⟨t, rfl, some, rfl,
      { reconnects := .nil ..
        registers := by
          rw [← unset]
          exact tries.stage_of_register
        exchanges := told.stage
        reconnects_iff := iff_of_false (not_not_intro rfl) away
        registers_iff := iff_of_true some (.inl rfl)
        assigned := fun _ => assigned
        made := told.made
        exchanges_follow := fun _ => told.follows },
      { keyring := .inr ⟨told.keyring, assigned⟩
        succeeds := ?_
        established := ?_
        refused := fun h => absurd h not_ended_nil
        unregistered := ?_
        unexchanged := fun h => failed _ (told.unexchanged h)
        unheard := ?_ }⟩
    · rw [or_iff_right not_ended_nil, ← told.succeeds]
      cases filing with
      | unexchanged e => exact iff_of_false nofun fun h => by cases h.1
      | unsaved unsaved =>
        refine iff_of_false nofun ?_
        rintro ⟨-, d', saved⟩
        rw [unsaved] at saved
        cases saved
      | saved saved => exact iff_of_true rfl ⟨rfl, _, saved⟩
    · rintro rfl
      have held : s'.key.isSome := by
        cases filing with
        | saved => exact told.holds rfl
      have phase : s'.phase = .registered := exchange.keeps.1
      unfold Session.isEstablished
      rw [phase, held]
      rfl
    · intro ended
      obtain ⟨r, other, code, -⟩ := ended.both assigned
      exact absurd code other
    · intro e unheard
      have parts : t.rounds = xs ++ ys := rfl
      rw [parts] at unheard
      cases ys with
      | nil =>
        rw [List.append_nil] at unheard
        exact absurd assigned unheard.not_ended
      | cons y ys =>
        exact failed e (told.unheard e ((Unheard.of_append xs (List.cons_ne_nil y ys)).1 unheard))

/-- A trace of reconnections alone, none of which tells the client that it is forgotten. -/
theorem trace_of_remembered {s s₁ : Session κ} {xs : List Round}
    {o : Except Error (Option Reception)}
    (tries : Tries True (.plain s.clientId .reconnect s.name) ReconnectVerdict
      { s with phase := .reconnecting } maxTries xs o s₁)
    (remembered : o ≠ .ok (some .forgotten)) (resting : s.phase = .hasIdentity) :
    Trace.Shaped { reconnects := xs } s ∧ ∀ (d : Disk) (s' : Session κ),
      s' = { s₁ with phase := s'.phase } → (o = .ok (some .resumed) → s'.phase = .connected) →
      Trace.Concludes { reconnects := xs } s d
        (o.bind fun
          | none => .error (.reconnectionRefused maxTries)
          | some _ => .ok ()) s' := by
  have some : xs ≠ [] := tries.made (by decide)
  have unnamed (id : ClientId) : ¬ Trace.Assigned { reconnects := xs, clientId := id } :=
    not_ended_nil
  have known : ¬ Ended xs (·.code = .reconnectionFailed) := by
    intro forgotten
    rcases tries.ending (by decide) with ⟨e, unheard, -⟩ | ⟨r, ended, verdict⟩
    · exact unheard.not_ended forgotten
    · have code := ended.iff.1 forgotten
      cases verdict with
      | unclear h h' => exact h' code
      | unusable h | resumed h => cases h.symm.trans code
      | forgotten h => exact remembered rfl
  constructor
  · exact
      { reconnects := tries.stage_of_reconnect
        registers := .nil ..
        exchanges := .nil ..
        reconnects_iff := iff_of_true some resting
        registers_iff := iff_of_false (not_not_intro rfl) (not_or.2 ⟨some, known⟩)
        assigned := fun h => absurd rfl h
        made := fun h => absurd rfl h
        exchanges_follow := fun h => absurd h (unnamed _) }
  · intro d s' same connected
    have kept : s'.keyring = s.keyring := by
      rw [same, tries.session_of_reconnect]
    refine
      { keyring := .inl ⟨kept, unnamed _⟩
        succeeds := ?_
        established := ?_
        refused := fun ended => ?_
        unregistered := fun h => absurd h not_ended_nil
        unexchanged := fun h => absurd h not_ended_nil
        unheard := fun e unheard => ?_ }
    · rw [or_iff_left fun h => not_ended_nil h.1]
      rcases tries.ending (by decide) with ⟨e, unheard, rfl, -⟩ | ⟨r, ended, verdict⟩
      · exact iff_of_false nofun unheard.not_ended
      · rw [ended.iff]
        cases verdict with
        | unclear h h' => exact iff_of_false nofun fun h'' => h h''.1
        | unusable h nothing e =>
          refine iff_of_false nofun fun h' => ?_
          have granted := h'.2
          rw [nothing] at granted
          cases granted
        | resumed h this =>
          refine iff_of_true rfl ⟨h, ?_⟩
          rw [this]
          rfl
        | forgotten h => exact absurd rfl remembered
    · intro succeeded
      rcases tries.ending (by decide) with ⟨e, -, rfl, -⟩ | ⟨r, -, verdict⟩
      · cases succeeded
      · cases verdict with
        | unclear | unusable => cases succeeded
        | resumed h this =>
          rw [same]
          unfold Session.isEstablished
          rw [connected rfl]
          rfl
        | forgotten h => exact absurd rfl remembered
    · rcases tries.ending (by decide) with ⟨e, unheard, -⟩ | ⟨r, ended', verdict⟩
      · exact absurd ended unheard.not_ended
      · obtain ⟨h₁, h₂⟩ := ended'.iff.1 ended
        cases verdict with
        | unclear h h' => rfl
        | unusable h | resumed h => exact absurd h h₁
        | forgotten h => exact absurd h h₂
    · simp only [Trace.rounds, List.append_nil] at unheard
      rcases tries.ending (by decide) with ⟨e', unheard', rfl, -⟩ | ⟨r, ended, -⟩
      · rw [unheard.eq unheard']
        rfl
      · exact absurd ended unheard.not_ended

/-- A reconnection with an identity is a trace. -/
theorem Reconnection.trace {s s' : Session κ} {d d' : Disk} {xs : List Round}
    {outcome : Except Error Unit} (h : Reconnection True s d xs outcome s' d')
    (resting : s.phase = .hasIdentity) (short : (Utf8.encode s.name).length < Wire.nameWidth) :
    ∃ t : Trace, t.rounds = xs ∧ t.Shaped s ∧ t.Concludes s d outcome s' := by
  cases h with
  | unsendable unmade =>
    obtain ⟨r, made, -⟩ := Request.plain_writes s.clientId .reconnect short
    rw [unmade] at made
    cases made
  | failed tries =>
    obtain ⟨shaped, concludes⟩ := trace_of_remembered tries nofun resting
    exact ⟨_, List.append_nil _, shaped, concludes d s' rfl nofun⟩
  | exhausted tries =>
    obtain ⟨shaped, concludes⟩ := trace_of_remembered tries nofun resting
    exact ⟨_, List.append_nil _, shaped, concludes d _ rfl nofun⟩
  | resumed tries =>
    obtain ⟨shaped, concludes⟩ := trace_of_remembered tries nofun resting
    exact ⟨_, List.append_nil _, shaped, concludes d _ rfl fun _ => rfl⟩
  | @forgotten xs ys s₁ _ _ _ tries registration =>
    have named : s₁.name = s.name := by rw [tries.session_of_reconnect]
    have ring : s₁.keyring = s.keyring := by rw [tries.session_of_reconnect]
    have away : s₁.phase ≠ .hasIdentity := by
      rw [tries.session_of_reconnect]
      exact nofun
    have forgotten : Ended xs (·.code = .reconnectionFailed) := by
      rcases tries.ending (by decide) with ⟨e, -, ends, -⟩ | ⟨r, ended, verdict⟩
      · cases ends
      · cases verdict with
        | forgotten h => exact ended.iff.2 h
    obtain ⟨t, none, some, rfl, shaped, concludes⟩ :=
      registration.trace rfl away (by rw [named]; exact short)
    have made : t.rounds ≠ [] := by
      unfold Trace.rounds
      simp [none, some]
    -- the rest of the trace is that of the registration, behind the reconnections
    refine ⟨{ t with reconnects := xs }, ?_,
      { reconnects := tries.stage_of_reconnect
        registers := by
          rw [← named]
          exact shaped.registers
        exchanges := by
          rw [← named]
          exact shaped.exchanges
        reconnects_iff := iff_of_true (tries.made (by decide)) resting
        registers_iff := iff_of_true some (.inr forgotten)
        assigned := shaped.assigned
        made := by
          rw [← ring]
          exact shaped.made
        exchanges_follow := by
          rw [← ring]
          exact shaped.exchanges_follow },
      { keyring := by
          rw [← ring]
          exact concludes.keyring
        succeeds := ?_
        established := concludes.established
        refused := fun ended => ?_
        unregistered := concludes.unregistered
        unexchanged := concludes.unexchanged
        unheard := fun e unheard => ?_ }⟩
    · unfold Trace.rounds
      rw [none]
      rfl
    · rw [concludes.succeeds, none, or_iff_right not_ended_nil, or_iff_right]
      intro ended
      obtain ⟨r, ⟨code, -⟩, code'⟩ := ended.both forgotten
      cases code.symm.trans code'
    · obtain ⟨r, ⟨-, other⟩, code⟩ := ended.both forgotten
      exact absurd code other
    · refine concludes.unheard e ((Unheard.of_append xs made).1 ?_)
      unfold Trace.rounds at unheard ⊢
      rw [none]
      exact unheard

end Handshake

/-! ## Handshakes from the start -/

open Handshake

/-- Every establishment of a session that has not talked to its server yet is a trace: each request
is followed by one response, there are up to three stages of up to three requests, and how the last
of them ends decides what comes of it. -/
theorem establish_trace {σ : Type} [Server σ] {s : Session κ} (made : s.Made)
    (short : (Utf8.encode s.name).length < Wire.nameWidth) {w : World σ} (steady : w.line.Steady)
    (peer : String) :
    ∃ t : Trace, w.line.Bears t.rounds (w.conduct s (establish peer)).2.2.line ∧ t.Shaped s ∧
      t.Concludes s w.disk (w.conduct s (establish peer)).1
        (w.conduct s (establish peer)).2.1 := by
  have taking : True → w.line.Steady := fun _ => steady
  rw [conduct_establish]
  rcases made.start with resting | ⟨phase, unset⟩
  · rw [if_pos resting]
    obtain ⟨xs, outcome, s', w', ran, bears, reconnection, -⟩ :=
      conduct_reconnect w s peer steady.ready taking
    obtain ⟨t, rfl, shaped, concludes⟩ := reconnection.trace resting short
    rw [ran]
    exact ⟨t, bears, shaped, concludes⟩
  · have away : s.phase ≠ .hasIdentity := by
      rw [phase]
      exact nofun
    rw [if_neg away]
    obtain ⟨xs, outcome, s', w', ran, bears, registration, -⟩ :=
      conduct_register w s peer steady.ready taking
    obtain ⟨t, -, -, rfl, shaped, concludes⟩ := registration.trace unset away short
    rw [ran]
    exact ⟨t, bears, shaped, concludes⟩

/-- A world whose server has forgotten the client, registers it again and gives it a key. -/
def forgetting : World Script :=
  scripted [.bytes (Archive.say .messageReceived (.bare none)),
    .bytes (Archive.say .reconnectionFailed (.bare (some (sampleId 9)))),
    .bytes (Archive.say .registered (.bare (some (sampleId 1)))),
    .bytes (Archive.say .publicKeyReceived (.withKey (sampleId 1) (List.replicate 32 7)))]

theorem establish_trace_forgetting :
    (forgetting.conduct resumedAlice (establish "server")).1.isOk = true ∧
      ∃ t : Trace, forgetting.line.Bears t.rounds
          (forgetting.conduct resumedAlice (establish "server")).2.2.line ∧
        t.Shaped resumedAlice ∧ t.Concludes resumedAlice forgetting.disk
          (forgetting.conduct resumedAlice (establish "server")).1
          (forgetting.conduct resumedAlice (establish "server")).2.1 := by
  have resumed : Session.resume sampleIdentity {} (.ofText "me.info") = .ok resumedAlice := rfl
  have steady : forgetting.line.Steady := ⟨rfl, rfl, rfl⟩
  exact ⟨by decide +kernel,
    establish_trace (.inr ⟨_, _, _, resumed⟩) (by decide +kernel) steady "server"⟩

end EncryptedBackup
