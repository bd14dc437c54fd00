/-
Attempts to establish a session with a saved identity. An attempt that the server answers three
times without a word on the client leaves the session as it was made; any other failure does not
(`Reconnection.phase_iff`). So the next attempt starts with a reconnection as long as all before it
were of the first kind, and only then (`resumes_iff`): after a line that ends too early, the client
registers anew and overwrites its identity (`resumption_broken`).
-/
import EncryptedBackup.Proofs.Handshake.Pairing

namespace EncryptedBackup

variable {κ : Type} [Keyring κ]

/-! ## Attempts -/

/-- Is a round answered without a word on whether the server knows the client? -/
def Round.Unclear (x : Round) : Prop :=
  ∃ r, x.answer = .ok r ∧ r.code ≠ .reconnected ∧ r.code ≠ .reconnectionFailed

/-- An attempt to establish a session: its rounds, and the disk before and behind it. -/
structure Attempt where
  rounds : List Round
  before : Disk
  after : Disk

namespace Attempt

/-- The requests that the server took. -/
def requests (a : Attempt) : List Frame := a.rounds.map Round.request

/-- Was every try answered, and never clearly? -/
def Refused (a : Attempt) : Prop :=
  a.rounds.length = Handshake.maxTries ∧ ∀ x ∈ a.rounds, x.Unclear

/-- Was a reconnection never answered with the word that the client is forgotten? -/
def Remembered (a : Attempt) : Prop := ∀ x ∈ a.rounds, x.forgets = false

instance (a : Attempt) : Decidable a.Remembered :=
  inferInstanceAs (Decidable (∀ x ∈ a.rounds, x.forgets = false))

/-- Did an attempt only try to resume an identity, and leave the disk alone? -/
def Keeps (a : Attempt) (identity : Identity) : Prop :=
  (∀ f ∈ a.requests, f = .plain identity.clientId .reconnect identity.name) ∧ a.after = a.before

end Attempt

/-- The attempt that is made on a world. -/
def World.attempt {σ : Type} [Server σ] (w : World σ) (s : Session κ) (peer : String) : Attempt :=
  { rounds := w.rounds (w.conduct s (Handshake.establish peer)).2.2, before := w.disk
    after := (w.conduct s (Handshake.establish peer)).2.2.disk }

/-- What failed attempts make of a session, each on any line to any server. -/
inductive Failures (start : Session κ) : List Attempt → Session κ → Prop where
  | start : Failures start [] start
  | failed {σ : Type} [Server σ] {past : List Attempt} {s : Session κ} {w : World σ}
    (earlier : Failures start past s) (peer : String) (ready : w.line.Ready)
    (failed : (w.conduct s (Handshake.establish peer)).1.isOk = false) :
    Failures start (past ++ [w.attempt s peer]) (w.conduct s (Handshake.establish peer)).2.1

/-! ## What is left of a session -/

namespace Handshake

variable {taking : Prop} {d d' : Disk}

/-- Tries of a reconnection settle nothing if all of them are answered, and never clearly; in any
other case they do. -/
theorem Tries.unclear_iff {f : Frame} {s s' : Session κ} {left : Nat} {xs : List Round}
    {outcome : Except Error (Option Reception)}
    (tries : Tries taking f ReconnectVerdict s left xs outcome s') :
    (xs.length = left ∧ ∀ x ∈ xs, x.Unclear) ↔ outcome = .ok none := by
  induction tries with
  | exhausted => exact iff_of_true ⟨rfl, nofun⟩ rfl
  | refused fault => exact iff_of_false (fun h => by cases h.1) nofun
  | unheard e =>
    refine iff_of_false (fun h => ?_) nofun
    obtain ⟨r, answered, -⟩ := h.2 _ List.mem_cons_self
    cases answered
  | judged h settled =>
    refine iff_of_false (fun unclear => ?_) settled
    obtain ⟨r, answered, known, unknown⟩ := unclear.2 _ List.mem_cons_self
    cases answered
    cases h with
    | unclear => exact settled rfl
    | unusable code => exact known code
    | resumed code => exact known code
    | forgotten code => exact unknown code
  | again h later ih =>
    rw [← ih]
    cases h with
    | unclear known unknown =>
      rw [List.length_cons, Nat.add_right_cancel_iff]
      refine and_congr_right fun _ => ?_
      rw [List.forall_mem_cons]
      exact and_iff_right ⟨_, rfl, known, unknown⟩

theorem KeyExchange.keeps {s s' : Session κ} {xs : List Round} {outcome : Except Error Unit}
    (h : KeyExchange taking s xs outcome s') : s'.phase = s.phase ∧ s'.name = s.name := by
  cases h with
  | unmade | unsendable => exact ⟨rfl, rfl⟩
  | failed made tries | exhausted made tries | done made tries =>
    rw [tries.session_of_key]
    exact ⟨rfl, rfl⟩

omit [Keyring κ] in
theorem Tries.first {α : Type} {f : Frame} {s s' : Session κ}
    {J : Response → Session κ → Except Error (Option α) → Session κ → Prop} {left : Nat}
    {xs : List Round} {outcome : Except Error (Option α)} (tries : Tries taking f J s left xs outcome s')
    (starts : xs ≠ []) : (xs.map Round.request).head? = some f := by
  cases xs with
  | nil => exact absurd rfl starts
  | cons x xs => exact congrArg some (tries.request x List.mem_cons_self)

omit [Keyring κ] in
/-- Tries that settle something were made. -/
theorem Tries.ne_nil {α : Type} {f : Frame} {s s' : Session κ}
    {J : Response → Session κ → Except Error (Option α) → Session κ → Prop} {left : Nat}
    {xs : List Round} {a : α} (tries : Tries taking f J s left xs (.ok (some a)) s') : xs ≠ [] := by
  cases tries with
  | judged | again => exact nofun

/-- A registration starts with its own request. -/
theorem Registration.first {s s' : Session κ} {xs : List Round} {outcome : Except Error Unit}
    (h : Registration taking s d xs outcome s' d') (starts : xs ≠ []) :
    (xs.map Round.request).head? = some (.plain s.clientId .register s.name) := by
  cases h with
  | unsendable => exact absurd rfl starts
  | failed tries | exhausted tries => exact tries.first starts
  | assigned tries exchange =>
    rw [List.map_append, List.head?_append, tries.first tries.ne_nil]
    rfl

/-- A registration, however it ends, leaves no session resting on an identity. -/
theorem Registration.keeps {s s' : Session κ} {xs : List Round} {outcome : Except Error Unit}
    (h : Registration taking s d xs outcome s' d') : s'.phase ≠ .hasIdentity ∧ s'.name = s.name := by
  cases h with
  | unsendable => exact ⟨nofun, rfl⟩
  | failed tries | exhausted tries =>
    cases tries.session_of_register
    exact ⟨nofun, rfl⟩
  | assigned tries exchange =>
    cases tries.session_of_register
    obtain ⟨phase, name⟩ := exchange.keeps
    rw [phase, name]
    exact ⟨nofun, rfl⟩

/-- A failed reconnection leaves a session resting on its identity if each try was answered, and
never clearly, and only then. -/
theorem Reconnection.phase_iff {s s' : Session κ} {xs : List Round} {outcome : Except Error Unit}
    (h : Reconnection taking s d xs outcome s' d') (failed : outcome.isOk = false) :
    s'.phase = .hasIdentity ↔ xs.length = maxTries ∧ ∀ x ∈ xs, x.Unclear := by
  cases h with
  | unsendable => exact iff_of_false nofun nofun
  | failed tries =>
    rw [tries.unclear_iff, tries.session_of_reconnect]
    exact iff_of_false nofun nofun
  | exhausted tries => exact iff_of_true rfl (tries.unclear_iff.2 rfl)
  | resumed tries => cases failed
  | forgotten tries registration =>
    -- the answer that forgets the client is one of the rounds, and it is a clear one
    refine iff_of_false registration.keeps.1 fun unclear => ?_
    obtain ⟨x, mem, forgets⟩ := tries.forgets rfl
    obtain ⟨r, answered, -, unknown⟩ := unclear.2 x (List.mem_append_left _ mem)
    unfold Round.forgets at forgets
    rw [answered] at forgets
    exact unknown (of_decide_eq_true forgets).2

/-- A reconnection starts with its own request. -/
theorem Reconnection.first {s s' : Session κ} {xs : List Round} {outcome : Except Error Unit}
    (h : Reconnection taking s d xs outcome s' d') (starts : xs ≠ []) :
    (xs.map Round.request).head? = some (.plain s.clientId .reconnect s.name) := by
  cases h with
  | unsendable => exact absurd rfl starts
  | failed tries | exhausted tries | resumed tries => exact tries.first starts
  | forgotten tries registration =>
    rw [List.map_append, List.head?_append, tries.first tries.ne_nil]
    rfl

theorem Reconnection.name {s s' : Session κ} {xs : List Round} {outcome : Except Error Unit}
    (h : Reconnection taking s d xs outcome s' d') : s'.name = s.name := by
  cases h with
  | unsendable => rfl
  | failed tries | exhausted tries | resumed tries =>
    rw [tries.session_of_reconnect]
  | forgotten tries registration =>
    rw [registration.keeps.2, tries.session_of_reconnect]

/-- A reconnection to a server that remembers the client keeps its id and sends nothing else. -/
theorem Reconnection.keeps {s s' : Session κ} {xs : List Round} {outcome : Except Error Unit}
    (h : Reconnection taking s d xs outcome s' d') (remembered : ∀ x ∈ xs, x.forgets = false) :
    s'.clientId = s.clientId ∧ ∀ x ∈ xs, x.request = .plain s.clientId .reconnect s.name := by
  cases h with
  | unsendable => exact ⟨rfl, nofun⟩
  | failed tries | exhausted tries | resumed tries =>
    rw [tries.session_of_reconnect]
    exact ⟨rfl, tries.request⟩
  | forgotten tries registration =>
    obtain ⟨x, mem, forgets⟩ := tries.forgets rfl
    rw [remembered x (List.mem_append_left _ mem)] at forgets
    cases forgets

end Handshake

/-! ## One attempt -/

namespace World

variable {σ : Type} [Server σ] {w : World σ} {s : Session κ}

/-- An attempt with an identity at rest is a reconnection. -/
theorem attempt_of_hasIdentity (peer : String) (resting : s.phase = .hasIdentity)
    (ready : w.line.Ready) :
    Handshake.Reconnection False s w.disk (w.attempt s peer).rounds
      (w.conduct s (Handshake.establish peer)).1 (w.conduct s (Handshake.establish peer)).2.1
      (w.attempt s peer).after ∧
    (w.line.refusal = none → (Utf8.encode s.name).length < Wire.nameWidth →
      (w.attempt s peer).rounds ≠ []) ∧
    ((w.attempt s peer).Remembered → (w.attempt s peer).after = (w.attempt s peer).before) := by
  obtain ⟨xs, outcome, s', w', ran, bears, reconnection, starts, disk⟩ :=
    Handshake.conduct_reconnect w s peer ready False.elim
  unfold attempt Attempt.Remembered
  rw [Handshake.conduct_establish, if_pos resting, ran]
  rw [rounds_of_bears bears]
  exact ⟨reconnection, starts, disk⟩

/-- An attempt without one is a registration. -/
theorem attempt_of_not_hasIdentity (peer : String) (resting : s.phase ≠ .hasIdentity)
    (ready : w.line.Ready) :
    Handshake.Registration False s w.disk (w.attempt s peer).rounds
      (w.conduct s (Handshake.establish peer)).1 (w.conduct s (Handshake.establish peer)).2.1
      (w.attempt s peer).after ∧
    (w.line.refusal = none → (Utf8.encode s.name).length < Wire.nameWidth →
      (w.attempt s peer).rounds ≠ []) := by
  obtain ⟨xs, outcome, s', w', ran, bears, registration, starts⟩ :=
    Handshake.conduct_register w s peer ready False.elim
  unfold attempt
  rw [Handshake.conduct_establish, if_neg resting, ran]
  rw [rounds_of_bears bears]
  exact ⟨registration, starts⟩

end World

/-! ## Many attempts -/

/-- A refused attempt is one whose server remembers the client. -/
theorem Attempt.Refused.remembered {a : Attempt} (refused : a.Refused) : a.Remembered := by
  intro x mem
  obtain ⟨r, answered, -, unknown⟩ := refused.2 x mem
  unfold Round.forgets
  rw [answered]
  exact decide_eq_false fun h => unknown h.2

/-- What failed attempts have made of the session of an identity: it rests on the identity if all of
them were refused, and only then. -/
structure Session.Resting (s : Session κ) (identity : Identity) (past : List Attempt) : Prop where
  name : s.name = identity.name
  phase : s.phase = .hasIdentity ↔ ∀ a ∈ past, a.Refused
  clientId : (∀ a ∈ past, a.Refused) → s.clientId = identity.clientId
  keeps : (∀ a ∈ past, a.Refused) → ∀ a ∈ past, a.Keeps identity

variable {σ : Type} [Server σ]

/-- An attempt on a session that rests on its identity keeps to it, if the server remembers the
client. -/
theorem Session.Resting.attempt {s : Session κ} {identity : Identity} {past : List Attempt}
    (resting : s.Resting identity past) (refused : ∀ a ∈ past, a.Refused) {w : World σ}
    (peer : String) (ready : w.line.Ready) (remembered : (w.attempt s peer).Remembered) :
    (w.conduct s (Handshake.establish peer)).2.1.clientId = identity.clientId ∧
      (w.attempt s peer).Keeps identity := by
  obtain ⟨reconnection, -, disk⟩ :=
    World.attempt_of_hasIdentity peer (resting.phase.2 refused) ready
  obtain ⟨own, requests⟩ := reconnection.keeps remembered
  rw [resting.clientId refused, resting.name] at requests
  refine ⟨own.trans (resting.clientId refused), ?_, disk remembered⟩
  intro f mem
  obtain ⟨x, here, rfl⟩ := List.mem_map.1 mem
  exact requests x here

/-- One more failed attempt. -/
theorem Session.Resting.failed {s : Session κ} {identity : Identity} {past : List Attempt}
    (resting : s.Resting identity past) {w : World σ} (peer : String) (ready : w.line.Ready)
    (failed : (w.conduct s (Handshake.establish peer)).1.isOk = false) :
    (w.conduct s (Handshake.establish peer)).2.1.Resting identity
      (past ++ [w.attempt s peer]) := by
  have split : (∀ a ∈ past ++ [w.attempt s peer], a.Refused) ↔
      (∀ a ∈ past, a.Refused) ∧ (w.attempt s peer).Refused := by
    simp only [List.forall_mem_append, List.forall_mem_singleton]
  by_cases phase : s.phase = .hasIdentity
  · have refused := resting.phase.1 phase
    obtain ⟨reconnection, -, -⟩ := World.attempt_of_hasIdentity peer phase ready
    have kept (all : ∀ a ∈ past ++ [w.attempt s peer], a.Refused) :=
      resting.attempt refused peer ready (split.1 all).2.remembered
    refine ⟨reconnection.name.trans resting.name, ?_, fun all => (kept all).1, fun all => ?_⟩
    · rw [split, and_iff_right refused]
      exact reconnection.phase_iff failed
    · rw [List.forall_mem_append, List.forall_mem_singleton]
      exact ⟨resting.keeps refused, (kept all).2⟩
  · obtain ⟨registration, -⟩ := World.attempt_of_not_hasIdentity peer phase ready
    -- once off its identity, a session never comes back to it
    have unrefused : ¬ ∀ a ∈ past ++ [w.attempt s peer], a.Refused := fun all =>
      phase (resting.phase.2 (split.1 all).1)
    exact ⟨registration.keeps.2.trans resting.name, iff_of_false registration.keeps.1 unrefused,
      fun all => absurd all unrefused, fun all => absurd all unrefused⟩

/-- Failed attempts. -/
theorem Failures.resting {identity : Identity} {keyring : κ} {store : Path} {start s : Session κ}
    {past : List Attempt} (resumed : Session.resume identity keyring store = .ok start)
    (failures : Failures start past s) : s.Resting identity past := by
  induction failures with
  | start =>
    obtain ⟨_, -, made⟩ := exists_of_bind_ok resumed
    cases made
    exact ⟨rfl, iff_of_true rfl nofun, fun _ => rfl, fun _ => nofun⟩
  | failed earlier peer ready failed ih => exact ih.failed peer ready failed

/-- Behind failed attempts, the next one starts with a reconnection under the saved client id if all
of them were refused, and only then; else it starts with a registration. As long as they were, and
the server does not say this time that it has forgotten the client, nothing but such a reconnection
is ever sent and the disk is left alone. -/
theorem resumes_iff {identity : Identity} {keyring : κ} {store : Path} {start s : Session κ}
    {past : List Attempt} (resumed : Session.resume identity keyring store = .ok start)
    (short : (Utf8.encode identity.name).length < Wire.nameWidth)
    (failures : Failures start past s) (w : World σ) (peer : String) (ready : w.line.Ready) :
    (w.line.refusal = none →
      ((w.attempt s peer).requests.head? =
        some (.plain identity.clientId .reconnect identity.name) ↔ ∀ a ∈ past, a.Refused) ∧
      ((∃ a ∈ past, ¬ a.Refused) → ∃ id,
        (w.attempt s peer).requests.head? = some (.plain id .register identity.name))) ∧
    ((∀ a ∈ past, a.Refused) → (w.attempt s peer).Remembered →
      ∀ a ∈ past ++ [w.attempt s peer], a.Keeps identity) := by
  have resting := failures.resting resumed
  rw [← resting.name] at short
  constructor
  · intro open_
    by_cases refused : ∀ a ∈ past, a.Refused
    · obtain ⟨reconnection, starts, -⟩ :=
        World.attempt_of_hasIdentity peer (resting.phase.2 refused) ready
      have first := reconnection.first (starts open_ short)
      rw [resting.clientId refused, resting.name] at first
      refine ⟨iff_of_true first refused, ?_⟩
      rintro ⟨a, mem, unrefused⟩
      exact absurd (refused a mem) unrefused
    · have roused : s.phase ≠ .hasIdentity := fun phase => refused (resting.phase.1 phase)
      obtain ⟨registration, starts⟩ := World.attempt_of_not_hasIdentity peer roused ready
      have first := registration.first (starts open_ short)
      rw [resting.name] at first
      refine ⟨iff_of_false (fun other => ?_) refused, fun _ => ⟨_, first⟩⟩
      have same := Option.some.inj (first.symm.trans other)
      have code : RequestCode.register.number = RequestCode.reconnect.number :=
        congrArg (fun f => f.header.code) same
      exact absurd code (by decide)
  · intro refused remembered
    rw [List.forall_mem_append, List.forall_mem_singleton]
    exact ⟨resting.keeps refused, (resting.attempt refused peer ready remembered).2⟩

/-! ## An identity that is given up -/

/-- The identity of a client that has registered before. -/
def sampleIdentity : Identity :=
  { name := "alice", clientId := sampleId 9, privateKey := "saved" }

/-- Its session. -/
def resumedAlice : Session ToyKeyring :=
  { alice with clientId := sampleId 9, phase := .hasIdentity, keyring := { key := some "saved" } }

/-- A world whose server answers three times, and never clearly. -/
def refusing : World Script :=
  scripted (List.replicate 3 (.bytes (Archive.say .messageReceived (.bare none))))

theorem resumes_iff_refused :
    let s := (refusing.conduct resumedAlice (Handshake.establish "server")).2.1
    let past := [refusing.attempt resumedAlice "server"]
    (welcoming.line.refusal = none →
      ((welcoming.attempt s "server").requests.head? =
        some (.plain sampleIdentity.clientId .reconnect sampleIdentity.name) ↔
          ∀ a ∈ past, a.Refused) ∧
      ((∃ a ∈ past, ¬ a.Refused) → ∃ id, (welcoming.attempt s "server").requests.head? =
        some (.plain id .register sampleIdentity.name))) ∧
    ((∀ a ∈ past, a.Refused) → (welcoming.attempt s "server").Remembered →
      ∀ a ∈ past ++ [welcoming.attempt s "server"], a.Keeps sampleIdentity) := by
  have resumed : Session.resume sampleIdentity {} (.ofText "me.info") = .ok resumedAlice := rfl
  have untried : Failures resumedAlice [] resumedAlice := .start
  have failures := untried.failed (w := refusing) "server" rfl (by decide +kernel)
  exact resumes_iff resumed (by decide +kernel) failures welcoming "server" rfl

/-- A world with the identity on its disk. -/
def World.remembering (w : World Script) : World Script :=
  { w with
    disk :=
      { entries := [([Utf8.encode "me.info"], .file 0)]
        contents := [(Utf8.encode sampleIdentity.render).toArray] } }

/-- A client whose first attempt meets silence registers in its second, which replaces its identity
on the disk. -/
theorem resumption_broken :
    ∃ (past : List Attempt) (s : Session ToyKeyring) (w : World Script),
      Session.resume sampleIdentity {} (.ofText "me.info") = .ok resumedAlice ∧
      Failures resumedAlice past s ∧ (∀ a ∈ past, a.Remembered) ∧
      w.line.Ready ∧ w.line.refusal = none ∧ (w.attempt s "server").Remembered ∧
      (w.attempt s "server").requests.head? =
        some (.plain sampleIdentity.clientId .register sampleIdentity.name) ∧
      (w.disk.read (.ofText "me.info")).toOption = some (Utf8.encode sampleIdentity.render) ∧
      ((w.attempt s "server").after.read (.ofText "me.info")).toOption ≠
        some (Utf8.encode sampleIdentity.render) := by
  have untried : Failures resumedAlice [] resumedAlice := .start
  have failures := untried.failed (w := (scripted []).remembering) "server" rfl (by decide +kernel)
  refine ⟨_, _, welcoming.remembering, rfl, failures, ?_, rfl, rfl, by decide +kernel,
    by decide +kernel, by decide +kernel, by decide +kernel⟩
  rw [List.nil_append, List.forall_mem_singleton]
  decide +kernel

end EncryptedBackup
