/-
Which client id a session key belongs to. No round breaks what a history says of a session's
standing (`Standing.Backed`). So the key that a session holds came in answer to a request of one
client id; that id is still its own unless a registration has assigned another since
(`pairing_iff`). A call that succeeds pairs them anew (`Handshake.Call.pairs`), but a registration
whose exchange of keys fails does not (`pairing_broken`).
-/
import EncryptedBackup.Keyring.Toy
import EncryptedBackup.Proofs.Handshake.Standing
import EncryptedBackup.World.Archive
import EncryptedBackup.World.Script

namespace EncryptedBackup

variable {κ : Type} [Keyring κ]

/-! ## Histories -/

/-- A round, with the keyring of its client at the end of the call: a call makes its key pair before
it takes a key. -/
structure Dealing (κ : Type) where
  keyring : κ
  round : Round

namespace Dealing

omit [Keyring κ] in
/-- The client id that the request carried. -/
def clientId (d : Dealing κ) : ClientId := d.round.request.header.clientId

/-- The session key that was delivered. -/
def delivered? (d : Dealing κ) : Option SessionKey := d.round.delivered? d.keyring

omit [Keyring κ] in
/-- The client id that was assigned last. -/
def lastAssigned? (ds : List (Dealing κ)) : Option ClientId :=
  ds.reverse.findSome? fun d => d.round.assigned?

omit [Keyring κ] in
theorem lastAssigned?_append (ds : List (Dealing κ)) (d : Dealing κ) :
    lastAssigned? (ds ++ [d]) = d.round.assigned?.or (lastAssigned? ds) := by
  unfold lastAssigned?
  rw [List.reverse_append, List.findSome?_append]
  cases assigned : d.round.assigned? <;> simp [assigned]

end Dealing

/-- The dealings of a call. -/
def Handshake.Call.dealings {σ : Type} [Server σ] (c : Call) (w : World σ) (s : Session κ) :
    List (Dealing κ) :=
  (w.rounds (c.conduct w s).2.2).map fun x => ⟨(c.conduct w s).2.1.keyring, x⟩

/-- What calls make of a session, in any order and with any outcomes, each on any line to any server,
and the dealings they had. -/
inductive History (start : Session κ) : List (Dealing κ) → Session κ → Prop where
  | start : History start [] start
  | call {σ : Type} [Server σ] {past : List (Dealing κ)} {s : Session κ} {w : World σ}
    (earlier : History start past s) (c : Handshake.Call) (ready : w.line.Ready) :
    History start (past ++ c.dealings w s) (c.conduct w s).2.1

/-- One call makes a history. -/
theorem History.one {σ : Type} [Server σ] {s : Session κ} {w : World σ} (c : Handshake.Call)
    (ready : w.line.Ready) : History s (c.dealings w s) (c.conduct w s).2.1 :=
  History.start.call c ready

/-- The key of a standing came with a dealing, no key has come since, and the client id is the one
last assigned since or else the one that the dealing's request carried. -/
def Standing.Backed (a : Standing) (past : List (Dealing κ)) : Prop :=
  ∀ key, a.key = some key → ∃ earlier d later, past = earlier ++ d :: later ∧
    d.delivered? = some key ∧ (∀ x ∈ later, x.delivered? = none) ∧
    a.clientId = (Dealing.lastAssigned? later).getD d.clientId

/-- One more round keeps a standing backed. -/
theorem Standing.Backed.after {a : Standing} {past : List (Dealing κ)} (backed : a.Backed past)
    (keyring : κ) {x : Round} (own : x.request.header.clientId = a.clientId) :
    (a.after keyring x).Backed (past ++ [⟨keyring, x⟩]) := by
  intro key held
  cases delivered : x.delivered? keyring with
  | some key' =>
    -- the round itself is the dealing, with none behind it
    rw [a.after_of_delivered? delivered] at held ⊢
    cases held
    exact ⟨past, ⟨keyring, x⟩, [], rfl, delivered, nofun, own.symm⟩
  | none =>
    unfold Standing.after at held ⊢
    cases forgets : x.forgets with
    | true =>
      rw [forgets] at held
      cases held
    | false =>
      rw [forgets, delivered] at held
      rw [delivered]
      -- the dealing stays the same, with one more behind it
      obtain ⟨earlier, d, later, rfl, came, since, current⟩ := backed key held
      refine ⟨earlier, d, later ++ [⟨keyring, x⟩], by simp, came, ?_, ?_⟩
      · rw [List.forall_mem_append, List.forall_mem_singleton]
        exact ⟨since, delivered⟩
      · rw [Dealing.lastAssigned?_append, current]
        cases x.assigned? with
        | none => rfl
        | some id => rfl

/-- Rounds keep a standing backed. -/
theorem Standing.Backed.through {keyring : κ} : ∀ (xs : List Round) {a b : Standing}
    {past : List (Dealing κ)}, a.Backed past → a.Through keyring xs b →
    b.Backed (past ++ xs.map fun x => ⟨keyring, x⟩)
  | [], _, _, _, backed, through => by
    cases through
    rw [List.map_nil, List.append_nil]
    exact backed
  | x :: xs, _, _, _, backed, through => by
    have later := Standing.Backed.through xs (backed.after keyring through.1) through.2
    rwa [List.append_assoc] at later

/-- The session of a client that has not talked to its server yet. -/
def Session.Made (s : Session κ) : Prop :=
  (∃ name keyring store, s = .fresh name keyring store) ∨
    ∃ identity keyring store, Session.resume identity keyring store = .ok s

theorem Session.Made.key {s : Session κ} (made : s.Made) : s.key = none := by
  rcases made with ⟨_, _, _, rfl⟩ | ⟨_, _, _, resumed⟩
  · rfl
  · obtain ⟨_, -, made⟩ := exists_of_bind_ok resumed
    cases made
    rfl

theorem Session.Made.start {s : Session κ} (made : s.Made) :
    s.phase = .hasIdentity ∨ s.phase = .unregistered ∧ s.clientId = .unset := by
  rcases made with ⟨_, _, _, rfl⟩ | ⟨_, _, _, resumed⟩
  · exact .inr ⟨rfl, rfl⟩
  · obtain ⟨_, -, made⟩ := exists_of_bind_ok resumed
    cases made
    exact .inl rfl

/-- Calls keep the standing of a session backed. -/
theorem History.backed {start s : Session κ} {past : List (Dealing κ)} (made : start.Made)
    (history : History start past s) : s.standing.Backed past := by
  induction history with
  | start =>
    intro key held
    rw [Session.standing, made.key] at held
    cases held
  | call earlier c ready ih => exact ih.through _ (c.through _ ready)

/-! ## Pairing -/

/-- The key of an established session came in answer to a request, and no key has come since. That
request carried the client id that the session has now, unless a registration has assigned another
one since. -/
theorem pairing_iff {start s : Session κ} {past : List (Dealing κ)} (made : start.Made)
    (history : History start past s) (established : s.isEstablished = true) :
    ∃ earlier d later key, past = earlier ++ d :: later ∧ s.key = some key ∧
      d.delivered? = some key ∧ (∀ x ∈ later, x.delivered? = none) ∧
      (d.clientId = s.clientId ↔
        ∀ id, Dealing.lastAssigned? later = some id → id = d.clientId) := by
  obtain ⟨-, held⟩ := Bool.and_eq_true_iff.1 established
  obtain ⟨key, held⟩ := Option.isSome_iff_exists.1 held
  obtain ⟨earlier, d, later, split, came, since, current⟩ := history.backed made key held
  refine ⟨earlier, d, later, key, split, held, came, since, ?_⟩
  rw [show s.clientId = (Dealing.lastAssigned? later).getD d.clientId from current]
  cases Dealing.lastAssigned? later with
  | none => exact iff_of_true rfl nofun
  | some id =>
    constructor
    · rintro same _ ⟨⟩
      exact same.symm
    · intro same
      exact (same id rfl).symm

/-- A call that succeeds pairs: the key that the session then holds was delivered in its last round,
to a request with the client id that the session has. -/
theorem Handshake.Call.pairs {σ : Type} [Server σ] (c : Call) {w : World σ} {s : Session κ}
    (ready : w.line.Ready) (succeeded : (c.conduct w s).1 = .ok ()) :
    ∃ earlier d key, c.dealings w s = earlier ++ [d] ∧ d.delivered? = some key ∧
      (c.conduct w s).2.1.key = some key ∧ d.clientId = (c.conduct w s).2.1.clientId := by
  obtain ⟨earlier, x, key, split, delivered⟩ := c.endsInKey ready succeeded
  have through := c.through s ready
  rw [split] at through
  obtain ⟨a, -, own, last⟩ := through.exists_of_append
  rw [a.after_of_delivered? delivered] at last
  have standing : ⟨a.clientId, some key⟩ = (c.conduct w s).2.1.standing := last
  have dealings : c.dealings w s = (earlier.map fun y => ⟨(c.conduct w s).2.1.keyring, y⟩) ++
      [⟨(c.conduct w s).2.1.keyring, x⟩] := by
    unfold dealings
    rw [split, List.map_append]
    rfl
  exact ⟨_, _, key, dealings, delivered, (congrArg Standing.key standing).symm,
    own.trans (congrArg Standing.clientId standing)⟩

/-! ## A pairing that breaks -/

/-- A world whose server gives these replies on an open line. -/
def scripted (replies : List Reply) : World Script :=
  { disk := {}, line := { server := { replies }, isOpen := true }
    network := .error .connectionRefused }

/-- A client id of one byte over and over. -/
def sampleId (b : UInt8) : ClientId := ⟨List.replicate ClientId.length b, List.length_replicate⟩

/-- A client that has not registered yet. -/
def alice : Session ToyKeyring := .fresh "alice" {} (.ofText "me.info")

/-- A world in which it registers and gets a key. -/
def welcoming : World Script :=
  scripted [.bytes (Archive.say .registered (.bare (some (sampleId 1)))),
    .bytes (Archive.say .publicKeyReceived (.withKey (sampleId 1) (List.replicate 32 7)))]

/-- A world in which it registers and the line ends before the exchange of keys. -/
def failing : World Script :=
  scripted [.bytes (Archive.say .registered (.bare (some (sampleId 2))))]

theorem pairing_iff_alice :
    ∃ earlier d later key,
      Handshake.Call.dealings (.register "server") welcoming alice = earlier ++ d :: later ∧
      (Handshake.Call.conduct (.register "server") welcoming alice).2.1.key = some key ∧
      d.delivered? = some key ∧ (∀ x ∈ later, x.delivered? = none) ∧
      (d.clientId = (Handshake.Call.conduct (.register "server") welcoming alice).2.1.clientId ↔
        ∀ id, Dealing.lastAssigned? later = some id → id = d.clientId) := by
  have made : alice.Made := .inl ⟨_, _, _, rfl⟩
  have history := History.one (s := alice) (w := welcoming) (.register "server") rfl
  have established : (Handshake.Call.conduct (.register "server") welcoming
      alice).2.1.isEstablished = true := by decide +kernel
  exact pairing_iff made history established

/-- A client that registers again and fails to exchange keys has a new id with its old key, and is
established nevertheless. -/
theorem pairing_broken : ∃ (past : List (Dealing ToyKeyring)) (s : Session ToyKeyring),
    alice.Made ∧ History alice past s ∧ s.isEstablished = true ∧
      ∀ d ∈ past, d.delivered? = s.key → d.clientId ≠ s.clientId := by
  have first := History.one (s := alice) (w := welcoming) (.register "server") rfl
  have second := first.call (w := failing) (.register "server") rfl
  exact ⟨_, _, .inl ⟨_, _, _, rfl⟩, second, by decide +kernel, by decide +kernel⟩

end EncryptedBackup
