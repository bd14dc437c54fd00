/-
Where the client id and the key of a session come from, and what leaves them alone. A session goes
through turns: a key pair is made for it, or a request is answered. `Holding.Becomes` says for each kind
of answer what it makes of the id and the key that are held; every sequence of calls leads through its
turns in this way, keeps the name, and is never connected without a key (`session_provenance`).
-/
import EncryptedBackup.Proofs.Handshake.Timeline

namespace EncryptedBackup

variable {κ : Type}

/-! ## Moments -/

/-- Something a session goes through: a key pair is made for it, or it has a round. -/
inductive Moment where
  | paired
  | round (x : Round)

/-- What a session holds at some time: its standing, and its keyring with the private key. -/
structure Holding (κ : Type) extends Standing where
  keyring : κ

def Session.holding (s : Session κ) : Holding κ := { s.standing with keyring := s.keyring }

namespace Round

/-- Is this the kind of request that is sent in a round? -/
def Asks (x : Round) (code : RequestCode) : Prop := x.request.header.code = code.number

instance (x : Round) (code : RequestCode) : Decidable (x.Asks code) :=
  inferInstanceAs (Decidable (_ = _))

/-- Is a code one that answers the request of a round, if the server is willing or has forgotten the
client? -/
def Awaits (x : Round) : ResponseCode → Prop
  | .registered => x.Asks .register
  | .publicKeyReceived => x.Asks .sendPublicKey
  | .reconnected | .reconnectionFailed => x.Asks .reconnect
  | _ => False

/-- Does a code announce a session key, in answer to the request of a round? -/
def Announces (x : Round) (code : ResponseCode) : Prop :=
  x.Asks .sendPublicKey ∧ code = .publicKeyReceived ∨ x.Asks .reconnect ∧ code = .reconnected

end Round

variable [Keyring κ]

/-- What a turn makes of what is held. A round changes the client id or the key in three cases only,
and never the keyring; whatever else is answered, or not, leaves all as it was. -/
inductive Holding.Becomes (a : Holding κ) : Moment → Holding κ → Prop where
  | paired : Becomes a .paired { a with keyring := (Keyring.generate a.keyring).2 }
  | assigned {x : Round} {r : Response} {id : ClientId} (answered : x.answer = .ok r)
    (asked : x.Asks .register) (code : r.code = .registered) (carried : r.clientId = .ok id) :
    Becomes a (.round x) { a with clientId := id }
  | delivered {x : Round} {r : Response} {encrypted bytes : Bytes} (answered : x.answer = .ok r)
    (announced : x.Announces r.code) (carried : r.encryptedKey = .ok encrypted)
    (opened : Keyring.unwrap a.keyring encrypted = .ok bytes)
    (fits : bytes.length = 16 ∨ bytes.length = 24 ∨ bytes.length = 32) :
    Becomes a (.round x) { a with key := some ⟨bytes, fits⟩ }
  | forgotten {x : Round} {r : Response} (answered : x.answer = .ok r) (asked : x.Asks .reconnect)
    (code : r.code = .reconnectionFailed) :
    Becomes a (.round x) { a with clientId := .unset, key := none }
  | unnamed {x : Round} {r : Response} {e : Error} (answered : x.answer = .ok r)
    (asked : x.Asks .register) (code : r.code = .registered) (nameless : r.clientId = .error e) :
    Becomes a (.round x) a
  | unusable {x : Round} {r : Response} (answered : x.answer = .ok r)
    (announced : x.Announces r.code)
    (nothing : ∀ encrypted bytes, r.encryptedKey = .ok encrypted →
      Keyring.unwrap a.keyring encrypted = .ok bytes →
      ¬ (bytes.length = 16 ∨ bytes.length = 24 ∨ bytes.length = 32)) :
    Becomes a (.round x) a
  | unexpected {x : Round} {r : Response} (answered : x.answer = .ok r)
    (other : ¬ x.Awaits r.code) : Becomes a (.round x) a
  | unheard {x : Round} {e : Error} (answered : x.answer = .error e) : Becomes a (.round x) a

/-- Turns lead from what is held to what is held behind them. Each request carries the client id of
its time. -/
inductive Holding.Led : Holding κ → List Moment → Holding κ → Prop where
  | nil (a : Holding κ) : Led a [] a
  | cons {a b c : Holding κ} {t : Moment} {ts : List Moment}
    (own : ∀ x, t = .round x → x.request.header.clientId = a.clientId) (change : a.Becomes t b)
    (rest : Led b ts c) : Led a (t :: ts) c

theorem Holding.Led.append {a b c : Holding κ} {ts us : List Moment} (first : a.Led ts b)
    (second : b.Led us c) : a.Led (ts ++ us) c := by
  induction first with
  | nil => exact second
  | cons own change rest ih => exact .cons own change (ih second)

/-- What is held behind a round. -/
def Holding.after (a : Holding κ) (x : Round) : Holding κ :=
  { a.toStanding.after a.keyring x with keyring := a.keyring }

/-- A granted key is one that is carried, opened and of a length that fits. -/
theorem Response.granted?_eq_some_iff {r : Response} {keyring : κ} {key : SessionKey} :
    r.granted? keyring = some key ↔ ∃ encrypted, r.encryptedKey = .ok encrypted ∧
      Keyring.unwrap keyring encrypted = .ok key.bytes := by
  unfold granted?
  constructor
  · intro granted
    obtain ⟨encrypted, carried, granted⟩ := Option.bind_eq_some_iff.1 granted
    obtain ⟨bytes, opened, granted⟩ := Option.bind_eq_some_iff.1 granted
    refine ⟨encrypted, ok_of_toOption carried, ?_⟩
    have made := ok_of_toOption granted
    unfold SessionKey.ofBytes at made
    split at made
    · cases made
      exact ok_of_toOption opened
    · cases made
  · rintro ⟨encrypted, carried, opened⟩
    rw [carried]
    simp [Except.toOption, opened, SessionKey.ofBytes_bytes]

namespace Round

omit [Keyring κ] in
theorem answer_of_forgets {x : Round} (h : x.forgets = true) :
    ∃ r, x.answer = .ok r ∧ x.Asks .reconnect ∧ r.code = .reconnectionFailed := by
  unfold forgets at h
  split at h
  · rename_i r answered
    obtain ⟨asked, code⟩ := of_decide_eq_true h
    exact ⟨r, answered, asked, code⟩
  · cases h

/-- What is announced is delivered if it can be used. -/
theorem delivered?_of_announces {x : Round} {r : Response} (keyring : κ) (answered : x.answer = .ok r)
    (announced : x.Announces r.code) : x.delivered? keyring = r.granted? keyring := by
  unfold delivered?
  rw [answered]
  exact if_pos announced

/-- A round that changes nothing was not answered, or not with anything of use. -/
theorem becomes_same {a : Holding κ} {x : Round} (remembered : x.forgets = false)
    (nameless : x.assigned? = none) (keyless : x.delivered? a.keyring = none) :
    a.Becomes (.round x) a := by
  cases answered : x.answer with
  | error e => exact .unheard answered
  | ok r =>
    by_cases announced : x.Announces r.code
    · refine .unusable answered announced fun encrypted bytes carried opened fits => ?_
      have granted : r.granted? a.keyring = some ⟨bytes, fits⟩ :=
        Response.granted?_eq_some_iff.2 ⟨encrypted, carried, opened⟩
      rw [delivered?_of_announces _ answered announced, granted] at keyless
      cases keyless
    by_cases registered : x.Asks .register ∧ r.code = .registered
    · obtain ⟨asked, code⟩ := registered
      cases carried : r.clientId with
      | error e => exact .unnamed answered asked code carried
      | ok id =>
        unfold assigned? at nameless
        rw [answered] at nameless
        simp only at nameless
        rw [if_pos ⟨asked, code⟩, carried] at nameless
        cases nameless
    · refine .unexpected answered fun awaited => ?_
      generalize code : r.code = c at awaited
      cases c with
      | registered => exact registered ⟨awaited, code⟩
      | publicKeyReceived => exact announced (.inl ⟨awaited, code⟩)
      | reconnected => exact announced (.inr ⟨awaited, code⟩)
      | reconnectionFailed =>
        unfold forgets at remembered
        rw [answered] at remembered
        exact of_decide_eq_false remembered ⟨awaited, code⟩
      | _ => exact awaited

end Round

/-- Every round changes what is held as one of the cases says. -/
theorem Holding.becomes_after (a : Holding κ) (x : Round) :
    a.Becomes (.round x) (a.after x) := by
  unfold Holding.after Standing.after
  cases forgets : x.forgets with
  | true =>
    obtain ⟨r, answered, asked, code⟩ := Round.answer_of_forgets forgets
    exact .forgotten answered asked code
  | false =>
    cases delivered : x.delivered? a.keyring with
    | some key =>
      obtain ⟨r, answered, granted, announced⟩ := Round.answer_of_delivered? delivered
      obtain ⟨encrypted, carried, opened⟩ := Response.granted?_eq_some_iff.1 granted
      rw [(Round.of_delivered? delivered).1]
      exact .delivered answered announced carried opened key.length_valid
    | none =>
      cases assigned : x.assigned? with
      | some id =>
        obtain ⟨r, answered, code, carried, asked⟩ := Round.answer_of_assigned? assigned
        exact .assigned answered asked code carried
      | none => exact Round.becomes_same forgets assigned delivered

/-- Rounds that lead from one standing to another do so for what is held. -/
theorem Standing.Through.led {keyring : κ} : ∀ (xs : List Round) {a b : Standing},
    a.Through keyring xs b →
      Holding.Led { a with keyring } (xs.map .round) { b with keyring }
  | [], _, _, h => by
    cases h
    exact .nil _
  | x :: xs, a, _, h => by
    refine .cons ?_ (Holding.becomes_after { a with keyring } x) (led xs h.2)
    rintro _ ⟨⟩
    exact h.1

/-! ## The moments of a call -/

namespace Handshake

omit [Keyring κ] in
def Call.isExchange : Call → Bool
  | .sendPublicKey => true
  | _ => false

omit [Keyring κ] in
/-- The moments of a call with these rounds. A key pair is made before the public key is sent: at once
in an exchange of keys, and in other calls if a client id is assigned. -/
def Call.moments (c : Call) (xs : List Round) : List Moment :=
  (xs.takeWhile fun x => ¬ x.Asks .sendPublicKey).map .round ++
    if c.isExchange ∨ ∃ x ∈ xs, x.assigned?.isSome then
      .paired :: (xs.dropWhile fun x => ¬ x.Asks .sendPublicKey).map .round
    else []

section

variable {c : Call} {xs ys : List Round}

omit [Keyring κ] in
/-- Rounds without a public key or an assigned id are moments, before all others. -/
theorem Call.moments_append (keyless : ∀ x ∈ xs, ¬ x.Asks .sendPublicKey)
    (nameless : ∀ x ∈ xs, x.assigned? = none) :
    c.moments (xs ++ ys) = xs.map .round ++ c.moments ys := by
  have assigned : (∃ x ∈ xs ++ ys, x.assigned?.isSome) ↔ ∃ x ∈ ys, x.assigned?.isSome := by
    constructor
    · rintro ⟨x, mem, given⟩
      rcases List.mem_append.1 mem with mem | mem
      · rw [nameless x mem] at given
        cases given
      · exact ⟨x, mem, given⟩
    · rintro ⟨x, mem, given⟩
      exact ⟨x, List.mem_append_right xs mem, given⟩
  unfold moments
  rw [List.takeWhile_append_of_pos (by simpa using keyless),
    List.dropWhile_append_of_pos (by simpa using keyless), List.map_append, List.append_assoc]
  simp only [assigned]

omit [Keyring κ] in
theorem Call.moments_nil (other : c.isExchange = false) : c.moments [] = [] := by
  simp [moments, other]

omit [Keyring κ] in
theorem Call.moments_of_unassigned (other : c.isExchange = false)
    (keyless : ∀ x ∈ xs, ¬ x.Asks .sendPublicKey) (nameless : ∀ x ∈ xs, x.assigned? = none) :
    c.moments xs = xs.map .round := by
  have split : c.moments (xs ++ []) = xs.map .round ++ c.moments [] :=
    moments_append keyless nameless
  rw [List.append_nil] at split
  rw [split, moments_nil other, List.append_nil]

omit [Keyring κ] in
/-- A key pair is made between the rounds before the public key and those with it. -/
theorem Call.moments_paired (makes : c.isExchange ∨ ∃ x ∈ xs, x.assigned?.isSome)
    (keyless : ∀ x ∈ xs, ¬ x.Asks .sendPublicKey) (keyed : ∀ y ∈ ys, y.Asks .sendPublicKey) :
    c.moments (xs ++ ys) = xs.map .round ++ .paired :: ys.map .round := by
  have makes' : c.isExchange ∨ ∃ x ∈ xs ++ ys, x.assigned?.isSome :=
    makes.imp_right fun ⟨x, mem, given⟩ => ⟨x, List.mem_append_left ys mem, given⟩
  unfold moments
  rw [if_pos makes', List.takeWhile_append_of_pos (by simpa using keyless),
    List.dropWhile_append_of_pos (by simpa using keyless)]
  cases ys with
  | nil => simp
  | cons y ys =>
    have first : y.Asks .sendPublicKey := keyed y List.mem_cons_self
    rw [List.takeWhile_cons_of_neg (by simpa using first),
      List.dropWhile_cons_of_neg (by simpa using first), List.append_nil]

end

variable {taking : Prop} {d d' : Disk} {c : Call} {s s' : Session κ} {xs : List Round}
  {outcome : Except Error Unit}

theorem KeyExchange.keyring (h : KeyExchange taking s xs outcome s') :
    s'.keyring = (Keyring.generate s.keyring).2 := by
  cases h with
  | unmade made | unsendable made => rw [made]
  | failed made tries | exhausted made tries | done made tries =>
    rw [made, tries.session_of_key]

/-- An exchange of keys makes a key pair, and then has its rounds. -/
theorem KeyExchange.led (h : KeyExchange taking s xs outcome s') :
    s.holding.Led (.paired :: xs.map .round) s'.holding := by
  refine .cons nofun .paired ?_
  have through := h.through.led
  rw [h.keyring] at through
  unfold Session.holding
  rw [h.keyring]
  exact through

omit [Keyring κ] in
/-- A request that is not a public key is one in all of its tries. -/
theorem not_asks_of_plain {id : ClientId} {code : RequestCode} {name : String}
    (other : code.number ≠ RequestCode.sendPublicKey.number)
    (plain : ∀ x ∈ xs, x.request = .plain id code name) : ∀ x ∈ xs, ¬ x.Asks .sendPublicKey :=
  fun x mem asked => other ((code_of_plain plain x mem).symm.trans asked)

omit [Keyring κ] in
theorem unassigned_of_reconnect {id : ClientId} {name : String}
    (plain : ∀ x ∈ xs, x.request = .plain id .reconnect name) : ∀ x ∈ xs, x.assigned? = none := by
  intro x mem
  cases given : x.assigned? with
  | none => rfl
  | some id => cases (code_of_plain plain x mem).symm.trans (Round.code_of_assigned? given)

theorem Registration.led (h : Registration taking s d xs outcome s' d')
    (other : c.isExchange = false) : s.holding.Led (c.moments xs) s'.holding := by
  have registering {xs : List Round} {o : Except Error (Option ClientId)} {s₁ : Session κ}
      (tries : Tries taking (.plain s.clientId .register s.name) IdVerdict
        { s with phase := .registering } maxTries xs o s₁) :
      (∀ x ∈ xs, ¬ x.Asks .sendPublicKey) ∧
        s.holding.Led (xs.map .round) { registeredPlace o s₁ with keyring := s.keyring } :=
    ⟨not_asks_of_plain (by decide) tries.request, (through_register s.keyring tries rfl).led⟩
  have unassigned {xs : List Round} {o : Except Error (Option ClientId)} {s₁ : Session κ}
      (tries : Tries taking (.plain s.clientId .register s.name) IdVerdict
        { s with phase := .registering } maxTries xs o s₁)
      (nameless : ∀ id, o ≠ .ok (some id)) : s.holding.Led (c.moments xs) s₁.holding := by
    obtain ⟨keyless, led⟩ := registering tries
    have unnamed : ∀ x ∈ xs, x.assigned? = none := by
      intro x mem
      cases given : x.assigned? with
      | none => rfl
      | some id => exact absurd (tries.assigned mem given) (nameless id)
    have place : registeredPlace o s₁ = s₁.standing := by
      unfold registeredPlace
      split
      · exact absurd rfl (nameless _)
      · rfl
    rw [place, tries.session_of_register] at led
    rw [Call.moments_of_unassigned other keyless unnamed, tries.session_of_register]
    exact led
  cases h with
  | unsendable =>
    rw [Call.moments_nil other]
    exact .nil _
  | failed tries => exact unassigned tries nofun
  | exhausted tries =>
    have led := unassigned tries (by simp)
    exact led
  | @assigned xs ys clientId s₁ _ _ _ _ tries exchange filing =>
    obtain ⟨keyless, first⟩ := registering tries
    have keyed : ∀ y ∈ ys, y.Asks .sendPublicKey := by
      intro y mem
      obtain ⟨field, -, requests⟩ := exchange.publicKey (List.ne_nil_of_mem mem)
      rw [Round.Asks, requests y mem]
      rfl
    have given : ∃ x ∈ xs, x.assigned?.isSome := by
      obtain ⟨earlier, r, rfl, verdict⟩ := tries.settled rfl
      cases verdict with
      | assigned code this =>
        refine ⟨_, List.mem_append_right _ List.mem_cons_self, ?_⟩
        rw [Round.assigned?_register code this]
        rfl
    rw [Call.moments_paired (.inr given) keyless keyed]
    have second := exchange.led
    rw [tries.session_of_register] at first second
    exact first.append second

theorem Reconnection.led (h : Reconnection taking s d xs outcome s' d')
    (other : c.isExchange = false) : s.holding.Led (c.moments xs) s'.holding := by
  have remembered {xs : List Round} {o : Except Error (Option Reception)} {s₁ : Session κ}
      (tries : Tries taking (.plain s.clientId .reconnect s.name) ReconnectVerdict
        { s with phase := .reconnecting } maxTries xs o s₁)
      (known : o ≠ .ok (some .forgotten)) : s.holding.Led (c.moments xs) s₁.holding := by
    have place : reconnectedPlace o s₁ = s₁.standing := by
      unfold reconnectedPlace
      split
      · exact absurd rfl known
      · rfl
    have led := (through_reconnect tries rfl).led
    have ring : s₁.keyring = s.keyring := by rw [tries.session_of_reconnect]
    rw [place] at led
    rw [Call.moments_of_unassigned other (not_asks_of_plain (by decide) tries.request)
      (unassigned_of_reconnect tries.request)]
    unfold Session.holding
    rw [ring]
    exact led
  cases h with
  | unsendable =>
    rw [Call.moments_nil other]
    exact .nil _
  | failed tries => exact remembered tries nofun
  | exhausted tries | resumed tries =>
    have led := remembered tries (by simp)
    exact led
  | @forgotten xs ys s₁ _ _ _ tries registration =>
    obtain ⟨same, through⟩ := through_forgotten s.keyring tries rfl rfl
    rw [Call.moments_append (not_asks_of_plain (by decide) tries.request)
      (unassigned_of_reconnect tries.request)]
    have second := registration.led other
    rw [same] at second
    exact through.led.append second

theorem Operation.led (h : Operation taking s d c xs outcome s' d') :
    s.holding.Led (c.moments xs) s'.holding := by
  have other (differs : c ≠ .sendPublicKey) : c.isExchange = false := by
    cases c with
    | sendPublicKey => exact absurd rfl differs
    | _ => rfl
  cases h with
  | exchange h =>
    have keyed : ∀ x ∈ xs, x.Asks .sendPublicKey := by
      intro x mem
      obtain ⟨field, -, requests⟩ := h.publicKey (List.ne_nil_of_mem mem)
      rw [Round.Asks, requests x mem]
      rfl
    have moments : Call.sendPublicKey.moments ([] ++ xs) = [].map .round ++ .paired :: xs.map .round :=
      Call.moments_paired (.inl rfl) nofun keyed
    exact moments ▸ h.led
  | registration differs h => exact h.led (other differs)
  | reconnection differs h => exact h.led (other differs)

/-! ## Connected sessions -/

theorem KeyExchange.keeps_key (h : KeyExchange taking s xs outcome s') (held : s.key.isSome) :
    s'.key.isSome := by
  have tried {f : Frame} {keyring : κ} {o : Except Error (Option Unit)}
      (tries : Tries taking f KeyVerdict { s with keyring } maxTries xs o s') : s'.key.isSome := by
    have before : ({ s with keyring } : Session κ).key.isSome := held
    refine tries.keeps (P := fun s' => s'.key.isSome) (fun verdict => ?_) before
    cases verdict with
    | granted => rfl
    | _ => exact held
  cases h with
  | unmade | unsendable => exact held
  | failed made tries | exhausted made tries | done made tries => exact tried tries

theorem Registration.not_connected (h : Registration taking s d xs outcome s' d') :
    s'.phase ≠ .connected := by
  cases h with
  | unsendable => exact nofun
  | failed tries | exhausted tries =>
    cases tries.session_of_register
    exact nofun
  | assigned tries exchange =>
    rw [exchange.keeps.1]
    exact nofun

/-- A session that is connected holds a key. -/
theorem Operation.connected (h : Operation taking s d c xs outcome s' d')
    (before : s.phase = .connected → s.key.isSome) (connected : s'.phase = .connected) :
    s'.key.isSome := by
  cases h with
  | exchange h =>
    rw [h.keeps.1] at connected
    exact h.keeps_key (before connected)
  | registration differs h => exact absurd connected h.not_connected
  | reconnection differs h =>
    cases h with
    | unsendable | exhausted => cases connected
    | failed tries =>
      rw [tries.session_of_reconnect] at connected
      cases connected
    | resumed tries =>
      obtain ⟨earlier, r, -, verdict⟩ := tries.settled rfl
      cases verdict
      rfl
    | forgotten tries registration => exact absurd connected registration.not_connected

end Handshake

/-! ## Sequences of calls -/

/-- What calls make of a session, in any order and with any outcomes, each on any line to any server,
and the moments they had. -/
inductive Annals (start : Session κ) : List Moment → Session κ → Prop where
  | start : Annals start [] start
  | call {σ : Type} [Server σ] {past : List Moment} {s : Session κ} {w : World σ}
    (earlier : Annals start past s) (c : Handshake.Call) (ready : w.line.Ready) :
    Annals start (past ++ c.moments (w.rounds (c.conduct w s).2.2)) (c.conduct w s).2.1

/-- Where a session's client id and key come from. Whatever calls are made and whatever is answered,
each moment makes of the id and the key what `Holding.Becomes` says: the id changes to one that a
registration assigns or, with the client forgotten, to none; the key changes to one that is
announced, opened with the private key held at that moment and of a valid length or, with the client
forgotten, to none; nothing else that may happen changes either. The name stays the same, and a
session that is connected holds a key, if it did so from the start. -/
theorem session_provenance {start s : Session κ} {moments : List Moment}
    (annals : Annals start moments s) :
    start.holding.Led moments s.holding ∧ s.name = start.name ∧
      ((start.phase = .connected → start.key.isSome) → s.phase = .connected → s.key.isSome) := by
  induction annals with
  | start => exact ⟨.nil _, rfl, id⟩
  | @call σ _ past s w earlier c ready ih =>
    obtain ⟨led, name, connected⟩ := ih
    obtain ⟨xs, outcome, s', w', ran, bears, operation⟩ := c.spec w s ready
    rw [ran, World.rounds_of_bears bears]
    exact ⟨led.append operation.led, operation.same.1.trans name,
      fun before => operation.connected (connected before)⟩

/-- Alice registers and gets a key; then she registers once more, and the line ends before the
exchange of keys. The new id comes with the old key. -/
theorem session_provenance_alice : ∃ (moments : List Moment) (s : Session ToyKeyring),
    Annals alice moments s ∧ (moments.length = 6 ∧ s.clientId = sampleId 2 ∧
        s.key.map SessionKey.bytes = some (List.replicate 32 7)) ∧
      alice.holding.Led moments s.holding ∧ s.name = "alice" ∧
      ((alice.phase = .connected → alice.key.isSome) → s.phase = .connected → s.key.isSome) := by
  have first : Annals alice _ _ := Annals.start.call (w := welcoming) (.register "server") rfl
  have second := first.call (w := failing) (.register "server") rfl
  exact ⟨_, _, second, by decide +kernel, session_provenance second⟩

end EncryptedBackup
