/-
Two runs side by side. Worlds are alike if only session keys tell them apart; actions are twins if in
worlds that are alike they come to results that are related, or to the same error (`Act.Twins`).
Twins are put together from twins, and requests and responses are among them.
-/
import EncryptedBackup.Proofs.World.Echo
import EncryptedBackup.Proofs.World.Run
import EncryptedBackup.Session

namespace EncryptedBackup

variable {κ σ α β γ δ : Type}

/-! ## Worlds and sessions -/

/-- What a run leaves to see: the disk, the log, and the frames that were sent but for ciphertext. -/
def World.shown (w : World σ) : Disk × List Event × List (RequestHeader × Nat × Bytes) :=
  (w.disk, w.log, w.line.taken.map Frame.outline)

/-- Two worlds in which a client can tell only session keys apart, now and later. -/
structure World.Alike [Keyring κ] [Server σ] (ring : κ) (w w' : World σ) : Prop where
  disk : w.disk = w'.disk
  log : w.log = w'.log
  line : w.line.Alike ring w'.line

namespace World

variable [Keyring κ] [Server σ] {ring : κ} {w w' : World σ}

omit [Server σ] in
theorem shown_eq {log log' : List Event} {l l' : Line σ} (disk : w.disk = w'.disk)
    (noted : log = log') (taken : l.taken.map Frame.outline = l'.taken.map Frame.outline) :
    (w.talked l log).shown = (w'.talked l' log').shown := by
  unfold shown talked
  rw [disk, noted, taken]

omit [Keyring κ] [Server σ] in
theorem shown_iff : w.shown = w'.shown ↔ w.disk = w'.disk ∧ w.log = w'.log ∧
    w.line.taken.map Frame.outline = w'.line.taken.map Frame.outline := by
  unfold shown
  rw [Prod.mk.injEq, Prod.mk.injEq]

theorem Alike.shown (alike : w.Alike ring w') : w.shown = w'.shown :=
  shown_eq alike.disk alike.log alike.line.taken

theorem Alike.talked (alike : w.Alike ring w') {log log' : List Event} {l l' : Line σ}
    (line : l.Alike ring l') (noted : log = log') :
    (w.talked l log).Alike ring (w'.talked l' log') :=
  ⟨alike.disk, noted, line⟩

end World

/-- Two sessions that differ in the session key that they hold at most. -/
def Session.Resembles (s s' : Session κ) : Prop :=
  ∃ key, s' = { s with key } ∧ s.key.isSome = key.isSome

/-! ## Actions -/

variable [Keyring κ] [Server σ] {ring : κ}

/-- In worlds that are alike two actions come to related values, and the worlds stay so, or to the
same error, and the worlds show the same. -/
def Act.Twins (ring : κ) (R : α → β → Prop) (x : Act (InWorld σ) α) (y : Act (InWorld σ) β) :
    Prop :=
  ∀ w w' : World σ, w.Alike ring w' →
    Agree (World.Alike ring) (fun v v' => v.shown = v'.shown) R (w.run x) (w'.run y)

namespace Act.Twins

variable {R : α → β → Prop} {Q : γ → δ → Prop}

protected theorem bind {x : Act (InWorld σ) α} {y : Act (InWorld σ) β} {f : α → Act (InWorld σ) γ}
    {g : β → Act (InWorld σ) δ} (first : Twins ring R x y)
    (second : ∀ a b, R a b → Twins ring Q (f a) (g b)) : Twins ring Q (x >>= f) (y >>= g) := by
  intro w w' alike
  have outcome := first w w' alike
  generalize ran : w.run x = p at outcome
  generalize ran' : w'.run y = q at outcome
  cases outcome with
  | ok value state =>
    rw [World.run_bind_of_ok ran, World.run_bind_of_ok ran']
    exact second _ _ value _ _ state
  | error e state =>
    rw [World.run_bind_of_error ran, World.run_bind_of_error ran']
    exact .error e state

/-- The first step has the same value in both runs. -/
theorem andThen {x y : Act (InWorld σ) α} {f : α → Act (InWorld σ) γ} {g : α → Act (InWorld σ) δ}
    (first : Twins ring Eq x y) (second : ∀ a, Twins ring Q (f a) (g a)) :
    Twins ring Q (x >>= f) (y >>= g) :=
  first.bind fun a _ same => same ▸ second a

theorem ofExcept {x : Except Error α} {y : Except Error β} (concurs : Concurs R x y) :
    Twins ring R (Act.ofExcept x : Act (InWorld σ) α) (Act.ofExcept y) := by
  intro w w' alike
  cases concurs with
  | ok value => exact .ok value alike
  | error e => exact .error e alike.shown

protected theorem pure {a : α} {b : β} (value : R a b) :
    Twins ring R (Pure.pure a : Act (InWorld σ) α) (Pure.pure b) :=
  ofExcept (.ok value)

protected theorem throw (e : Error) :
    Twins ring R (MonadExcept.throw e : Act (InWorld σ) α) (MonadExcept.throw e) :=
  ofExcept (.error e)

protected theorem log (e : Event) : Twins ring Eq (Act.log e : Act (InWorld σ) Unit) (Act.log e) :=
  fun _ _ alike => .ok rfl (alike.talked alike.line (congrArg _ alike.log))

end Act.Twins

/-! ## Requests and responses -/

/-- What a request writes has its header. -/
theorem Request.Writes.header_eq {r : Request} {f : Frame} (writes : r.Writes f) :
    r.header = f.header := by
  obtain ⟨body, -, written⟩ := exists_of_bind_ok writes.1
  have read := congrArg RequestHeader.decode (Except.ok.inj written)
  rw [Frame.encode, RequestHeader.decode_encode, RequestHeader.decode_encode] at read
  exact Except.ok.inj read

/-- Two requests that only ciphertext tells apart. -/
def Request.Resembles (r r' : Request) : Prop :=
  ∃ f g : Frame, r.Writes f ∧ r'.Writes g ∧ f.outline = g.outline

theorem Request.Writes.resembles {r : Request} {f : Frame} (writes : r.Writes f) :
    r.Resembles r :=
  ⟨f, f, writes, writes, rfl⟩

omit [Keyring κ] [Server σ] in
theorem Request.concurs_of_cases {made : Except Error Request} {f : Frame}
    (cases : (∃ e, made = .error e) ∨ ∃ r, made = .ok r ∧ r.Writes f) :
    Concurs Resembles made made := by
  obtain ⟨e, rfl⟩ | ⟨r, rfl, writes⟩ := cases
  · exact .error e
  · exact .ok writes.resembles

theorem twins_sendRequest {r r' : Request} (resembles : r.Resembles r') :
    Act.Twins ring Eq (sendRequest r : Act (InWorld σ) Unit) (sendRequest r') := by
  intro w w' alike
  obtain ⟨f, g, writes, writes', same⟩ := resembles
  have header : r.header = r'.header := by
    rw [writes.header_eq, writes'.header_eq]
    exact congrArg Prod.fst same
  rw [World.run_sendRequest_eq alike.line.ready writes,
    World.run_sendRequest_eq alike.line.ready' writes', ← alike.line.refusal, ← alike.log, header]
  cases w.line.refusal with
  | none => exact .ok rfl (alike.talked (alike.line.give same) rfl)
  | some fault => exact .error _ (World.shown_eq alike.disk rfl alike.line.taken)

/-- What is logged of a response says nothing of a key. -/
theorem Response.Resembles.noted_eq {r r' : Response} (resembles : r.Resembles ring r') :
    World.noted (.ok r) = World.noted (.ok r') := by
  cases resembles with
  | same => rfl
  | key => rfl

theorem twins_readResponse :
    Act.Twins ring (Response.Resembles ring) (readResponse : Act (InWorld σ) Response)
      readResponse := by
  intro w w' alike
  rw [World.run_readResponse_eq, World.run_readResponse_eq, ← alike.log]
  have outcome := alike.line.hear
  unfold Line.HearAlike at outcome
  generalize w.line.hear = p at outcome ⊢
  generalize w'.line.hear = q at outcome ⊢
  cases outcome with
  | ok resembles line =>
    rw [resembles.noted_eq]
    exact .ok resembles (alike.talked line rfl)
  | error e taken => exact .error e (World.shown_eq alike.disk rfl taken)

theorem twins_exchange {r r' : Request} (resembles : r.Resembles r') :
    Act.Twins ring (Response.Resembles ring) (exchange r : Act (InWorld σ) Response)
      (exchange r') :=
  (twins_sendRequest resembles).andThen fun _ => twins_readResponse

end EncryptedBackup
