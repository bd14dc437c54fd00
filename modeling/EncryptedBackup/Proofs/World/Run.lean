/-
What comes of an action in a world, step by step. Requests and responses leave everything but the
line and the log as it is; what they do to the line is a matter of the line alone
(`run_sendRequest`, `run_readResponse`).
-/
import EncryptedBackup.Proofs.World.Conversation
import EncryptedBackup.World
import EncryptedBackup.Exchange

namespace EncryptedBackup

namespace World

variable {σ α β : Type}

/-- What comes of an action, and the world behind it. -/
def run (w : World σ) (x : Act (InWorld σ) α) : Except Error α × World σ :=
  StateT.run (ExceptT.run x) w

/-- The same world, but for its line and its log. -/
def talked (w : World σ) (line : Line σ) (log : List Event) : World σ := { w with line, log }

@[simp] theorem talked_line (w : World σ) (line : Line σ) (log : List Event) :
    (w.talked line log).line = line := rfl

@[simp] theorem talked_log (w : World σ) (line : Line σ) (log : List Event) :
    (w.talked line log).log = log := rfl

@[simp] theorem talked_talked (w : World σ) (line line' : Line σ) (log log' : List Event) :
    (w.talked line log).talked line' log' = w.talked line' log' := rfl

/-! ## Sequences -/

theorem run_bind_of_ok {x : Act (InWorld σ) α} {f : α → Act (InWorld σ) β} {w w' : World σ} {a : α}
    (h : w.run x = (.ok a, w')) : w.run (x >>= f) = w'.run (f a) := by
  show (StateT.bind x (ExceptT.bindCont f)) w = _
  unfold StateT.bind
  rw [show x w = (.ok a, w') from h]
  rfl

theorem run_bind_of_error {x : Act (InWorld σ) α} {f : α → Act (InWorld σ) β} {w w' : World σ}
    {e : Error} (h : w.run x = (.error e, w')) : w.run (x >>= f) = (.error e, w') := by
  show (StateT.bind x (ExceptT.bindCont f)) w = _
  unfold StateT.bind
  rw [show x w = (.error e, w') from h]
  rfl

/-- A sequence of actions that have a state at hand besides the world. -/
theorem run_run_bind {S : Type} (x : ExceptT Error (StateT S (InWorld σ)) α)
    (f : α → ExceptT Error (StateT S (InWorld σ)) β) (s : S) (w : World σ) :
    StateT.run (StateT.run (ExceptT.run (x >>= f)) s) w =
      match StateT.run (StateT.run (ExceptT.run x) s) w with
      | ((.ok a, s'), w') => StateT.run (StateT.run (ExceptT.run (f a)) s') w'
      | ((.error e, s'), w') => ((.error e, s'), w') := by
  show ExceptT.bindCont f (x s w).1.1 (x s w).1.2 (x s w).2 = match x s w with
    | ((.ok a, s'), w') => f a s' w'
    | ((.error e, s'), w') => ((.error e, s'), w')
  rcases x s w with ⟨⟨e | a, s'⟩, w'⟩
  · rfl
  · rfl

theorem run_ofExcept (w : World σ) (x : Except Error α) :
    w.run (Act.ofExcept x) = (x, w) := rfl

/-- An action that cannot fail. -/
theorem run_sure (w : World σ) (x : InWorld σ α) :
    w.run (Act.sure x) = (.ok (StateT.run x w).1, (StateT.run x w).2) := rfl

variable [Server σ]

theorem run_log (w : World σ) (e : Event) :
    w.run (Act.log e) = (.ok (), w.talked w.line (e :: w.log)) := rfl

/-! ## Files -/

theorem run_openFile (w : World σ) (path : Path) : w.run (Act.orElse .file (Machine.openFile path)) =
    ((w.disk.openFile path).mapError .file, w) := rfl

theorem run_readSome (w : World σ) (f : OpenFile) (n : Nat) :
    w.run (Act.sure (Machine.readSome f n)) = (.ok (w.disk.readNext f n), w) := rfl

/-! ## Requests and responses -/

theorem run_send (w : World σ) (bs : Bytes) :
    w.run (Act.orElse .line (Machine.send bs)) =
      ((w.line.write bs).1.mapError .line, w.talked (w.line.write bs).2 w.log) := rfl

/-- A request is logged, and refused as a whole or given to the server as a whole. -/
theorem run_sendRequest_eq {w : World σ} (ready : w.line.Ready) {r : Request} {f : Frame}
    (writes : r.Writes f) : w.run (sendRequest r) =
      let log := .sendingRequest r.header.code r.header.payloadSize :: w.log
      match w.line.refusal with
      | some fault => (.error (.line fault), w.talked w.line log)
      | none => (.ok (), w.talked (w.line.give f) log) := by
  unfold sendRequest
  rw [writes.1, run_bind_of_ok (run_ofExcept w _), run_bind_of_ok (run_log w _), run_send,
    talked_line, Line.write_encode ready writes.2]
  cases w.line.refusal with
  | none => rfl
  | some fault => rfl

theorem run_sendRequest {w : World σ} (ready : w.line.Ready) {r : Request} {f : Frame}
    (writes : r.Writes f) : ∃ log, w.run (sendRequest r) = match w.line.refusal with
      | some fault => (.error (.line fault), w.talked w.line log)
      | none => (.ok (), w.talked (w.line.give f) log) :=
  ⟨_, run_sendRequest_eq ready writes⟩

theorem run_receiveBytes (w : World σ) (n : Nat) :
    w.run (receiveBytes n) =
      ((w.line.read n).1.mapError .line, w.talked (w.line.read n).2 w.log) := rfl

/-- What reading a response leaves in the log. -/
def noted : Except Error Response → List Event
  | .ok r => [.answered r.code r.header.version r.header.payloadSize]
  | .error _ => []

/-- Reading a response is a matter of the line, and leaves a note of what was understood. -/
theorem run_readResponse_eq (w : World σ) : w.run readResponse =
    (w.line.hear.1, w.talked w.line.hear.2 (noted w.line.hear.1 ++ w.log)) := by
  unfold readResponse Line.hear
  have first := run_receiveBytes w ResponseHeader.length
  generalize w.line.read ResponseHeader.length = taken at first
  obtain ⟨outcome, line⟩ := taken
  cases outcome with
  | error fault => exact run_bind_of_error first
  | ok bs =>
    rw [run_bind_of_ok first]
    simp only
    cases decoded : ResponseHeader.decode bs with
    | error e => exact run_bind_of_error (run_ofExcept _ _)
    | ok header =>
      rw [run_bind_of_ok (run_ofExcept _ _)]
      simp only
      cases known : ResponseCode.ofNumber header.code with
      | error e => exact run_bind_of_error (run_ofExcept _ _)
      | ok code =>
        rw [run_bind_of_ok (run_ofExcept _ _)]
        by_cases large : Response.maxPayload < header.payloadSize.toNat
        · simp only [if_pos large]
          rfl
        simp only [if_neg large]
        have second := run_receiveBytes (w.talked line w.log) header.payloadSize.toNat
        rw [talked_line] at second
        generalize line.read header.payloadSize.toNat = taken at second
        obtain ⟨outcome, line'⟩ := taken
        cases outcome with
        | error fault => exact run_bind_of_error second
        | ok payload =>
          rw [run_bind_of_ok second]
          simp only
          cases understood : Response.decode header payload with
          | error e => exact run_bind_of_error (run_ofExcept _ _)
          | ok response =>
            have same : response.header = header := by
              unfold Response.decode at understood
              obtain ⟨_, -, understood⟩ := exists_of_bind_ok understood
              obtain ⟨_, -, understood⟩ := exists_of_bind_ok understood
              cases understood
              rfl
            rw [run_bind_of_ok (run_ofExcept _ _), ← same]
            exact run_bind_of_ok (run_log _ _)

theorem run_readResponse (w : World σ) :
    ∃ log, w.run readResponse = (w.line.hear.1, w.talked w.line.hear.2 log) :=
  ⟨_, w.run_readResponse_eq⟩

end World

end EncryptedBackup
