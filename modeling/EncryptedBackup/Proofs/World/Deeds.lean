/-
What a client does with its line, be it ready or not, open, broken or closed: it writes frames and
reads responses, and something comes of each (`Deed`). `World.Deals` says of an action what it does in
this way and what it comes to; actions in sequence do one after the other (`Deals.bind`).
-/
import EncryptedBackup.Proofs.World.Run

namespace EncryptedBackup

/-- Something a client does with its line, and what comes of it. -/
inductive Deed where
  | wrote (f : Frame) (outcome : Except Fault Unit)
  | heard (outcome : Except Error Response)

namespace Line

variable {σ : Type} [Server σ]

/-- From one line to another these things are done. -/
def Does : Line σ → List Deed → Line σ → Prop
  | l, [], l' => l = l'
  | l, .wrote f outcome :: ds, l' =>
    (l.write f.encode).1 = outcome ∧ (l.write f.encode).2.Does ds l'
  | l, .heard outcome :: ds, l' => l.hear.1 = outcome ∧ l.hear.2.Does ds l'

theorem Does.append : ∀ (ds : List Deed) {ds' : List Deed} {l m n : Line σ},
    l.Does ds m → m.Does ds' n → l.Does (ds ++ ds') n
  | [], _, _, _, _, first, second => by
    cases first
    exact second
  | .wrote _ _ :: ds, _, _, _, _, first, second => ⟨first.1, Does.append ds first.2 second⟩
  | .heard _ :: ds, _, _, _, _, first, second => ⟨first.1, Does.append ds first.2 second⟩

end Line

namespace World

variable {σ α β : Type} [Server σ] {w : World σ}

/-- An action does things with the line, and nothing else but for the log; these and its outcome are
as `P` says. -/
def Deals (w : World σ) (x : Act (InWorld σ) α) (P : List Deed → Except Error α → Prop) : Prop :=
  ∃ ds outcome l log, w.run x = (outcome, w.talked l log) ∧ w.line.Does ds l ∧ P ds outcome

namespace Deals

variable {x : Act (InWorld σ) α} {f : α → Act (InWorld σ) β} {P : List Deed → Except Error α → Prop}
  {Q : List Deed → Except Error β → Prop}

theorem mono {P' : List Deed → Except Error α → Prop} (deals : w.Deals x P)
    (weaker : ∀ ds outcome, P ds outcome → P' ds outcome) : w.Deals x P' := by
  obtain ⟨ds, outcome, l, log, ran, does, holds⟩ := deals
  exact ⟨ds, outcome, l, log, ran, does, weaker ds outcome holds⟩

/-- An action that leaves everything alone. -/
theorem idle {outcome : Except Error α} (ran : w.run x = (outcome, w)) (holds : P [] outcome) :
    w.Deals x P :=
  ⟨[], outcome, w.line, w.log, ran, rfl, holds⟩

theorem log {P : List Deed → Except Error Unit → Prop} (e : Event) (holds : P [] (.ok ())) :
    w.Deals (Act.log e) P :=
  ⟨[], .ok (), w.line, e :: w.log, run_log w e, rfl, holds⟩

protected theorem bind (first : w.Deals x P) (failed : ∀ ds e, P ds (.error e) → Q ds (.error e))
    (next : ∀ ds a l log, P ds (.ok a) →
      (w.talked l log).Deals (f a) fun ds' outcome => Q (ds ++ ds') outcome) :
    w.Deals (x >>= f) Q := by
  obtain ⟨ds, outcome, l, log, ran, does, holds⟩ := first
  cases outcome with
  | error e => exact ⟨ds, .error e, l, log, run_bind_of_error ran, does, failed ds e holds⟩
  | ok a =>
    obtain ⟨ds', outcome, l', log', ran', does', holds'⟩ := next ds a l log holds
    exact ⟨ds ++ ds', outcome, l', log', (run_bind_of_ok ran).trans ran', does.append ds does',
      holds'⟩

/-- An action that leaves everything alone, and then another. -/
theorem andThen {a : α} (ran : w.run x = (.ok a, w)) (next : w.Deals (f a) Q) :
    w.Deals (x >>= f) Q := by
  obtain ⟨ds, outcome, l, log, ran', does, holds⟩ := next
  exact ⟨ds, outcome, l, log, (run_bind_of_ok ran).trans ran', does, holds⟩

theorem logThen (e : Event) {g : Unit → Act (InWorld σ) β}
    (next : (w.talked w.line (e :: w.log)).Deals (g ()) Q) : w.Deals (Act.log e >>= g) Q := by
  obtain ⟨ds, outcome, l, log, ran, does, holds⟩ := next
  exact ⟨ds, outcome, l, log, (run_bind_of_ok (run_log w e)).trans ran, does, holds⟩

end Deals

/-! ## Requests and responses -/

/-- One frame is written, and whether that succeeds is a matter of the line. -/
def Written (f : Frame) (ds : List Deed) (outcome : Except Error Unit) : Prop :=
  ∃ written, ds = [.wrote f written] ∧ outcome = written.mapError .line

/-- What follows a frame is done if the line takes it. -/
theorem Deals.bind_written {x : Act (InWorld σ) Unit} {g : Unit → Act (InWorld σ) β} {f : Frame}
    {Q : List Deed → Except Error β → Prop} (first : w.Deals x (Written f))
    (refused : ∀ fault, Q [.wrote f (.error fault)] (.error (.line fault)))
    (next : ∀ l log, (w.talked l log).Deals (g ()) fun ds outcome =>
      Q (.wrote f (.ok ()) :: ds) outcome) : w.Deals (x >>= g) Q := by
  refine first.bind ?_ ?_
  · rintro ds e ⟨written, rfl, failed⟩
    cases written with
    | ok _ => cases failed
    | error fault =>
      cases failed
      exact refused fault
  · rintro ds _ l log ⟨written, rfl, succeeded⟩
    cases written with
    | ok _ => exact next l log
    | error fault => cases succeeded

/-- A request is written as one frame. -/
theorem deals_sendRequest (w : World σ) {r : Request} {f : Frame} (writes : r.Writes f) :
    w.Deals (sendRequest r) (Written f) := by
  unfold sendRequest
  rw [writes.1]
  refine Deals.andThen (run_ofExcept w _) (Deals.logThen _ ?_)
  exact ⟨[.wrote f _], _, _, _, run_send _ _, ⟨rfl, rfl⟩, _, rfl, rfl⟩

/-- Reading a response is hearing it. -/
theorem deals_readResponse (w : World σ) :
    w.Deals readResponse fun ds outcome => ds = [.heard outcome] := by
  obtain ⟨log, ran⟩ := w.run_readResponse
  exact ⟨[.heard _], _, _, _, ran, ⟨rfl, rfl⟩, rfl⟩

end World

end EncryptedBackup
