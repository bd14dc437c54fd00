/-
A machine that is watched: it does what the machine does, and keeps a record of when a line is opened
and closed. What comes of a run does not depend on whether it is watched (`does_kept`), and a backup
leaves no trace in the record (`untraced_kept`).
-/
import EncryptedBackup.Proofs.Machine.Relating
import EncryptedBackup.Proofs.World.Run

namespace EncryptedBackup

/-- What is done about a line as a whole. -/
inductive Contact where
  | dialed (host : String) (port : UInt16)
  | hungUp
  deriving DecidableEq

/-- Something done on a machine that is watched; the record has the oldest contact first. -/
abbrev Watched (m : Type → Type) := StateT (List Contact) m

variable {m : Type → Type} {File : Type} [Monad m] [Machine m File] {α β : Type}

namespace Watched

/-- Do something and put a contact into the record. -/
def record (contact : Contact) (x : m α) : Watched m α := fun contacts => do
  let a ← x
  return (a, contacts ++ [contact])

instance : Machine (Watched m) File where
  note e := StateT.lift (Machine.note e)
  clock := StateT.lift Machine.clock
  progress sent total := StateT.lift (Machine.progress sent total)
  isFile path := StateT.lift (Machine.isFile path)
  readFile path := StateT.lift (Machine.readFile path)
  writeFile path bs := StateT.lift (Machine.writeFile path bs)
  openFile path := StateT.lift (Machine.openFile path)
  readSome file length := StateT.lift (Machine.readSome file length)
  readNext file length := StateT.lift (Machine.readNext file length)
  rewind file := StateT.lift (Machine.rewind file)
  dial host port := record (.dialed host port) (Machine.dial host port)
  send bs := StateT.lift (Machine.send bs)
  receive length := StateT.lift (Machine.receive length)
  hangUp := record .hungUp Machine.hangUp

/-! ## Without the record -/

/-- It does the same as something that is not watched, and leaves no trace in the record. -/
def Untraced (x : Watched m α) (y : m α) : Prop := x = StateT.lift y

/-- It does the same as something that is not watched. -/
def Does (x : Watched m α) (y : m α) : Prop := ∀ contacts, Prod.fst <$> x.run contacts = y

variable [LawfulMonad m]

/-- A backup does not concern itself with opening and closing the line. -/
theorem untraced_kept : Machine.KeptByBackups (m := Watched m) (n := m) Untraced where
  pure a := by
    apply StateT.ext
    simp
  bind first second := by
    obtain rfl := first
    obtain rfl := funext second
    apply StateT.ext
    simp
  note _ := rfl
  clock := rfl
  progress _ _ := rfl
  isFile _ := rfl
  readFile _ := rfl
  writeFile _ _ := rfl
  openFile _ := rfl
  readSome _ _ := rfl
  readNext _ _ := rfl
  rewind _ := rfl
  send _ := rfl
  receive _ := rfl

omit [Machine m File] in
theorem Untraced.does {x : Watched m α} {y : m α} (untraced : Untraced x y) : Does x y := by
  intro contacts
  rw [untraced]
  simp

omit [Machine m File] in
theorem does_record (contact : Contact) (x : m α) : Does (record contact x) x := by
  intro contacts
  show Prod.fst <$> (x >>= fun a => pure (a, contacts ++ [contact])) = x
  simp

/-- All that a client does is done on a watched machine as on any other. -/
theorem does_kept : Machine.KeptByRuns (m := Watched m) (n := m) Does where
  pure a := (untraced_kept.pure a).does
  bind first second := by
    intro contacts
    rw [StateT.run_bind, map_bind, ← first contacts, bind_map_left]
    exact bind_congr fun (a, contacts) => second a contacts
  note e := (untraced_kept.note e).does
  clock := untraced_kept.clock.does
  progress sent total := (untraced_kept.progress sent total).does
  isFile path := (untraced_kept.isFile path).does
  readFile path := (untraced_kept.readFile path).does
  writeFile path bs := (untraced_kept.writeFile path bs).does
  openFile path := (untraced_kept.openFile path).does
  readSome file length := (untraced_kept.readSome file length).does
  readNext file length := (untraced_kept.readNext file length).does
  rewind file := (untraced_kept.rewind file).does
  send bs := (untraced_kept.send bs).does
  receive length := (untraced_kept.receive length).does
  dial host port := does_record _ _
  hangUp := does_record _ _

end Watched

/-! ## In a world -/

namespace World

open Watched

variable {σ : Type}

/-- What comes of an action that is watched, with the record and the world behind it. -/
def watch (w : World σ) (contacts : List Contact) (x : Act (Watched (InWorld σ)) α) :
    Except Error α × List Contact × World σ :=
  let ((outcome, contacts), w) := StateT.run (StateT.run (ExceptT.run x) contacts) w
  (outcome, contacts, w)

section

variable {w w' : World σ} {contacts contacts' : List Contact} {x : Act (Watched (InWorld σ)) α}
  {f : α → Act (Watched (InWorld σ)) β}

theorem watch_bind : w.watch contacts (x >>= f) =
    match w.watch contacts x with
    | (.ok a, contacts', w') => w'.watch contacts' (f a)
    | (.error e, contacts', w') => (.error e, contacts', w') := by
  unfold watch
  rw [run_run_bind]
  rcases StateT.run (StateT.run (ExceptT.run x) contacts) w with ⟨⟨e | a, contacts'⟩, w'⟩
  · rfl
  · rfl

theorem watch_bind_of_ok {a : α} (h : w.watch contacts x = (.ok a, contacts', w')) :
    w.watch contacts (x >>= f) = w'.watch contacts' (f a) := by
  rw [watch_bind, h]

theorem watch_bind_of_error {e : Error} (h : w.watch contacts x = (.error e, contacts', w')) :
    w.watch contacts (x >>= f) = (.error e, contacts', w') := by
  rw [watch_bind, h]

/-- What leaves no trace is as if it were not watched. -/
theorem watch_of_untraced (contacts : List Contact) {y : Act (InWorld σ) α}
    (untraced : Act.Related Untraced x y) {outcome : Except Error α} (ran : w.run y = (outcome, w')) :
    w.watch contacts x = (outcome, contacts, w') := by
  unfold watch
  rw [untraced]
  exact congrArg (fun x : Except Error α × World σ => (x.1, contacts, x.2)) ran

/-- Being watched changes nothing. -/
theorem watch_of_does {y : Act (InWorld σ) α} (does : Act.Related Does x y) :
    w.run y = ((w.watch contacts x).1, (w.watch contacts x).2.2) := by
  unfold watch run
  rw [← does contacts]
  rfl

end

variable [Server σ] (w : World σ) (contacts : List Contact)

theorem watch_dial_of_error {fault : Fault} (host : String) (port : UInt16)
    (unreachable : w.network = .error fault) :
    w.watch contacts (Act.orElse .line (Machine.dial host port)) =
      (.error (.line fault), contacts ++ [.dialed host port], w) := by
  obtain ⟨disk, log, line, network⟩ := w
  cases unreachable
  rfl

theorem watch_dial {conditions : Conditions} (host : String) (port : UInt16)
    (reachable : w.network = .ok conditions) :
    w.watch contacts (Act.orElse .line (Machine.dial host port)) =
      (.ok s!"{host}:{port}", contacts ++ [.dialed host port],
        w.talked (w.line.connect conditions) w.log) := by
  obtain ⟨disk, log, line, network⟩ := w
  cases reachable
  rfl

omit [Server σ] in
theorem watch_sure (x : Watched (InWorld σ) α) : w.watch contacts (Act.sure x) =
    (.ok (StateT.run (StateT.run x contacts) w).1.1, (StateT.run (StateT.run x contacts) w).1.2,
      (StateT.run (StateT.run x contacts) w).2) := rfl

/-- Closing the line concerns the line and the log only, and never fails. -/
theorem watch_closeLine (peer : String) :
    ∃ log, w.watch contacts (Act.sure (closeLine peer)) =
      (.ok (), contacts ++ [.hungUp], w.talked w.line.close.2 log) := by
  have hung : StateT.run (StateT.run (Machine.hangUp : Watched (InWorld σ) _) contacts) w =
      ((w.line.close.1, contacts ++ [.hungUp]), w.talked w.line.close.2 w.log) := rfl
  rw [watch_sure]
  unfold closeLine
  rw [StateT.run_bind, StateT.run_bind, hung]
  rcases w.line.close with ⟨fault | _, l⟩
  · exact ⟨.closeFailed peer fault :: w.log, rfl⟩
  · exact ⟨.closed peer :: w.log, rfl⟩

end World

end EncryptedBackup
