/-
Programs that run on every machine. A relation between what is done on one machine and on another
that is kept by single steps and by sequences is kept by whatever is made of these: by an upload,
which reads files and uses the line (`KeptByUploads`), by a backup, which writes files as well
(`KeptByBackups`), and by a whole run, which opens and closes the line (`KeptByRuns`).
-/
import EncryptedBackup.Client

namespace EncryptedBackup

variable {m n : Type → Type} {File : Type} [Monad m] [Monad n] [Machine m File] [Machine n File]

/-! ## Steps that keep a relation -/

namespace Machine

/-- A relation is kept by sequences and by the steps of an upload. -/
structure KeptByUploads (R : ∀ {α : Type}, m α → n α → Prop) : Prop where
  pure : ∀ {α : Type} (a : α), R (Pure.pure a) (Pure.pure a)
  bind : ∀ {α β : Type} {x : m α} {y : n α} {f : α → m β} {g : α → n β}, R x y →
    (∀ a, R (f a) (g a)) → R (x >>= f) (y >>= g)
  note : ∀ e, R (note e) (note e)
  clock : R clock clock
  progress : ∀ sent total, R (progress sent total) (progress sent total)
  openFile : ∀ path, R (openFile path) (openFile path)
  readSome : ∀ (file : File) length, R (readSome file length) (readSome file length)
  readNext : ∀ (file : File) length, R (readNext file length) (readNext file length)
  rewind : ∀ file : File, R (rewind file) (rewind file)
  send : ∀ bs, R (send bs) (send bs)
  receive : ∀ length, R (receive length) (receive length)

/-- A relation is kept by all that a client does on an open line and before. -/
structure KeptByBackups (R : ∀ {α : Type}, m α → n α → Prop) : Prop extends KeptByUploads @R where
  isFile : ∀ path, R (isFile path) (isFile path)
  readFile : ∀ path, R (readFile path) (readFile path)
  writeFile : ∀ path bs, R (writeFile path bs) (writeFile path bs)

/-- A relation is kept by all that a client does. -/
structure KeptByRuns (R : ∀ {α : Type}, m α → n α → Prop) : Prop extends KeptByBackups @R where
  dial : ∀ host port, R (dial host port) (dial host port)
  hangUp : R hangUp hangUp

end Machine

open Machine

variable {R : ∀ {α : Type}, m α → n α → Prop} {α β : Type}

/-! ## Actions -/

/-- What is done on a machine and may fail is related with its outcome. -/
def Act.Related (R : ∀ {α : Type}, m α → n α → Prop) (x : Act m α) (y : Act n α) : Prop :=
  R x.run y.run

namespace Machine.KeptByUploads

variable (kept : KeptByUploads @R)

include kept

/-- A sequence of actions stops at the first error. -/
theorem andThen {x : Act m α} {y : Act n α} {f : α → Act m β} {g : α → Act n β}
    (first : Act.Related @R x y) (second : ∀ a, Act.Related @R (f a) (g a)) :
    Act.Related @R (x >>= f) (y >>= g) := by
  have steps : R (x.run >>= ExceptT.bindCont f) (y.run >>= ExceptT.bindCont g) := by
    refine kept.bind first fun outcome => ?_
    cases outcome with
    | ok a => exact second a
    | error e => exact kept.pure _
  exact steps

theorem ofExcept (x : Except Error α) :
    Act.Related @R (Act.ofExcept x : Act m α) (Act.ofExcept x) :=
  kept.pure x

theorem ret (a : α) : Act.Related @R (Pure.pure a : Act m α) (Pure.pure a) := kept.pure _

theorem throw (e : Error) : Act.Related @R (throw e : Act m α) (throw e) := kept.pure _

theorem nextSlice (s : Slicer File) : R (s.next (m := m)) (s.next (m := n)) := by
  unfold Slicer.next
  split
  · exact kept.pure _
  · refine kept.bind (kept.readNext _ _) fun (outcome, _) => ?_
    cases outcome with
    | error fault => exact kept.pure _
    | ok bs => exact kept.pure _

theorem rewindSlicer (s : Slicer File) : R (s.rewind (m := m)) (s.rewind (m := n)) := by
  refine kept.bind (kept.rewind _) fun (outcome, _) => ?_
  cases outcome with
  | error fault => exact kept.pure _
  | ok _ => exact kept.pure _

variable [LawfulMonad m] [LawfulMonad n]

theorem map {x : m α} {y : n α} (f : α → β) (related : R x y) : R (f <$> x) (f <$> y) := by
  rw [← bind_pure_comp, ← bind_pure_comp]
  exact kept.bind related fun a => kept.pure _

theorem sure {x : m α} {y : n α} (related : R x y) : Act.Related @R (Act.sure x) (Act.sure y) :=
  kept.map _ related

theorem orElse {x : m (Except Fault α)} {y : n (Except Fault α)} (error : Fault → Error)
    (related : R x y) : Act.Related @R (Act.orElse error x) (Act.orElse error y) :=
  kept.map _ related

theorem log (e : Event) : Act.Related @R (Act.log e : Act m Unit) (Act.log e) :=
  kept.sure (kept.note e)

/-- Nothing comes after an error. -/
theorem stop (e : Error) (f : β → Act m α) (g : β → Act n α) :
    Act.Related @R (MonadExcept.throw e >>= f) (MonadExcept.throw e >>= g) := by
  unfold Act.Related
  simpa using kept.pure (Except.error e : Except Error α)

/-! ## The line -/

theorem sendRequest (r : Request) : Act.Related @R (sendRequest r : Act m Unit) (sendRequest r) :=
  kept.andThen (kept.ofExcept r.encode) fun _ => kept.andThen (kept.log _) fun _ =>
    kept.orElse .line (kept.send _)

theorem readResponse : Act.Related @R (readResponse : Act m Response) readResponse := by
  refine kept.andThen (kept.orElse .line (kept.receive _)) fun bs => ?_
  refine kept.andThen (kept.ofExcept _) fun header => kept.andThen (kept.ofExcept _) fun _ => ?_
  dsimp only
  split
  · exact kept.stop ..
  · exact kept.andThen (kept.orElse .line (kept.receive _)) fun _ => kept.andThen (kept.ofExcept _)
      fun _ => kept.andThen (kept.log _) fun _ => kept.ret _

theorem exchange (r : Request) : Act.Related @R (exchange r : Act m Response) (exchange r) :=
  kept.andThen (kept.sendRequest r) fun _ => kept.readResponse

/-! ## Files -/

theorem openSlicer (path : Path) (size : Nat) :
    Act.Related @R (Slicer.openFile path size : Act m (Slicer File))
      (Slicer.openFile path size) := by
  unfold Slicer.openFile
  split
  · exact kept.stop ..
  · exact kept.andThen (kept.orElse .file (kept.openFile path)) fun _ => kept.ret _

theorem takeRest : ∀ (left : Nat) (d : Digest) (file : File),
    Act.Related @R (d.takeRest left file : Act m Digest) (d.takeRest left file)
  | 0, _, _ => kept.ret _
  | left + 1, d, file => by
    refine kept.andThen (kept.sure (kept.readSome file _)) fun (outcome, file) => ?_
    refine kept.andThen (kept.ofExcept _) fun bs => ?_
    split
    · exact kept.ret _
    · exact takeRest left (d.feed bs) file

theorem fileChecksum (path : Path) :
    Act.Related @R (fileChecksum path : Act m UInt32) (fileChecksum path) :=
  kept.andThen (kept.orElse .file (kept.openFile path)) fun _ =>
    kept.andThen (kept.takeRest _ _ _) fun _ => kept.ret _

/-! ## Uploads -/

section

variable {κ : Type} (u : Upload κ)

theorem tell (verdict : RequestCode) :
    Act.Related @R (u.tell verdict : Act m Unit) (u.tell verdict) :=
  kept.andThen (kept.ofExcept _) kept.sendRequest

theorem readAcknowledgement :
    Act.Related @R (Upload.readAcknowledgement : Act m Unit) Upload.readAcknowledgement := by
  refine kept.andThen kept.readResponse fun response => ?_
  split
  · exact kept.log _
  · exact kept.ret _

theorem showSent (sent : UInt16) :
    Act.Related @R (u.showSent sent : Act m Unit) (u.showSent sent) := by
  unfold Upload.showSent
  split
  · exact kept.sure (kept.progress _ _)
  · exact kept.ret _

variable [Keyring κ]

theorem sendSlices : ∀ (left : Nat) (sent : UInt16) (s : Slicer File),
    Act.Related @R (u.sendSlices left sent s : Act m _) (u.sendSlices left sent s)
  | 0, _, _ => kept.ret _
  | left + 1, sent, s => by
    refine kept.andThen (kept.sure (kept.nextSlice s)) fun (outcome, s) => ?_
    refine kept.andThen (kept.ofExcept outcome) fun slice => ?_
    cases slice with
    | none => exact kept.ret _
    | some slice =>
      exact kept.andThen (kept.ofExcept _) fun request => kept.andThen (kept.sendRequest request)
        fun _ => kept.andThen (kept.showSent u _) fun _ => sendSlices left (sent + 1) s

theorem sendAll (s : Slicer File) : Act.Related @R (u.sendAll s : Act m _) (u.sendAll s) := by
  refine kept.andThen (kept.sure (kept.rewindSlicer s)) fun (outcome, s) => ?_
  refine kept.andThen (kept.ofExcept outcome) fun _ => kept.andThen (kept.showSent u 0) fun _ => ?_
  refine kept.andThen (kept.sendSlices u s.slices 0 s) fun (sent, s) => ?_
  exact kept.andThen (kept.log _) fun _ => kept.andThen kept.readResponse fun _ =>
    kept.andThen (kept.ofExcept _) fun _ => kept.ret _

theorem settle (resends attempt : Nat) (s : Slicer File) :
    Act.Related @R (u.settle resends attempt s : Act m _) (u.settle resends attempt s) := by
  unfold Upload.settle
  refine kept.andThen (kept.sendAll u s) fun (theirs, s) => ?_
  dsimp only
  split
  · exact kept.andThen (kept.tell u _) fun _ => kept.andThen kept.readAcknowledgement fun _ =>
      kept.andThen (kept.sure kept.clock) fun _ => kept.andThen (kept.log _) fun _ => kept.ret _
  · refine kept.andThen (kept.log _) fun _ => ?_
    match resends with
    | 0 =>
      exact kept.andThen (kept.tell u _) fun _ => kept.andThen kept.readAcknowledgement fun _ =>
        kept.throw _
    | resends + 1 =>
      exact kept.andThen (kept.tell u _) fun _ => settle resends (attempt + 1) s

/-- What is kept by the steps of an upload is kept by the upload. -/
theorem sendFile (session : Session κ) (path : Path) (options : UploadOptions) :
    Act.Related @R (Upload.sendFile session path options : Act m Report)
      (Upload.sendFile session path options) := by
  unfold Upload.sendFile
  cases session.key with
  | none => exact kept.throw _
  | some key =>
    cases path.fileName? with
    | none => exact kept.throw _
    | some name =>
      refine kept.andThen (kept.ofExcept _) fun _ => ?_
      refine kept.andThen (kept.openSlicer path options.sliceSize) fun slicer => ?_
      dsimp only
      split
      · exact kept.stop ..
      · exact kept.andThen (kept.fileChecksum path) fun _ => kept.andThen (kept.log _) fun _ =>
          kept.andThen (kept.sure kept.clock) fun _ => kept.settle _ _ _ _

end

end Machine.KeptByUploads

/-! ## Handshakes -/

/-- What is done with a session at hand is related if it is with each session. -/
def Handshake.Related {κ : Type} (R : ∀ {α : Type}, m α → n α → Prop) (x : Handshake κ m α)
    (y : Handshake κ n α) : Prop :=
  ∀ s, R (x.run.run s) (y.run.run s)

namespace Machine.KeptByBackups

open Handshake

variable (kept : KeptByBackups @R) {κ : Type}

include kept

theorem chained {x : Handshake κ m α} {y : Handshake κ n α} {f : α → Handshake κ m β}
    {g : α → Handshake κ n β} (first : Related @R x y) (second : ∀ a, Related @R (f a) (g a)) :
    Related @R (x >>= f) (y >>= g) := by
  intro s
  have steps : R (x.run.run s >>= fun (outcome, s) => StateT.run (ExceptT.bindCont f outcome) s)
      (y.run.run s >>= fun (outcome, s) => StateT.run (ExceptT.bindCont g outcome) s) := by
    refine kept.bind (first s) fun (outcome, s) => ?_
    cases outcome with
    | ok a => exact second a s
    | error e => exact kept.pure _
  exact steps

theorem settled (x : Except Error α) : Related @R (settle x : Handshake κ m α) (settle x) :=
  fun _ => kept.pure _

theorem done (a : α) : Related @R (Pure.pure a : Handshake κ m α) (Pure.pure a) :=
  fun _ => kept.pure _

theorem failed (e : Error) :
    Related @R (MonadExcept.throw e : Handshake κ m α) (MonadExcept.throw e) :=
  fun _ => kept.pure _

theorem retried {body : Nat → Handshake κ m (Option α)} {body' : Nat → Handshake κ n (Option α)}
    (related : ∀ attempt, Related @R (body attempt) (body' attempt)) :
    ∀ left attempt, Related @R (retry body left attempt) (retry body' left attempt)
  | 0, _ => kept.done _
  | left + 1, attempt => by
    refine kept.chained (related attempt) fun result => ?_
    cases result with
    | some a => exact kept.done _
    | none => exact retried related left (attempt + 1)

theorem lifted {x : StateT (Session κ) m α} {y : StateT (Session κ) n α}
    (related : ∀ s, R (x.run s) (y.run s)) : Related @R (ExceptT.lift x) (ExceptT.lift y) :=
  fun s => kept.bind (related s) fun _ => kept.pure _

theorem held : Related @R (get : Handshake κ m (Session κ)) get :=
  kept.lifted fun _ => kept.pure _

theorem replaced (s : Session κ) : Related @R (set s : Handshake κ m PUnit) (set s) :=
  kept.lifted fun _ => kept.pure _

theorem changed (f : Session κ → Session κ) :
    Related @R (modify f : Handshake κ m PUnit) (modify f) :=
  kept.lifted fun _ => kept.pure _

theorem performed {x : Act m α} {y : Act n α} (related : Act.Related @R x y) :
    Related (κ := κ) @R (perform x) (perform y) :=
  fun _ => kept.bind related fun _ => kept.pure _

variable [LawfulMonad m] [LawfulMonad n]

theorem logged (e : Event) :
    Related @R (Handshake.log e : Handshake κ m Unit) (Handshake.log e) :=
  kept.performed (kept.log e)

/-! ### What was set up -/

theorem readText (path : Path) :
    Act.Related @R (Job.readText path : Act m String) (Job.readText path) := by
  refine kept.andThen (kept.orElse _ (kept.readFile path)) fun bytes => ?_
  cases Utf8.decode? bytes with
  | none => exact kept.throw _
  | some text => exact kept.ret _

theorem readJob (path : Path) : Act.Related @R (Job.read path : Act m Job) (Job.read path) := by
  refine kept.andThen (kept.readText path) fun content => ?_
  cases Job.parse content with
  | error defect => exact kept.throw _
  | ok job => exact kept.ret _

theorem load (path : Path) :
    Act.Related @R (Identity.load path : Act m Identity) (Identity.load path) := by
  refine kept.andThen (kept.readText path) fun content => ?_
  cases Identity.parse path.text content with
  | error defect => exact kept.throw _
  | ok identity => exact kept.ret _

theorem store (path : Path) (i : Identity) :
    Act.Related @R (Identity.store path i : Act m Unit) (Identity.store path i) :=
  kept.andThen (kept.orElse .file (kept.writeFile path _)) fun _ => kept.log _

/-! ### Operations -/

variable [Keyring κ]

omit [LawfulMonad m] [LawfulMonad n] in
theorem adoptKey (encrypted : Bytes) :
    Related @R (adoptKey encrypted : Handshake κ m Unit) (adoptKey encrypted) :=
  kept.chained kept.held fun _ => kept.chained (kept.settled _) fun _ =>
    kept.chained (kept.settled _) fun _ => kept.changed _

theorem saveIdentity : Related @R (saveIdentity : Handshake κ m Unit) saveIdentity :=
  kept.chained kept.held fun _ => kept.chained (kept.settled _) fun _ =>
    kept.chained (kept.performed (kept.store _ _)) fun _ => kept.logged _

omit [LawfulMonad m] [LawfulMonad n] in
theorem makeKeyPair : Related @R (makeKeyPair : Handshake κ m Bytes) makeKeyPair :=
  kept.chained kept.held fun _ => kept.chained (kept.replaced _) fun _ => kept.settled _

theorem sendPublicKey : Related @R (sendPublicKey : Handshake κ m Unit) sendPublicKey := by
  refine kept.chained kept.makeKeyPair fun field => kept.chained kept.held fun s => ?_
  refine kept.chained (kept.settled _) fun request => kept.chained (kept.logged _) fun _ => ?_
  refine kept.chained (kept.retried (fun attempt => ?_) _ _) fun taken => ?_
  · refine kept.chained (kept.performed (kept.exchange request)) fun response => ?_
    split
    · exact kept.chained (kept.settled _) fun _ => kept.chained (kept.adoptKey _) fun _ =>
        kept.chained (kept.logged _) fun _ => kept.done _
    · exact kept.chained (kept.logged _) fun _ => kept.done _
  · split
    · exact kept.failed _
    · exact kept.done _

theorem register (peer : String) :
    Related @R (register peer : Handshake κ m Unit) (register peer) := by
  refine kept.chained kept.held fun _ => kept.chained (kept.logged _) fun _ => ?_
  refine kept.chained (kept.changed _) fun _ => kept.chained kept.held fun s => ?_
  refine kept.chained (kept.settled _) fun request => ?_
  refine kept.chained (kept.retried (fun attempt => ?_) _ _) fun assigned => ?_
  · refine kept.chained (kept.performed (kept.exchange request)) fun response => ?_
    split
    · exact kept.chained (kept.settled _) fun _ => kept.done _
    · exact kept.chained (kept.logged _) fun _ => kept.done _
  · cases assigned with
    | none => exact kept.chained (kept.changed _) fun _ => kept.failed _
    | some id =>
      exact kept.chained (kept.changed _) fun _ => kept.chained (kept.logged _) fun _ =>
        kept.chained kept.sendPublicKey fun _ => kept.saveIdentity

theorem reconnect (peer : String) :
    Related @R (reconnect peer : Handshake κ m Unit) (reconnect peer) := by
  refine kept.chained kept.held fun s => kept.chained (kept.logged _) fun _ => ?_
  refine kept.chained (kept.changed _) fun _ => kept.chained (kept.settled _) fun request => ?_
  refine kept.chained (kept.retried (fun attempt => ?_) _ _) fun received => ?_
  · refine kept.chained (kept.performed (kept.exchange request)) fun response => ?_
    split
    · exact kept.chained (kept.settled _) fun _ => kept.chained (kept.adoptKey _) fun _ =>
        kept.done _
    · exact kept.done _
    · exact kept.chained (kept.logged _) fun _ => kept.done _
  · match received with
    | some .resumed => exact kept.chained (kept.changed _) fun _ => kept.logged _
    | some .forgotten =>
      exact kept.chained (kept.logged _) fun _ => kept.chained (kept.changed _) fun _ =>
        kept.register peer
    | none => exact kept.chained (kept.changed _) fun _ => kept.failed _

theorem establish (peer : String) :
    Related @R (establish peer : Handshake κ m Unit) (establish peer) := by
  refine kept.chained kept.held fun s => ?_
  split
  · exact kept.reconnect peer
  · exact kept.register peer

/-- What is kept by the steps of a backup is kept by the backup. -/
theorem backup (peer : String) (path : Path) (options : UploadOptions) :
    Related @R (Client.backup peer path options : Handshake κ m Report)
      (Client.backup peer path options) :=
  kept.chained (kept.establish peer) fun _ => kept.chained kept.held fun s =>
    kept.performed (kept.sendFile s path options)

theorem openSession (job : Job) (config : ClientConfig) (ring : κ) :
    Act.Related @R (Client.openSession job config ring : Act m (Session κ))
      (Client.openSession job config ring) := by
  refine kept.andThen (kept.sure (kept.isFile _)) fun present => ?_
  split
  · refine kept.andThen (kept.load _) fun i => ?_
    dsimp only
    split
    · exact kept.andThen (kept.log _) fun _ => kept.ofExcept _
    · exact kept.ofExcept _
  · exact kept.andThen (kept.log _) fun _ => kept.ret _

end Machine.KeptByBackups

/-! ## Runs -/

/-- What is kept by all that a client does is kept by its runs. -/
theorem Machine.KeptByRuns.run [LawfulMonad m] [LawfulMonad n] (kept : KeptByRuns @R) {κ : Type}
    [Keyring κ] (config : ClientConfig) (ring : κ) :
    Act.Related @R (Client.run config ring : Act m Report) (Client.run config ring) := by
  refine kept.andThen (kept.readJob _) fun job => kept.andThen (kept.openSession _ _ _) fun s => ?_
  refine kept.andThen (kept.orElse .line (kept.dial _ _)) fun peer => ?_
  refine kept.andThen (kept.log _) fun _ => ?_
  refine kept.andThen (kept.sure (kept.backup peer _ _ s)) fun (outcome, _) => ?_
  refine kept.andThen (kept.sure ?_) fun _ => kept.ofExcept outcome
  refine kept.bind kept.hangUp fun closed => ?_
  cases closed with
  | ok _ => exact kept.note _
  | error fault => exact kept.note _

end EncryptedBackup
