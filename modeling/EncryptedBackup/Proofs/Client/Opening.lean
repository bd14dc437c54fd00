/-
How a run starts. What a client needs before it opens a line is set up in its files: a job, and either
no identity or one whose private key can be loaded (`Client.Starts`). A run that finds this opens a
line, and closes it once the backup is over; any other run ends before a line is opened and changes no
file (`run_refuses_bad_setup`).
-/
import EncryptedBackup.Proofs.Handshake.Rounds
import EncryptedBackup.Proofs.Identity.Memory
import EncryptedBackup.Proofs.Keyring.Saving
import EncryptedBackup.Proofs.World.Watch

namespace EncryptedBackup

open Text

namespace Client

/-! ## What has to be set up -/

section

variable {κ : Type} [Keyring κ]

/-- The session that a client has for a job, from what the file of its identity is. If there is no
such file, the client is new; otherwise the file has to have an identity on its first three lines,
with a private key that can be loaded, and its name is the client's. -/
inductive Opening (d : Disk) (config : ClientConfig) (ring : κ) (job : Job) : Session κ → Prop where
  | new (absent : d.isFile config.identityPath = false) :
    Opening d config ring job
      { name := job.name, clientId := .unset, key := none, phase := .unregistered
        keyring := ring, store := config.identityPath }
  | known {content name id privateKey : String} {clientId : ClientId} {loaded : κ}
    (present : d.isFile config.identityPath = true) (holds : d.Holds config.identityPath content)
    (named : EntryAt content 0 name) (numbered : EntryAt content 1 id)
    (valid : ClientId.ofText id = .ok clientId) (keyed : EntryAt content 2 privateKey)
    (usable : Keyring.load ring privateKey = .ok loaded) :
    Opening d config ring job
      { name, clientId, key := none, phase := .hasIdentity
        keyring := loaded, store := config.identityPath }

/-- There is a job, and a session to start with. -/
structure Starts (d : Disk) (config : ClientConfig) (ring : κ) (job : Job) (s : Session κ) :
    Prop where
  described : d.Describes config.jobPath Job.parse job
  opening : Opening d config ring job s

theorem Opening.of_describes {d : Disk} {config : ClientConfig} {ring loaded : κ} {i : Identity}
    (job : Job) (present : d.isFile config.identityPath = true)
    (described : d.Describes config.identityPath (Identity.parse config.identityPath.text) i)
    (usable : Keyring.load ring i.privateKey = .ok loaded) :
    Opening d config ring job
      { name := i.name, clientId := i.clientId, key := none, phase := .hasIdentity
        keyring := loaded, store := config.identityPath } := by
  obtain ⟨content, holds, parsed⟩ := described
  obtain ⟨named, ⟨id, numbered, valid⟩, keyed⟩ := Identity.parse_eq_ok_iff.1 parsed
  exact .known present holds named numbered valid keyed usable

end

/-! ## The session -/

variable {κ σ : Type} [Keyring κ] [Server σ] {w : World σ} {config : ClientConfig} {ring : κ}
  {job : Job}

theorem run_openSession_new (ring : κ) (job : Job)
    (absent : w.disk.isFile config.identityPath = false) :
    w.run (openSession job config ring) = (.ok (.fresh job.name ring config.identityPath),
      w.talked w.line (.noIdentity job.name :: w.log)) := by
  unfold openSession
  rw [World.run_bind_of_ok (w.run_isFile _), absent]
  exact World.run_bind_of_ok (World.run_log _ _)

theorem run_openSession_known (ring : κ) (job : Job) {i : Identity}
    (present : w.disk.isFile config.identityPath = true)
    (described : w.disk.Describes config.identityPath (Identity.parse config.identityPath.text) i) :
    ∃ log, w.run (openSession job config ring) =
      (Session.resume i ring config.identityPath, w.talked w.line log) := by
  unfold openSession
  rw [World.run_bind_of_ok (w.run_isFile _), present]
  simp only [if_true]
  rw [World.run_bind_of_ok (Identity.run_load described)]
  split
  · exact ⟨_, (World.run_bind_of_ok (World.run_log _ _)).trans (World.run_ofExcept _ _)⟩
  · exact ⟨w.log, World.run_ofExcept _ _⟩

/-- The session follows from the files. -/
theorem Opening.run {s : Session κ} (opening : Opening w.disk config ring job s) :
    ∃ log, w.run (openSession job config ring) = (.ok s, w.talked w.line log) := by
  cases opening with
  | new absent => exact ⟨_, run_openSession_new ring job absent⟩
  | @known content name id privateKey clientId loaded present holds named numbered valid keyed
      usable =>
    obtain ⟨log, ran⟩ := run_openSession_known (i := ⟨name, clientId, privateKey⟩) ring job
      present ⟨content, holds, Identity.parse_eq_ok_iff.2 ⟨named, ⟨id, numbered, valid⟩, keyed⟩⟩
    refine ⟨log, ran.trans ?_⟩
    unfold Session.resume
    rw [usable]
    rfl

/-! ## Runs that are watched -/

section

variable {e : Error} {s s' : Session κ} {log : List Event} {w' : World σ}

/-- Without a job nothing is done. -/
theorem watch_run_of_unread (unread : w.run (Job.read config.jobPath) = (.error e, w)) :
    w.watch [] (run config ring) = (.error e, [], w) :=
  World.watch_bind_of_error
    (World.watch_of_untraced [] (Watched.untraced_kept.readJob config.jobPath) unread)

/-- With a job, all depends on the session. -/
theorem watch_run_of_read (read : w.run (Job.read config.jobPath) = (.ok job, w)) :
    w.watch [] (run config ring) = w.watch [] (do
      let session ← openSession job config ring
      let peer ← Act.orElse .line (Machine.dial job.host job.port)
      Act.log (.connected peer)
      let (outcome, _) ← Act.sure ((backup peer job.file config.upload).run session)
      Act.sure (closeLine peer)
      Act.ofExcept outcome) :=
  World.watch_bind_of_ok
    (World.watch_of_untraced [] (Watched.untraced_kept.readJob config.jobPath) read)

theorem watch_run_of_unopened (read : w.run (Job.read config.jobPath) = (.ok job, w))
    (unopened : w.run (openSession job config ring) = (.error e, w')) :
    w.watch [] (run config ring) = (.error e, [], w') := by
  rw [watch_run_of_read read]
  exact World.watch_bind_of_error
    (World.watch_of_untraced [] (Watched.untraced_kept.openSession job config ring) unopened)

theorem watch_run_of_unreachable {fault : Fault}
    (read : w.run (Job.read config.jobPath) = (.ok job, w))
    (opened : w.run (openSession job config ring) = (.ok s, w.talked w.line log))
    (unreachable : w.network = .error fault) : w.watch [] (run config ring) =
      (.error (.line fault), [.dialed job.host job.port], w.talked w.line log) := by
  rw [watch_run_of_read read, World.watch_bind_of_ok
    (World.watch_of_untraced [] (Watched.untraced_kept.openSession job config ring) opened)]
  exact World.watch_bind_of_error (World.watch_dial_of_error _ _ _ _ unreachable)

/-- A run is a backup between the opening and the closing of the line. -/
theorem watch_run_of_backup {conditions : Conditions} {outcome : Except Error Report}
    (read : w.run (Job.read config.jobPath) = (.ok job, w))
    (opened : w.run (openSession job config ring) = (.ok s, w.talked w.line log))
    (reachable : w.network = .ok conditions)
    (ran : (w.talked (w.line.connect conditions)
        (.connected s!"{job.host}:{job.port}" :: log)).conduct s
      (backup s!"{job.host}:{job.port}" job.file config.upload) = (outcome, s', w')) :
    ∃ log', w.watch [] (run config ring) =
      (outcome, [.dialed job.host job.port, .hungUp], w'.talked w'.line.close.2 log') := by
  obtain ⟨log', closed⟩ :=
    w'.watch_closeLine [.dialed job.host job.port] s!"{job.host}:{job.port}"
  have dialed := (w.talked w.line log).watch_dial [] job.host job.port reachable
  have backed := World.watch_of_untraced [.dialed job.host job.port]
    (Watched.untraced_kept.sure (Watched.untraced_kept.backup _ _ _ s)) (World.run_of_conduct ran)
  refine ⟨log', ?_⟩
  rw [watch_run_of_read read, World.watch_bind_of_ok
    (World.watch_of_untraced [] (Watched.untraced_kept.openSession job config ring) opened),
    World.watch_bind_of_ok dialed, World.watch_bind_of_ok
    (World.watch_of_untraced _ (Watched.untraced_kept.log _) (World.run_log _ _))]
  simp only [World.talked_talked, World.talked_line, World.talked_log, List.nil_append]
  exact (World.watch_bind_of_ok backed).trans (World.watch_bind_of_ok closed)

theorem run_of_backup {conditions : Conditions} {outcome : Except Error Report}
    (read : w.run (Job.read config.jobPath) = (.ok job, w))
    (opened : w.run (openSession job config ring) = (.ok s, w.talked w.line log))
    (reachable : w.network = .ok conditions)
    (ran : (w.talked (w.line.connect conditions)
        (.connected s!"{job.host}:{job.port}" :: log)).conduct s
      (backup s!"{job.host}:{job.port}" job.file config.upload) = (outcome, s', w')) :
    ∃ log', w.run (run config ring) = (outcome, w'.talked w'.line.close.2 log') := by
  obtain ⟨log', watched⟩ := watch_run_of_backup read opened reachable ran
  refine ⟨log', ?_⟩
  rw [World.watch_of_does (Watched.does_kept.run config ring), watched]

end

/-- A client that can start opens the line to its server, and no other. -/
theorem Starts.dialed_iff {s : Session κ} (starts : Starts w.disk config ring job s) (host : String)
    (port : UInt16) : .dialed host port ∈ (w.watch [] (run config ring)).2.1 ↔
      job.host = host ∧ job.port = port := by
  obtain ⟨log, opened⟩ := starts.opening.run
  have read := Job.run_read starts.described
  cases network : w.network with
  | error fault =>
    rw [watch_run_of_unreachable read opened network]
    simp [eq_comm]
  | ok conditions =>
    obtain ⟨log', watched⟩ := watch_run_of_backup read opened network rfl
    rw [watched]
    simp [eq_comm]

/-! ## Clients that cannot start -/

/-- What is amiss if a client cannot start, and the error that says so: there is no job, or an
identity of which nothing can be made, or one whose private key is of no use. -/
inductive Amiss (d : Disk) (config : ClientConfig) (ring : RsaKeyring) : Error → Prop where
  | job (defect : SetupDefect) (nothing : ∀ job, ¬ d.Describes config.jobPath Job.parse job) :
    Amiss d config ring (.setup defect)
  | identity (defect : SetupDefect) (present : d.isFile config.identityPath = true)
    (nothing : ∀ i, ¬ d.Describes config.identityPath (Identity.parse config.identityPath.text) i) :
    Amiss d config ring (.setup defect)
  | key {i : Identity} {defect : KeyDefect}
    (described : d.Describes config.identityPath (Identity.parse config.identityPath.text) i)
    (unusable : Keyring.load ring i.privateKey = .error (.keys defect)) :
    Amiss d config ring (.keys defect)

section

variable {ring : RsaKeyring}

/-- If no session follows from the files, something is amiss. -/
theorem run_openSession_amiss (job : Job) (nothing : ∀ s, ¬ Opening w.disk config ring job s) :
    ∃ e log, w.run (openSession job config ring) = (.error e, w.talked w.line log) ∧
      Amiss w.disk config ring e := by
  cases present : w.disk.isFile config.identityPath with
  | false => exact absurd (.new present) (nothing _)
  | true =>
    by_cases described : ∃ i,
        w.disk.Describes config.identityPath (Identity.parse config.identityPath.text) i
    · obtain ⟨i, described⟩ := described
      obtain ⟨log, ran⟩ := run_openSession_known ring job present described
      unfold Session.resume at ran
      cases usable : Keyring.load ring i.privateKey with
      | ok loaded => exact absurd (.of_describes job present described usable) (nothing _)
      | error e =>
        obtain ⟨defect, rfl⟩ := RsaKeyring.keys_of_load usable
        rw [usable] at ran
        exact ⟨_, log, ran, .key described usable⟩
    · have nothing := not_exists.1 described
      obtain ⟨defect, ran⟩ := Identity.run_load_of_not nothing
      refine ⟨_, w.log, ?_, .identity defect present nothing⟩
      unfold openSession
      rw [World.run_bind_of_ok (w.run_isFile _), present]
      exact World.run_bind_of_error ran

/-- A client that cannot start opens no line and says what is amiss. -/
theorem watch_run_amiss (idle : ¬ ∃ job s, Starts w.disk config ring job s) :
    ∃ e log, w.watch [] (run config ring) = (.error e, [], w.talked w.line log) ∧
      Amiss w.disk config ring e := by
  by_cases described : ∃ job, w.disk.Describes config.jobPath Job.parse job
  · obtain ⟨job, described⟩ := described
    obtain ⟨e, log, unopened, amiss⟩ := run_openSession_amiss job fun s opening =>
      idle ⟨job, s, described, opening⟩
    exact ⟨e, log, watch_run_of_unopened (Job.run_read described) unopened, amiss⟩
  · have nothing := not_exists.1 described
    obtain ⟨defect, unread⟩ := Job.run_read_of_not nothing
    exact ⟨_, w.log, watch_run_of_unread unread, .job defect nothing⟩

end

/-! ## The line is opened once all is set up -/

/-- A client does not contact its server before all is set up. For every disk and every
configuration, a run dials if and only if the client can start, and it dials the server of its job. A
run of a client that cannot start opens no line, ends in an error that says what is amiss, and changes
no file, and neither does one whose server cannot be reached. Any other run is the backup of the
session that the client starts with, on a line that was opened for it and is closed once, when the
backup is over, whatever came of it; the run ends as the backup did. -/
theorem run_refuses_bad_setup (w : World σ) (config : ClientConfig) (ring : RsaKeyring) :
    ∃ outcome contacts w', w.watch [] (run config ring) = (outcome, contacts, w') ∧
      w.run (run config ring) = (outcome, w') ∧
      (∀ host port, .dialed host port ∈ contacts ↔
        ∃ job s, Starts w.disk config ring job s ∧ job.host = host ∧ job.port = port) ∧
      ((¬ ∃ job s, Starts w.disk config ring job s) →
        contacts = [] ∧ (∃ e, outcome = .error e ∧ Amiss w.disk config ring e) ∧
          w'.disk = w.disk ∧ w'.line = w.line) ∧
      ∀ job s, Starts w.disk config ring job s →
        (∀ fault, w.network = .error fault →
          contacts = [.dialed job.host job.port] ∧ outcome = .error (.line fault) ∧
            w'.disk = w.disk) ∧
        ∀ conditions, w.network = .ok conditions → ∃ log log' s' w₁,
          (w.talked (w.line.connect conditions) log).conduct s
            (backup s!"{job.host}:{job.port}" job.file config.upload) = (outcome, s', w₁) ∧
          contacts = [.dialed job.host job.port, .hungUp] ∧
            w' = w₁.talked w₁.line.close.2 log' := by
  rcases watched : w.watch [] (run config ring) with ⟨outcome, contacts, w'⟩
  have dialed_iff {job s} (starts : Starts w.disk config ring job s) (host port) :
      .dialed host port ∈ contacts ↔ job.host = host ∧ job.port = port := by
    have dialed_iff := starts.dialed_iff host port
    rwa [watched] at dialed_iff
  refine ⟨outcome, contacts, w', rfl, ?_, ?_, ?_, ?_⟩
  · rw [World.watch_of_does (Watched.does_kept.run config ring), watched]
  · intro host port
    constructor
    · intro dialed
      by_cases started : ∃ job s, Starts w.disk config ring job s
      · obtain ⟨job, s, starts⟩ := started
        exact ⟨job, s, starts, (dialed_iff starts host port).1 dialed⟩
      · obtain ⟨e, log, refused, -⟩ := watch_run_amiss started
        rw [watched] at refused
        cases refused
        cases dialed
    · rintro ⟨job, s, starts, same⟩
      exact (dialed_iff starts host port).2 same
  · intro idle
    obtain ⟨e, log, refused, amiss⟩ := watch_run_amiss idle
    rw [watched] at refused
    cases refused
    exact ⟨rfl, ⟨e, rfl, amiss⟩, rfl, rfl⟩
  · intro job s starts
    obtain ⟨log, opened⟩ := starts.opening.run
    have read := Job.run_read starts.described
    constructor
    · intro fault unreachable
      have ended := watch_run_of_unreachable read opened unreachable
      rw [watched] at ended
      cases ended
      exact ⟨rfl, rfl, rfl⟩
    · intro conditions reachable
      obtain ⟨log', ended⟩ := watch_run_of_backup read opened reachable rfl
      rw [watched] at ended
      cases ended
      exact ⟨_, log', _, _, rfl, rfl, rfl⟩

/-! ## A new client, one that is known, and one with half an id -/

/-- A job of alice and nothing else. -/
def newcomerSite : World Script :=
  { disk :=
      { entries := [([Utf8.encode "transfer.info"], .file 0)]
        contents := [(Utf8.encode "localhost\nalice\nnotes\n").toArray] }
    line := { server := {} }
    network := .ok {} }

/-- The same, with a file for the identity. -/
def identitySite (content : String) : World Script :=
  { newcomerSite with
    disk :=
      { entries := ([Utf8.encode "me.info"], .file 1) :: newcomerSite.disk.entries
        contents := newcomerSite.disk.contents ++ [(Utf8.encode content).toArray] } }

/-- An identity with a key of two small primes. -/
def bob : Identity :=
  ⟨"bob", editedIdentity.clientId, Text.Base64.encode (RsaKeyring.smallKey.written 0)⟩

theorem starts_bob : Starts (identitySite bob.render).disk {} smallKeyring
    ⟨"localhost", 1256, "alice", .ofText "notes"⟩
    { name := "bob", clientId := bob.clientId, key := none, phase := .hasIdentity
      keyring := { smallKeyring with key := some RsaKeyring.smallKey }
      store := .ofText "me.info" } := by
  have accepted : RsaKeyring.smallKey.isSound = true := by decide
  have fits := Rsa.PrivateKey.written_fits_of_own (.of_isSound accepted)
    (show 0 < RsaKeyring.smallKey.p by decide) (by decide)
  have named : IsLine bob.name := .of_solid (by decide) (by unfold bob; simp; decide)
  have keyed : IsLine bob.privateKey := Text.Base64.isLine_encode (List.cons_ne_nil _ _)
  have loaded := RsaKeyring.load_encode smallKeyring (Rsa.PrivateKey.decode?_written accepted fits)
  have described : (identitySite bob.render).disk.Describes (ClientConfig.identityPath {})
      (Identity.parse (ClientConfig.identityPath {}).text) bob :=
    ⟨_, rfl, Identity.parse_render _ named keyed⟩
  exact ⟨⟨_, rfl, rfl⟩, Opening.of_describes (i := bob) _ rfl described loaded⟩

theorem idle_corrupt (ring : RsaKeyring) :
    ¬ ∃ job s, Starts (identitySite "alice\n2a2a\nAAAA\n").disk {} ring job s := by
  rintro ⟨job, s, -, opening⟩
  cases opening with
  | new absent => cases absent
  | known present holds named numbered valid keyed usable =>
    cases Utf8.eq_of_encode_eq (Except.ok.inj holds)
    have short : Job.line? (lines "alice\n2a2a\nAAAA\n") 1 = some "2a2a" := rfl
    rw [Job.line?_eq_some_iff.2 numbered] at short
    cases short
    cases valid

/-- The new client connects, and so does the known one; the third one does not register in its
place. -/
theorem run_refuses_bad_setup_bob :
    (newcomerSite.watch [] (run {} smallKeyring)).2.1 = [.dialed "localhost" 1256, .hungUp] ∧
    ((identitySite bob.render).watch [] (run {} smallKeyring)).2.1 =
      [.dialed "localhost" 1256, .hungUp] ∧
    ∃ e w, (identitySite "alice\n2a2a\nAAAA\n").watch [] (run {} smallKeyring) = (.error e, [], w) ∧
      w.disk = (identitySite "alice\n2a2a\nAAAA\n").disk := by
  obtain ⟨_, _, _, watched, -, -, -, started⟩ := run_refuses_bad_setup newcomerSite {} smallKeyring
  obtain ⟨-, connected⟩ := started _ _ ⟨⟨_, rfl, rfl⟩, .new rfl⟩
  obtain ⟨_, _, _, _, -, once, -⟩ := connected {} rfl
  obtain ⟨_, _, _, watched', -, -, -, started'⟩ :=
    run_refuses_bad_setup (identitySite bob.render) {} smallKeyring
  obtain ⟨-, connected'⟩ := started' _ _ starts_bob
  obtain ⟨_, _, _, _, -, once', -⟩ := connected' {} rfl
  obtain ⟨_, _, w, watched'', -, -, refused, -⟩ :=
    run_refuses_bad_setup (identitySite "alice\n2a2a\nAAAA\n") {} smallKeyring
  obtain ⟨rfl, ⟨e, rfl, -⟩, disk, -⟩ := refused (idle_corrupt smallKeyring)
  rw [watched, watched']
  exact ⟨once, once', e, w, watched'', disk⟩

end Client

end EncryptedBackup
