/-
Clients that come back. The first run of a client registers and saves an identity; every later run
reads it back and reconnects under it, whatever keyring it starts with, as long as that can restore
the saved key (`registers_once`).
-/
import EncryptedBackup.Proofs.Client.Opening
import EncryptedBackup.Proofs.Handshake.Admission
import EncryptedBackup.Proofs.Upload.Delivery

namespace EncryptedBackup

variable {κ σ : Type}

/-! ## Runs of a client -/

/-- Closing a line leaves its server and its frames. -/
theorem Line.close_spec (l : Line σ) : l.close.2.server = l.server ∧ l.close.2.taken = l.taken := by
  unfold close
  split
  · exact ⟨rfl, rfl⟩
  · exact ⟨rfl, rfl⟩

namespace Client

variable [Keyring κ] [Server σ]

/-- What comes of runs with these keyrings, one after the other, and what each of them sent. -/
def runs (config : ClientConfig) (w : World σ) :
    List κ → List (Except Error Report × List Frame) × World σ
  | [] => ([], w)
  | ring :: rings =>
    let (outcome, w') := w.run (run config ring)
    let (later, w'') := runs config w' rings
    ((outcome, w.line.since w'.line) :: later, w'')

/-- A backup is an upload once a session is established. -/
theorem conduct_backup {w w' : World σ} {s s' : Session κ} {peer : String} (path : Path)
    (options : UploadOptions) (established : w.conduct s (Handshake.establish peer) = (.ok (), s', w')) :
    w.conduct s (backup peer path options) =
      ((w'.run (Upload.sendFile s' path options)).1, s',
        (w'.run (Upload.sendFile s' path options)).2) := by
  unfold backup
  rw [World.conduct_bind_of_ok established]
  exact World.conduct_bind_of_ok (World.conduct_get ..)

end Client

/-! ## What has to be there -/

/-- A job on disk, and a file that it names and that can be sent. -/
structure Prepared (d : Disk) (config : ClientConfig) (job : Job) (fileName : String)
    (content : Bytes) : Prop where
  sound : d.Sound
  described : ∃ bytes text, d.read config.jobPath = .ok bytes ∧ Utf8.decode? bytes = some text ∧
    Job.parse text = .ok job
  name_short : (Utf8.encode job.name).length ≤ 254
  stored : d.read job.file = .ok content
  named : job.file.fileName?.map Utf8.lossy = some fileName
  fileName_short : (Utf8.encode fileName).length ≤ 254
  positive : 0 < config.upload.sliceSize
  bounded : config.upload.sliceSize ≤ maxSlice
  countable : sliceCount config.upload.sliceSize content.length ≤ 65535

/-- A frame of an upload that is confirmed at the first attempt. -/
def Frame.Uploads (id : ClientId) (f : Frame) : Prop :=
  f.header.clientId = id ∧ (f.header.code = RequestCode.sendFile.number ∨
    f.header.code = RequestCode.checksumMatches.number)

/-- The report of an upload that is confirmed at the first attempt; the clock stands still. -/
def Client.report (config : ClientConfig) (fileName : String) (content : Bytes) : Report :=
  { fileName, bytes := content.length
    packets := .ofNat (sliceCount config.upload.sliceSize content.length), attempts := 1
    checksum := checksum content, elapsed := .ofNanos 0 }

theorem Sendable.requests_upload [Keyring κ] {session : Session κ} {disk : Disk} {path : Path}
    {size : Nat} (file : Sendable session disk path size) :
    ∀ f ∈ file.requests 0 .checksumMatches, f.Uploads session.clientId := by
  intro f mem
  unfold requests at mem
  simp only [List.replicate_zero, List.flatten_nil, List.nil_append, List.mem_append,
    List.mem_singleton] at mem
  rcases mem with mem | rfl
  · obtain ⟨i, -, rfl⟩ := List.mem_map.1 mem
    exact ⟨rfl, .inl rfl⟩
  · exact ⟨rfl, .inr rfl⟩

namespace Prepared

variable [Keyring κ] {d : Disk} {config : ClientConfig} {job : Job} {fileName : String}
  {content : Bytes}

theorem run_read [Server σ] {w : World σ} (prepared : Prepared w.disk config job fileName content) :
    w.run (Job.read config.jobPath) = (.ok job, w) := by
  obtain ⟨bytes, text, stored, decoded, parsed⟩ := prepared.described
  rw [Utf8.decode?_eq_some_iff.1 decoded] at stored
  exact Job.run_read ⟨text, stored, parsed⟩

theorem isLine_name (prepared : Prepared d config job fileName content) : Text.IsLine job.name := by
  obtain ⟨_, _, -, -, parsed⟩ := prepared.described
  exact Job.isLine_name parsed

/-- All is still there on a disk that has gained a file. -/
theorem of_keeps (prepared : Prepared d config job fileName content) {d' : Disk} (sound : d'.Sound)
    (keeps : ∀ {q : Path} {n : Nat}, d.find q = .ok (.file n) →
      d'.find q = .ok (.file n) ∧ d'.content n = d.content n) :
    Prepared d' config job fileName content := by
  have reads {q : Path} {bs : Bytes} (read : d.read q = .ok bs) : d'.read q = .ok bs := by
    obtain ⟨n, found, rfl⟩ := Disk.find_of_read read
    obtain ⟨found', same⟩ := keeps found
    rw [Disk.read_of_find found', same]
  obtain ⟨bytes, text, stored, described⟩ := prepared.described
  exact { prepared with
    sound := sound
    described := ⟨bytes, text, reads stored, described⟩
    stored := reads prepared.stored }

/-- The file goes to a server that shares the key and misreports nothing. -/
theorem run_upload {w : World Archive} (prepared : Prepared w.disk config job fileName content)
    {s : Session κ} {key : SessionKey}
    (aes : ∀ bs, Keyring.encrypt s.keyring key bs = .ok (key.encrypt bs)) (held : s.key = some key)
    (steady : w.line.Steady) (quiet : w.line.arriving = [])
    (shared : w.line.server.key = some key) (empty : w.line.server.collected = [])
    (honest : w.line.server.misreports = 0) :
    ∃ (l : Line Archive) (log : List Event) (uploads : List Frame),
      w.run (Upload.sendFile s job.file config.upload) =
        (.ok (Client.report config fileName content), w.talked l log) ∧
      l.taken = uploads.reverse ++ w.line.taken ∧ (∀ f ∈ uploads, f.Uploads s.clientId) ∧
      l.server = { w.line.server with
        files := w.line.server.files ++ [(fileName, content)], collected := []
        misreports := 0 } := by
  obtain ⟨number, found, rfl⟩ := Disk.find_of_read prepared.stored
  let file : Sendable s w.disk job.file config.upload.sliceSize :=
    { key, held, name := fileName, named := prepared.named
      short := Nat.lt_succ_of_le prepared.fileName_short, number, found
      positive := prepared.positive, bounded := prepared.bounded, countable := prepared.countable
      ciphertext := key.encrypt, encrypts := fun slice _ => aes slice
      fits := fun slice mem =>
        Sendable.fits_of_le prepared.bounded mem (key.encrypt_length_le slice) }
  obtain ⟨l, log, ran, taken, server⟩ := file.run_sendFile_kept (fun _ _ => rfl)
    ⟨steady, quiet, shared, empty, honest⟩
  exact ⟨l, log, _, ran, taken, file.requests_upload, server⟩

/-- A run that establishes a session sends the file. -/
theorem run_client (s' : Session κ) (requests : List Frame) (a : Archive) {w : World Archive}
    {ring : κ} {conditions : Conditions} {d : Disk} {s : Session κ} {key : SessionKey}
    {log : List Event} (prepared : Prepared w.disk config job fileName content)
    (prepared' : Prepared d config job fileName content)
    (aes : ∀ (ring : κ) key bs, Keyring.encrypt ring key bs = .ok (key.encrypt bs))
    (opened : w.run (Client.openSession job config ring) = (.ok s, w.talked w.line log))
    (dialed : w.network = .ok conditions) (held : s'.key = some key)
    (established : ∀ peer log, ∃ (l : Line Archive) (log' : List Event),
      (w.talked (w.line.connect conditions) log).conduct s (Handshake.establish peer) =
        (.ok (), s', { w with disk := d, line := l, log := log' }) ∧
      l.Steady ∧ l.arriving = [] ∧ l.taken = requests.reverse ++ w.line.taken ∧ l.server = a)
    (shared : a.key = some key) (empty : a.collected = []) (honest : a.misreports = 0) :
    ∃ (w' : World Archive) (uploads : List Frame),
      w.run (Client.run config ring) = (.ok (Client.report config fileName content), w') ∧
      w.line.since w'.line = requests ++ uploads ∧ (∀ f ∈ uploads, f.Uploads s'.clientId) ∧
      w'.disk = d ∧ w'.network = w.network ∧
      w'.line.server = { a with
        files := a.files ++ [(fileName, content)], collected := [], misreports := 0 } := by
  obtain ⟨l, log₁, ran₁, steady, quiet, taken₁, server₁⟩ :=
    established s!"{job.host}:{job.port}" (.connected s!"{job.host}:{job.port}" :: log)
  obtain ⟨l', log₂, uploads, ran₂, taken₂, codes, server₂⟩ := prepared'.run_upload (s := s')
    (w := { w with disk := d, line := l, log := log₁ }) (aes _ key) held steady quiet
    (by rw [← shared, ← server₁]) (by rw [← empty, ← server₁]) (by rw [← honest, ← server₁])
  have backed := Client.conduct_backup job.file config.upload ran₁
  rw [ran₂] at backed
  obtain ⟨log₃, ran⟩ := Client.run_of_backup prepared.run_read opened dialed backed
  obtain ⟨server₃, taken₃⟩ := l'.close_spec
  refine ⟨_, uploads, ran, Line.since_of_taken ?_, codes, rfl, rfl, ?_⟩
  · rw [World.talked_line, World.talked_line, taken₃, taken₂, taken₁]
    simp
  · rw [World.talked_line, World.talked_line, server₃, server₂, server₁]

end Prepared

/-! ## The first run and those that follow -/

variable [Keyring κ]

/-- A keyring makes a pair whose private half can be saved on a line of its own, and which unwraps
what a server wraps for its public half. -/
structure Archive.Pairs (a : Archive) (ring : κ) (field : Bytes) (privateKey : String) : Prop where
  made : ∃ made, Keyring.generate ring = (.ok field, made) ∧
    Keyring.save made = .ok privateKey ∧ a.Unwraps field made
  full : field.length = Wire.publicKeyWidth
  line : Text.IsLine privateKey

/-- With the real keyring only decryption is in question: a key that it makes fills its field, and
what it saves stands on a line of its own. -/
theorem Archive.Pairs.ofRsa {a : Archive} {ring made : RsaKeyring} {field : Bytes}
    {privateKey : String} (generated : Keyring.generate ring = (.ok field, made))
    (saved : Keyring.save made = .ok privateKey) (unwraps : a.Unwraps field made) :
    a.Pairs ring field privateKey :=
  ⟨⟨made, generated, saved, unwraps⟩, RsaKeyring.length_of_generate generated,
    RsaKeyring.isLine_of_save saved⟩

/-- A keyring restores the saved half of a pair. -/
def Archive.Restores (a : Archive) (field : Bytes) (privateKey : String) (ring : κ) : Prop :=
  ∃ loaded, Keyring.load ring privateKey = .ok loaded ∧ a.Unwraps field loaded

/-- What a client and its server have between two runs. -/
structure Acquainted (w : World Archive) (config : ClientConfig) (job : Job) (fileName : String)
    (content : Bytes) (conditions : Conditions) (id : ClientId) (field : Bytes)
    (privateKey : String) : Prop where
  prepared : Prepared w.disk config job fileName content
  present : w.disk.isFile config.identityPath = true
  saved : w.disk.read config.identityPath =
    .ok (Utf8.encode (Identity.mk job.name id privateKey).render)
  line : Text.IsLine privateKey
  dialed : w.network = .ok conditions
  known : w.line.server.clients.lookup id = some field
  honest : w.line.server.misreports = 0

section

variable {w : World Archive} {config : ClientConfig} {job : Job} {fileName : String} {content : Bytes}
  {conditions : Conditions} {ring : κ} {field : Bytes} {privateKey : String}

/-- The first run registers. -/
theorem Prepared.first (prepared : Prepared w.disk config job fileName content)
    (absent : w.disk.isFile config.identityPath = false)
    (writable : ∃ d, w.disk.write config.identityPath [] = .ok d)
    (dialed : w.network = .ok conditions) (unbroken : conditions.breaksAfter = none)
    (honest : w.line.server.misreports = 0)
    (aes : ∀ (ring : κ) key bs, Keyring.encrypt ring key bs = .ok (key.encrypt bs))
    (pairs : w.line.server.Pairs ring field privateKey) :
    let id := Archive.idOf (w.line.server.assigned + 1)
    ∃ (w' : World Archive) (uploads : List Frame),
      w.run (Client.run config ring) = (.ok (Client.report config fileName content), w') ∧
      w.line.since w'.line =
        .plain .unset .register job.name :: .publicKey id job.name field :: uploads ∧
      (∀ f ∈ uploads, f.Uploads id) ∧
      Acquainted w' config job fileName content conditions id field privateKey ∧
      w'.line.server.wrap = w.line.server.wrap ∧
      w'.line.server.sessionKeys = w.line.server.sessionKeys ∧
      w'.line.server.files = w.line.server.files ++ [(fileName, content)] := by
  intro id
  obtain ⟨⟨made, generated, saved, unwraps⟩, full, line⟩ := pairs
  obtain ⟨_, writable⟩ := writable
  obtain ⟨d, written, sound, present, read, keeps⟩ :=
    (Disk.fresh_of_write absent writable).exists_write prepared.sound
      (Utf8.encode (Identity.mk job.name id privateKey).render)
  have prepared' := prepared.of_keeps sound keeps
  have filed : Session.file { Session.fresh job.name made config.identityPath with clientId := id }
      w.disk = .ok d := by
    unfold Session.file Session.fresh
    simp only [saved, bind, Except.bind, written]
    rfl
  let a : Archive := { w.line.server.accept with
    assigned := w.line.server.assigned + 1, clients := (id, field) :: w.line.server.clients
    key := some w.line.server.nextKey, exchanges := w.line.server.exchanges + 1 }
  obtain ⟨w', uploads, ran, since, codes, disk, network, server⟩ := Prepared.run_client
    { Session.fresh job.name made config.identityPath with
      clientId := id, key := some w.line.server.nextKey, phase := .registered }
    [.plain .unset .register job.name, .publicKey id job.name field] a prepared prepared' aes
    (Client.run_openSession_new _ _ absent) dialed rfl
    (fun peer log => by
      obtain ⟨l, log', ran, steady, quiet, taken, server⟩ :=
        Handshake.conduct_register_archive (w := w.talked (w.line.connect conditions) log)
          (s := .fresh job.name ring config.identityPath) peer ⟨rfl, unbroken, rfl⟩ rfl
          (Nat.lt_succ_of_le prepared.name_short) generated full
          ⟨unwraps.unwrap_eq, unwraps.fits⟩ (rfl : id = _) filed
      refine ⟨l, log', ?_, steady, quiet, taken, server⟩
      rw [Handshake.conduct_establish, if_neg nofun]
      exact ran)
    rfl rfl honest
  subst disk
  refine ⟨w', uploads, ran, since, codes, ⟨prepared', present, read, line, ?_, ?_, ?_⟩, ?_⟩
  · rw [network, dialed]
  · rw [server]
    exact List.lookup_cons_self
  · rw [server]
  · rw [server]
    exact ⟨rfl, rfl, rfl⟩

/-- What a server wraps depends on how it wraps and on its keys. -/
theorem Archive.Unwraps.congr {a b : Archive} {loaded : κ} (wrap : b.wrap = a.wrap)
    (sessionKeys : b.sessionKeys = a.sessionKeys) (unwraps : a.Unwraps field loaded) :
    b.Unwraps field loaded := by
  refine ⟨fun n => ?_, fun n => ?_⟩
  · rw [wrap, sessionKeys]
    exact unwraps.unwrap_eq n
  · rw [wrap, sessionKeys]
    exact unwraps.fits n

/-- A later run reconnects and leaves the disk alone. -/
theorem Acquainted.again {id : ClientId} (unbroken : conditions.breaksAfter = none)
    (acquainted : Acquainted w config job fileName content conditions id field privateKey)
    (aes : ∀ (ring : κ) key bs, Keyring.encrypt ring key bs = .ok (key.encrypt bs))
    (restores : w.line.server.Restores field privateKey ring) :
    ∃ (w' : World Archive) (uploads : List Frame),
      w.run (Client.run config ring) = (.ok (Client.report config fileName content), w') ∧
      w.line.since w'.line = .plain id .reconnect job.name :: uploads ∧
      (∀ f ∈ uploads, f.Uploads id) ∧ w'.disk = w.disk ∧
      Acquainted w' config job fileName content conditions id field privateKey ∧
      w'.line.server.wrap = w.line.server.wrap ∧
      w'.line.server.sessionKeys = w.line.server.sessionKeys ∧
      w'.line.server.files = w.line.server.files ++ [(fileName, content)] := by
  obtain ⟨prepared, present, saved, line, dialed, known, honest⟩ := acquainted
  obtain ⟨loaded, restored, unwraps⟩ := restores
  obtain ⟨log, opened⟩ := Client.run_openSession_known ring job present
    ⟨_, saved, Identity.parse_render _ prepared.isLine_name line⟩
  unfold Session.resume at opened
  rw [restored] at opened
  obtain ⟨w', uploads, ran, since, codes, disk, network, server⟩ := Prepared.run_client
    { Session.fresh job.name loaded config.identityPath with
      clientId := id, key := some w.line.server.nextKey, phase := .connected }
    [.plain id .reconnect job.name] w.line.server.accept.exchanged prepared prepared aes opened
    dialed rfl
    (fun peer log => by
      obtain ⟨l, log', ran, steady, quiet, taken, server⟩ :=
        Handshake.conduct_reconnect_archive (w := w.talked (w.line.connect conditions) log)
          (s := { Session.fresh job.name loaded config.identityPath with
                  clientId := id, phase := .hasIdentity }) peer ⟨rfl, unbroken, rfl⟩ rfl
          (Nat.lt_succ_of_le prepared.name_short) known ⟨unwraps.unwrap_eq, unwraps.fits⟩
      refine ⟨l, log', ?_, steady, quiet, taken, server⟩
      rw [Handshake.conduct_establish, if_pos rfl]
      exact ran)
    rfl rfl honest
  rw [← disk] at prepared present saved
  refine ⟨w', uploads, ran, since, codes, disk, ⟨prepared, present, saved, line, ?_, ?_, ?_⟩, ?_⟩
  · rw [network, dialed]
  · rw [server]
    exact known
  · rw [server]
  · rw [server]
    exact ⟨rfl, rfl, rfl⟩

/-- All later runs do. -/
theorem Acquainted.runs {id : ClientId} (unbroken : conditions.breaksAfter = none)
    (aes : ∀ (ring : κ) key bs, Keyring.encrypt ring key bs = .ok (key.encrypt bs)) :
    ∀ (rings : List κ) {w : World Archive},
    Acquainted w config job fileName content conditions id field privateKey →
    (∀ ring ∈ rings, w.line.server.Restores field privateKey ring) →
    ∃ (records : List (Except Error Report × List Frame)) (w' : World Archive),
      Client.runs config w rings = (records, w') ∧ records.length = rings.length ∧
      (∀ x ∈ records, x.1 = .ok (Client.report config fileName content) ∧
        ∃ uploads, x.2 = .plain id .reconnect job.name :: uploads ∧ ∀ f ∈ uploads, f.Uploads id) ∧
      w'.disk = w.disk ∧ w'.line.server.files =
        w.line.server.files ++ List.replicate rings.length (fileName, content)
  | [], w, _, _ => ⟨[], w, rfl, rfl, nofun, rfl, (List.append_nil _).symm⟩
  | ring :: rings, w, acquainted, restores => by
    obtain ⟨w₁, uploads, ran, since, codes, disk₁, acquainted₁, wrap, sessionKeys, files₁⟩ :=
      acquainted.again unbroken aes (restores ring List.mem_cons_self)
    obtain ⟨records, w₂, later, length, each, disk₂, files₂⟩ :=
      Acquainted.runs unbroken aes rings acquainted₁ fun next mem => by
        obtain ⟨loaded, restored, unwraps⟩ := restores next (List.mem_cons_of_mem ring mem)
        exact ⟨loaded, restored, unwraps.congr wrap sessionKeys⟩
    refine ⟨(.ok (Client.report config fileName content), .plain id .reconnect job.name :: uploads) ::
      records, w₂, ?_, congrArg (· + 1) length, ?_, disk₂.trans disk₁, ?_⟩
    · rw [Client.runs, ran]
      simp only [later, since]
    · rintro x (_ | ⟨_, mem⟩)
      · exact ⟨rfl, uploads, rfl, codes⟩
      · exact each x mem
    · rw [files₂, files₁, List.append_assoc, List.length_cons, List.replicate_succ]
      rfl

end

/-- Register once, reconnect ever after. The first run registers, sends a public key and succeeds.
Each of any number of later runs succeeds as well; it sends one reconnection, under the id that was
assigned and the same name, before the file, and leaves the disk and with it the identity as they
are. The server ends with a copy of the file for each run. -/
theorem registers_once {w : World Archive} {config : ClientConfig} {job : Job} {fileName : String}
    {content : Bytes} {conditions : Conditions} {ring : κ} {field : Bytes} {privateKey : String}
    (prepared : Prepared w.disk config job fileName content)
    (absent : w.disk.isFile config.identityPath = false)
    (writable : ∃ d, w.disk.write config.identityPath [] = .ok d)
    (dialed : w.network = .ok conditions) (unbroken : conditions.breaksAfter = none)
    (honest : w.line.server.misreports = 0)
    (aes : ∀ (ring : κ) key bs, Keyring.encrypt ring key bs = .ok (key.encrypt bs))
    (pairs : w.line.server.Pairs ring field privateKey) (rings : List κ)
    (restores : ∀ ring ∈ rings, w.line.server.Restores field privateKey ring) :
    let id := Archive.idOf (w.line.server.assigned + 1)
    let report := Client.report config fileName content
    ∃ (w₁ w₂ : World Archive) (uploads : List Frame)
      (records : List (Except Error Report × List Frame)),
      w.run (Client.run config ring) = (.ok report, w₁) ∧
      w.line.since w₁.line =
        .plain .unset .register job.name :: .publicKey id job.name field :: uploads ∧
      (∀ f ∈ uploads, f.Uploads id) ∧
      w₁.disk.read config.identityPath =
        .ok (Utf8.encode (Identity.mk job.name id privateKey).render) ∧
      Client.runs config w₁ rings = (records, w₂) ∧ records.length = rings.length ∧
      (∀ x ∈ records, x.1 = .ok report ∧
        ∃ uploads, x.2 = .plain id .reconnect job.name :: uploads ∧ ∀ f ∈ uploads, f.Uploads id) ∧
      w₂.disk = w₁.disk ∧ w₂.line.server.files =
        w.line.server.files ++ List.replicate (rings.length + 1) (fileName, content) := by
  intro id report
  obtain ⟨w₁, uploads, ran, since, codes, acquainted, wrap, sessionKeys, files₁⟩ :=
    prepared.first absent writable dialed unbroken honest aes pairs
  obtain ⟨records, w₂, later, length, each, disk, files₂⟩ :=
    Acquainted.runs unbroken aes rings acquainted fun next mem => by
      obtain ⟨loaded, restored, unwraps⟩ := restores next mem
      exact ⟨loaded, restored, unwraps.congr wrap sessionKeys⟩
  refine ⟨w₁, w₂, uploads, records, ran, since, codes, acquainted.saved, later, length, each, disk,
    ?_⟩
  rw [files₂, files₁, List.append_assoc, List.replicate_succ]
  rfl

/-! ## A client that comes back twice -/

/-- A key of two large primes. -/
def sampleRsaKey : Rsa.PrivateKey :=
  (Rsa.keyOf? (capacity 64 - 569) (capacity 64 - 875)).getD ⟨0, 0, 0, 0, 0⟩

/-- A keyring that will make this key. -/
def sampleKeyring : PresetKeyring :=
  { ring := { source := { seed := [] } }
    privateText := Text.Base64.encode (sampleRsaKey.encode?.getD [])
    publicField := sampleRsaKey.toPublic.encode }

/-- A session key encrypted to a public key. -/
def sampleWrap (field : Bytes) (key : SessionKey) : Bytes :=
  (do Oaep.encrypt? (← Rsa.PublicKey.decode? field) (List.replicate Sha1.length 5) key.bytes).getD []

/-- A job for three bytes of notes, and a server that has kept nothing yet. -/
def sampleSite : World Archive :=
  { disk :=
      { entries := [([Utf8.encode "transfer.info"], .file 0), ([Utf8.encode "notes"], .file 1)]
        contents := [(Utf8.encode "localhost\nalice\nnotes\n").toArray, #[1, 2, 3]] }
    line := { server := { wrap := sampleWrap, sessionKeys := fun _ => sampleKey } }
    network := .ok {} }

theorem sampleRsaKey_decode? :
    Rsa.PrivateKey.decode? (sampleRsaKey.encode?.getD []) = some sampleRsaKey := by
  decide +kernel

theorem sampleWrap_decrypt :
    (Oaep.decrypt sampleRsaKey (sampleWrap sampleRsaKey.toPublic.encode sampleKey)).toOption =
      some sampleKey.bytes := by
  decide +kernel

theorem sampleRsaKey_encode? :
    sampleRsaKey.encode? = some (sampleRsaKey.encode?.getD []) := by
  have written : sampleRsaKey.encode?.isSome = true := by decide +kernel
  cases h : sampleRsaKey.encode? with
  | none =>
    rw [h] at written
    cases written
  | some bs => rfl

theorem sampleKeyring_unwraps :
    sampleSite.line.server.Unwraps sampleKeyring.publicField (sampleKeyring.holding sampleRsaKey) where
  unwrap_eq _ := RsaKeyring.unwrap_of_decrypt rfl (ok_of_toOption sampleWrap_decrypt)
  fits _ := by
    show ClientId.length + (sampleWrap sampleRsaKey.toPublic.encode sampleKey).length ≤ _
    decide +kernel

theorem sampleKeyring_pairs :
    sampleSite.line.server.Pairs sampleKeyring sampleKeyring.publicField
      (Text.Base64.encode (sampleRsaKey.encode?.getD [])) where
  made := ⟨sampleKeyring.holding sampleRsaKey,
    PresetKeyring.generate_encode rfl sampleRsaKey_decode?,
    RsaKeyring.save_of_encode? rfl sampleRsaKey_encode?, sampleKeyring_unwraps⟩
  full := by
    show sampleRsaKey.toPublic.encode.length = _
    decide +kernel
  line := RsaKeyring.isLine_of_save
    (RsaKeyring.save_of_encode? (r := (sampleKeyring.holding sampleRsaKey).ring) rfl
      sampleRsaKey_encode?)

theorem sampleKeyring_restores :
    sampleSite.line.server.Restores sampleKeyring.publicField
      (Text.Base64.encode (sampleRsaKey.encode?.getD [])) sampleKeyring :=
  ⟨sampleKeyring.holding sampleRsaKey, PresetKeyring.load_encode _ sampleRsaKey_decode?,
    sampleKeyring_unwraps⟩

theorem sampleSite_prepared :
    Prepared sampleSite.disk { upload := { sliceSize := 2 } }
      ⟨"localhost", 1256, "alice", .ofText "notes"⟩ "notes" [1, 2, 3] where
  sound := by
    rintro x (_ | ⟨_, _ | ⟨_, ⟨⟩⟩⟩) n ⟨⟩
    · decide
    · decide
  described := ⟨_, _, rfl, Utf8.decode?_encode "localhost\nalice\nnotes\n", by decide +kernel⟩
  name_short := by decide +kernel
  stored := rfl
  named := by decide +kernel
  fileName_short := by decide +kernel
  positive := by decide
  bounded := by decide
  countable := by decide +kernel

/-- Alice registers, and comes back twice. -/
theorem registers_once_alice :
    ∃ (w₁ w₂ : World Archive) (records : List (Except Error Report × List Frame)),
      sampleSite.run (Client.run { upload := { sliceSize := 2 } } sampleKeyring) =
        (.ok (Client.report { upload := { sliceSize := 2 } } "notes" [1, 2, 3]), w₁) ∧
      Client.runs { upload := { sliceSize := 2 } } w₁ [sampleKeyring, sampleKeyring] =
        (records, w₂) ∧
      records.length = 2 ∧ w₂.disk = w₁.disk ∧
      w₂.line.server.files = List.replicate 3 ("notes", [1, 2, 3]) := by
  obtain ⟨w₁, w₂, -, records, first, -, -, -, later, length, -, disk, files⟩ :=
    registers_once sampleSite_prepared rfl ⟨_, rfl⟩ rfl rfl rfl (fun _ _ _ => rfl)
      sampleKeyring_pairs [sampleKeyring, sampleKeyring] (by
        rintro ring (_ | ⟨_, _ | ⟨_, ⟨⟩⟩⟩)
        · exact sampleKeyring_restores
        · exact sampleKeyring_restores)
  exact ⟨w₁, w₂, records, first, later, length, disk, files⟩

end EncryptedBackup
