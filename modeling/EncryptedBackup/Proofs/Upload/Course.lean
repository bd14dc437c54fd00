/-
The course of an upload against any server. Each attempt sends the same packets and hears one
response; a verdict follows if that response carries a checksum, and what comes next depends on how
it compares (`Course`). Every upload of a file that can be sent takes such a course
(`sendFile_course`).
-/
import EncryptedBackup.Keyring.Rsa
import EncryptedBackup.Proofs.Checksum.Reads
import EncryptedBackup.Proofs.Crypto.Cbc
import EncryptedBackup.Proofs.Upload.Slices
import EncryptedBackup.Proofs.Wire.Answers
import EncryptedBackup.Upload

namespace EncryptedBackup

/-! ## Names of files -/

theorem Path.mem_of_mem_cut {b : UInt8} : ∀ {bs current : Bytes} {c : Bytes},
    c ∈ cut current bs → b ∈ c → b ∈ current ∨ b ∈ bs
  | [], current, c, h, hb => by
    obtain rfl := List.mem_singleton.1 h
    exact .inl (List.mem_reverse.1 hb)
  | x :: bs, current, c, h, hb => by
    unfold cut at h
    split at h
    · rcases List.mem_cons.1 h with rfl | h
      · exact .inl (List.mem_reverse.1 hb)
      · rcases mem_of_mem_cut h hb with nil | rest
        · cases nil
        · exact .inr (List.mem_cons_of_mem x rest)
    · rcases mem_of_mem_cut h hb with start | rest
      · rcases List.mem_cons.1 start with rfl | start
        · exact .inr List.mem_cons_self
        · exact .inl start
      · exact .inr (List.mem_cons_of_mem x rest)

/-- The name of a file is made of bytes of its path. -/
theorem Path.mem_of_mem_fileName {p : Path} {name : Bytes} {b : UInt8}
    (named : p.fileName? = some name) (h : b ∈ name) : b ∈ p.bytes := by
  unfold fileName? at named
  split at named
  · rename_i c last
    split at named
    · cases named
    · cases named
      have component := (List.mem_filter.1 (List.mem_of_getLast? last)).1
      rcases mem_of_mem_cut component h with nil | here
      · cases nil
      · exact here
  · cases named

/-- The path of a file that is found has no NUL. -/
theorem Disk.zero_notMem_of_find {d : Disk} {p : Path} {entry : Entry}
    (found : d.find p = .ok entry) : 0 ∉ p.bytes := by
  unfold find place at found
  obtain ⟨place, h, -⟩ := exists_of_bind_ok found
  obtain ⟨_, checked, -⟩ := exists_of_bind_ok h
  unfold checkPath at checked
  split at checked
  · cases checked
  · rename_i h
    simpa using h

/-! ## Files that can be sent -/

/-- A file that a session can send from a disk in slices of a size, with what the session makes of
it. -/
structure Sendable {κ : Type} [Keyring κ] (session : Session κ) (disk : Disk) (path : Path)
    (size : Nat) where
  key : SessionKey
  held : session.key = some key
  name : String
  named : path.fileName?.map Utf8.lossy = some name
  short : (Utf8.encode name).length < Wire.nameWidth
  number : Nat
  found : disk.find path = .ok (.file number)
  positive : 0 < size
  bounded : size ≤ maxSlice
  countable : sliceCount size (disk.content number).length ≤ Upload.maxPackets
  ciphertext : Bytes → Bytes
  encrypts : ∀ slice ∈ slices size (disk.content number),
    Keyring.encrypt session.keyring key slice = .ok (ciphertext slice)
  fits : ∀ slice ∈ slices size (disk.content number),
    Packet.overhead + (ciphertext slice).length ≤ Wire.maxPayload

namespace Sendable

variable {κ : Type} [Keyring κ] {session : Session κ} {disk : Disk} {path : Path} {size : Nat}

/-- A slice that grows by sixteen bytes at most still fits a packet. -/
theorem fits_of_le {size : Nat} (bounded : size ≤ maxSlice) {content slice ciphertext : Bytes}
    (mem : slice ∈ slices size content) (sealed : ciphertext.length ≤ slice.length + 16) :
    Packet.overhead + ciphertext.length ≤ Wire.maxPayload := by
  obtain ⟨i, -, rfl⟩ := List.mem_map.1 mem
  have short := sliceAt_length_le size content i
  simp only [maxSlice, Wire.maxPayload, Packet.overhead, Wire.nameWidth] at bounded ⊢
  omega

/-- Under the real keyring no slice is too long to be sent. -/
def ofRsa (session : Session RsaKeyring) (disk : Disk) (path : Path) (size : Nat)
    (key : SessionKey) (held : session.key = some key) (name : String)
    (named : path.fileName?.map Utf8.lossy = some name)
    (short : (Utf8.encode name).length < Wire.nameWidth) (number : Nat)
    (found : disk.find path = .ok (.file number)) (positive : 0 < size) (bounded : size ≤ maxSlice)
    (countable : sliceCount size (disk.content number).length ≤ Upload.maxPackets) :
    Sendable session disk path size :=
  { key, held, name, named, short, number, found, positive, bounded, countable
    ciphertext := key.encrypt
    encrypts := fun _ _ => rfl
    fits := fun slice mem => fits_of_le bounded mem (key.encrypt_length_le slice) }

/-- The content of the file. -/
def content (file : Sendable session disk path size) : Bytes := disk.content file.number

/-- How many packets the file takes. -/
def count (file : Sendable session disk path size) : Nat := sliceCount size file.content.length

/-- The packet with an index. -/
def packet (file : Sendable session disk path size) (i : Nat) : Packet :=
  let slice := sliceAt size file.content i
  { contentSize := .ofNat (file.ciphertext slice).length, plainSize := .ofNat slice.length
    number := .ofNat (i + 1), total := .ofNat file.count, fileName := file.name
    ciphertext := file.ciphertext slice }

/-- The frames of `left` packets from an index on. -/
def framesFrom (file : Sendable session disk path size) (i left : Nat) : List Frame :=
  (List.range' i left).map fun j => .packet session.clientId (file.packet j)

/-- The frames of all packets, in order. -/
def frames (file : Sendable session disk path size) : List Frame := file.framesFrom 0 file.count

/-- The frame of a verdict. -/
def verdict (file : Sendable session disk path size) (code : RequestCode) : Frame :=
  .plain session.clientId code file.name

/-- A frame brings the packet with an index: it says whose it is, which of how many, and the
lengths of the slice and of its ciphertext. -/
structure Brings (file : Sendable session disk path size) (i : Nat) (f : Frame) (p : Packet) :
    Prop where
  clientId : f.header.clientId = session.clientId
  code : f.header.code = RequestCode.sendFile.number
  decoded : Packet.decode f.payload = .ok p
  number : p.number.toNat = i + 1
  total : p.total.toNat = file.count
  fileName : p.fileName = file.name
  encrypted : Keyring.encrypt session.keyring file.key (sliceAt size file.content i) =
    .ok p.ciphertext
  plainSize : p.plainSize.toNat = (sliceAt size file.content i).length
  contentSize : p.contentSize.toNat = p.ciphertext.length

/-- The checksum of the file. -/
def sum (file : Sendable session disk path size) : UInt32 := checksum file.content

/-- The upload of the file. -/
def upload (file : Sendable session disk path size) (showProgress : Bool) : Upload κ :=
  { keyring := session.keyring, clientId := session.clientId, key := file.key
    fileName := file.name, bytes := file.content.length, packets := .ofNat file.count
    checksum := file.sum, started := 0, showProgress }

/-- What is reported once an attempt is confirmed; the clock stands still. -/
def report (file : Sendable session disk path size) (attempt : Nat) : Report :=
  { fileName := file.name, bytes := file.content.length, packets := .ofNat file.count
    attempts := attempt, checksum := file.sum, elapsed := .ofNanos 0 }

/-! ## The verdict protocol -/

/-- The course of an upload from the given attempt on, with its outcome. -/
inductive Course (file : Sendable session disk path size) :
    (attempt : Nat) → List Turn → Except Error Report → Prop where
  /-- No response: the upload ends without a verdict. -/
  | unheard {attempt : Nat} (e : Error) :
    Course file attempt (file.frames.map .sent ++ [.heard (.error e)]) (.error e)
  /-- A response without a checksum: the upload ends without a verdict. -/
  | uncheckable {attempt : Nat} {r : Response} (other : r.code ≠ .fileReceived) :
    Course file attempt (file.frames.map .sent ++ [.heard (.ok r)])
      (.error (.notCarried r.code.number "checksum"))
  /-- The checksums agree, and any response acknowledges the verdict. -/
  | confirmed {attempt : Nat} {r : Response} (received : r.code = .fileReceived)
    (agree : r.checksum = .ok file.sum) (answer : Except Error Response) :
    Course file attempt
      (file.frames.map .sent ++
        [.heard (.ok r), .sent (file.verdict .checksumMatches), .heard answer])
      (answer.map fun _ => file.report attempt)
  /-- The checksums differ, and the next attempt follows the verdict at once. -/
  | again {attempt : Nat} {r : Response} {theirs : UInt32} {turns : List Turn}
    {outcome : Except Error Report} (received : r.code = .fileReceived)
    (carried : r.checksum = .ok theirs) (differ : theirs ≠ file.sum)
    (early : attempt ≤ Upload.maxResends) (rest : Course file (attempt + 1) turns outcome) :
    Course file attempt
      (file.frames.map .sent ++
        .heard (.ok r) :: .sent (file.verdict .checksumDiffers) :: turns)
      outcome
  /-- The checksums differ for the last time, and any response acknowledges the verdict. -/
  | givenUp {attempt : Nat} {r : Response} {theirs : UInt32} (received : r.code = .fileReceived)
    (carried : r.checksum = .ok theirs) (differ : theirs ≠ file.sum)
    (last : attempt = Upload.maxResends + 1) (answer : Except Error Response) :
    Course file attempt
      (file.frames.map .sent ++
        [.heard (.ok r), .sent (file.verdict .checksumDiffersForGood), .heard answer])
      (answer.bind fun _ => .error (.checksumsDiffer attempt))

/-! ## One request after the other -/

variable {σ : Type} [Server σ] {w : World σ}

theorem count_pos (file : Sendable session disk path size) : 0 < file.count :=
  Nat.lt_of_lt_of_le Nat.zero_lt_one (Nat.le_max_left ..)

theorem frames_length (file : Sendable session disk path size) : file.frames.length = file.count := by
  simp [frames, framesFrom]

theorem mem_slices (file : Sendable session disk path size) {i : Nat} (h : i < file.count) :
    sliceAt size file.content i ∈ slices size (disk.content file.number) :=
  List.mem_map.2 ⟨i, List.mem_range.2 h, rfl⟩

/-- The slice with an index becomes the packet with that index. -/
theorem packetRequest_ok (file : Sendable session disk path size) (showProgress : Bool) {i : Nat}
    (h : i < file.count) : ∃ r,
      (file.upload showProgress).packetRequest (.ofNat (i + 1)) (sliceAt size file.content i) =
        .ok r ∧ r.Writes (.packet session.clientId (file.packet i)) := by
  have encrypted := file.encrypts _ (file.mem_slices h)
  have fits := file.fits _ (file.mem_slices h)
  have plain : (sliceAt size file.content i).length ≤ Wire.maxPayload :=
    Nat.le_trans (sliceAt_length_le ..) (Nat.le_trans file.bounded (by decide))
  have short : (Utf8.encode (file.packet i).fileName).length < Wire.nameWidth := file.short
  obtain ⟨r, made, writes⟩ := Request.packet_writes session.clientId short fits
  have packed : Packet.make (.ofNat (i + 1)) (.ofNat file.count) file.name
      (sliceAt size file.content i).length (file.ciphertext (sliceAt size file.content i)) =
        .ok (file.packet i) := by
    have small : (file.ciphertext (sliceAt size file.content i)).length ≤ Wire.maxPayload := by
      omega
    exact Packet.make_eq_ok _ _ file.short plain small
  refine ⟨r, ?_, writes⟩
  unfold Upload.packetRequest upload
  simp only [encrypted, packed, made, bind, Except.bind]

omit [Keyring κ] in
theorem run_showSent (u : Upload κ) (sent : UInt16) : w.run (u.showSent sent) = (.ok (), w) := by
  unfold Upload.showSent
  split
  · rfl
  · rfl

/-- A verdict is one request. -/
theorem run_tell (file : Sendable session disk path size) (showProgress : Bool) (w : World σ)
    {l : Line σ} (steady : l.Steady) (code : RequestCode) (log : List Event) : ∃ log',
      (w.talked l log).run ((file.upload showProgress).tell code) =
        (.ok (), w.talked (l.give (file.verdict code)) log') := by
  obtain ⟨r, made, writes⟩ := Request.plain_writes session.clientId code file.short
  obtain ⟨log', sent⟩ := World.run_sendRequest (w := w.talked l log) steady.ready writes
  simp only [World.talked_line, steady.refusal] at sent
  refine ⟨log', ?_⟩
  unfold Upload.tell
  rw [show Request.plain (file.upload showProgress).clientId code
    (file.upload showProgress).fileName = .ok r from made,
    World.run_bind_of_ok (World.run_ofExcept _ _)]
  exact sent

/-- An acknowledgement is one response, whatever it is. -/
theorem run_readAcknowledgement (w : World σ) (l : Line σ) (log : List Event) : ∃ log',
    (w.talked l log).run Upload.readAcknowledgement =
      (l.hear.1.map fun _ => (), w.talked l.hear.2 log') := by
  obtain ⟨log', read⟩ := (w.talked l log).run_readResponse
  simp only [World.talked_line, World.talked_talked] at read
  unfold Upload.readAcknowledgement
  cases heard : l.hear.1 with
  | error e =>
    rw [heard] at read
    exact ⟨log', World.run_bind_of_error read⟩
  | ok r =>
    rw [heard] at read
    rw [World.run_bind_of_ok read]
    split
    · exact ⟨_, World.run_log _ _⟩
    · exact ⟨log', rfl⟩

/-- What follows an acknowledged verdict follows if any response is heard. -/
theorem run_verdict {β : Type} (file : Sendable session disk path size) (showProgress : Bool)
    (w : World σ) {l : Line σ} (steady : l.Steady) (code : RequestCode) (log : List Event)
    (next : Act (InWorld σ) β) : ∃ log',
      (w.talked l log).run (do
        (file.upload showProgress).tell code
        Upload.readAcknowledgement
        next) =
      match (l.give (file.verdict code)).hear with
      | (.error e, l') => (.error e, w.talked l' log')
      | (.ok _, l') => (w.talked l' log').run next := by
  obtain ⟨log₁, told⟩ := file.run_tell showProgress w steady code log
  obtain ⟨log₂, read⟩ := run_readAcknowledgement w (l.give (file.verdict code)) log₁
  refine ⟨log₂, ?_⟩
  rw [World.run_bind_of_ok told]
  generalize (l.give (file.verdict code)).hear = heard at read
  obtain ⟨answer, l'⟩ := heard
  cases answer with
  | error e => exact World.run_bind_of_error read
  | ok r => exact World.run_bind_of_ok read

/-- The packets from an index on, one after the other. -/
theorem run_sendSlices (file : Sendable session disk path size) (showProgress : Bool) :
    ∀ (left i : Nat) (w : World σ) (s : Slicer OpenFile), w.disk = disk →
    s.Stands disk file.number size i → i + left = file.count → w.line.Steady →
    ∃ s' : Slicer OpenFile, ∃ l log, s'.Stands disk file.number size file.count ∧
      w.run ((file.upload showProgress).sendSlices left (.ofNat i) s) =
        (.ok (.ofNat file.count, s'), w.talked l log) ∧
      w.line.Plays ((file.framesFrom i left).map .sent) l
  | 0, i, w, s, _, stands, all, _ => by
    obtain rfl : i = file.count := all
    exact ⟨s, w.line, w.log, stands, rfl, rfl⟩
  | left + 1, i, w, s, here, stands, all, steady => by
    have more : i < file.count := by omega
    have enough : i < s.slices := by
      rw [stands.slices]
      exact more
    obtain ⟨s₁, stands₁, next⟩ := Slicer.run_next here stands enough
    obtain ⟨r, made, writes⟩ := file.packetRequest_ok showProgress more
    obtain ⟨log, sent⟩ := World.run_sendRequest steady.ready writes
    rw [steady.refusal] at sent
    obtain ⟨s', l, log', stands', rest, plays⟩ :=
      run_sendSlices file showProgress left (i + 1) (w.talked (w.line.give _) log) s₁ here stands₁
        (by omega) (steady.give _)
    refine ⟨s', l, log', stands', ?_, plays⟩
    -- the loop counts in 16 bits, the slices are counted in full
    have number : UInt16.ofNat i + 1 = .ofNat (i + 1) := by simp
    unfold Upload.sendSlices
    rw [World.run_bind_of_ok next]
    simp only
    rw [World.run_bind_of_ok (World.run_ofExcept _ _)]
    simp only [number]
    unfold content at made
    rw [made, World.run_bind_of_ok (World.run_ofExcept _ _), World.run_bind_of_ok sent,
      World.run_bind_of_ok (run_showSent _ _)]
    exact rest

/-- One attempt: every packet is sent and one response is heard. -/
theorem run_sendAll (file : Sendable session disk path size) (showProgress : Bool) {i : Nat}
    {w : World σ} {s : Slicer OpenFile} (here : w.disk = disk)
    (stands : s.Stands disk file.number size i) (steady : w.line.Steady) :
    ∃ s' : Slicer OpenFile, ∃ l log, s'.Stands disk file.number size file.count ∧
      w.line.Plays (file.frames.map .sent) l ∧
      w.run ((file.upload showProgress).sendAll s) =
        (l.hear.1.bind fun r => r.checksum.map fun theirs => (theirs, s'),
          w.talked l.hear.2 log) := by
  obtain ⟨s₁, stands₁, rewound⟩ := Slicer.run_rewind (w := w) stands
  have packets : s₁.slices = file.count := stands₁.slices
  obtain ⟨s', l, log, stands', sent, plays⟩ := file.run_sendSlices showProgress file.count 0 w s₁
    here stands₁ (by omega) steady
  rw [show UInt16.ofNat 0 = 0 from rfl] at sent
  obtain ⟨log', read⟩ := (w.talked l (.allSent (.ofNat file.count) :: log)).run_readResponse
  refine ⟨s', l, log', stands', plays, ?_⟩
  unfold Upload.sendAll
  rw [World.run_bind_of_ok rewound]
  simp only
  rw [World.run_bind_of_ok (World.run_ofExcept _ _), World.run_bind_of_ok (run_showSent _ _),
    packets, World.run_bind_of_ok sent]
  simp only
  rw [World.run_bind_of_ok (World.run_log _ _)]
  simp only [World.talked_talked, World.talked_line, World.talked_log] at read ⊢
  cases heard : l.hear.1 with
  | error e =>
    rw [heard] at read
    exact World.run_bind_of_error read
  | ok r =>
    rw [heard] at read
    rw [World.run_bind_of_ok read]
    simp only [Except.bind]
    cases carried : r.checksum with
    | error e => exact World.run_bind_of_error (World.run_ofExcept _ _)
    | ok theirs => exact World.run_bind_of_ok (World.run_ofExcept _ _)

/-- An upload takes its course through one attempt, if it does so through those that follow. -/
theorem run_attempt (file : Sendable session disk path size) (showProgress : Bool)
    {resends attempt i : Nat} {w : World σ} {s : Slicer OpenFile} (here : w.disk = disk)
    (stands : s.Stands disk file.number size i) (steady : w.line.Steady)
    (bound : resends + attempt = Upload.maxResends + 1)
    (later : ∀ n, resends = n + 1 → ∀ (w : World σ) (s : Slicer OpenFile), w.disk = disk →
      s.Stands disk file.number size file.count → w.line.Steady →
      ∃ turns outcome l log, Course file (attempt + 1) turns outcome ∧ w.line.Plays turns l ∧
        w.run ((file.upload showProgress).settle n (attempt + 1) s) = (outcome, w.talked l log)) :
    ∃ turns outcome l log, Course file attempt turns outcome ∧ w.line.Plays turns l ∧
      w.run ((file.upload showProgress).settle resends attempt s) = (outcome, w.talked l log) := by
  obtain ⟨s', l, log, stands', plays, sent⟩ := file.run_sendAll showProgress here stands steady
  have steady' : l.hear.2.Steady := (plays.steady _ steady).hear
  unfold Upload.settle
  cases heard : l.hear.1 with
  | error e =>
    rw [heard] at sent
    exact ⟨_, _, _, _, .unheard e, plays.append _ ⟨heard, rfl⟩, World.run_bind_of_error sent⟩
  | ok r =>
    obtain ⟨_, _, decoded⟩ := Line.hear_ok heard
    rw [heard] at sent
    simp only [Except.bind] at sent
    -- whether there is a checksum to compare is a matter of the code alone
    rcases Response.checksum_of_decode decoded with ⟨received, theirs, carried⟩ | ⟨other, refused⟩
    · rw [carried] at sent
      rw [World.run_bind_of_ok sent]
      simp only
      by_cases agree : theirs = (file.upload showProgress).checksum
      · have carried' : r.checksum = .ok file.sum := by rw [carried, agree]; rfl
        rw [if_pos agree]
        obtain ⟨log', told⟩ := file.run_verdict showProgress w steady' .checksumMatches log _
        rw [told]
        rcases answer : (l.hear.2.give (file.verdict .checksumMatches)).hear with ⟨e | r', l'⟩
        · exact ⟨_, _, _, _, .confirmed received carried' (.error e),
            plays.append _ ⟨heard, by rw [answer], by rw [answer]; rfl⟩, rfl⟩
        · exact ⟨_, _, _, _, .confirmed received carried' (.ok r'),
            plays.append _ ⟨heard, by rw [answer], by rw [answer]; rfl⟩, rfl⟩
      · rw [if_neg agree, World.run_bind_of_ok (World.run_log _ _)]
        simp only [World.talked_talked, World.talked_line, World.talked_log]
        cases resends with
        | zero =>
          have last : attempt = Upload.maxResends + 1 := by omega
          obtain ⟨log', told⟩ := file.run_verdict showProgress w steady' .checksumDiffersForGood _ _
          rw [told]
          rcases answer : (l.hear.2.give (file.verdict .checksumDiffersForGood)).hear with
            ⟨e | r', l'⟩
          · exact ⟨_, _, _, _, .givenUp received carried agree last (.error e),
              plays.append _ ⟨heard, by rw [answer], by rw [answer]; rfl⟩, rfl⟩
          · exact ⟨_, _, _, _, .givenUp received carried agree last (.ok r'),
              plays.append _ ⟨heard, by rw [answer], by rw [answer]; rfl⟩, rfl⟩
        | succ resends =>
          -- nothing is heard between this verdict and the first packet of the next attempt
          obtain ⟨log', told⟩ := file.run_tell showProgress w steady' .checksumDiffers _
          obtain ⟨turns, outcome, l', log'', course, plays', settled⟩ := later resends rfl
            (w.talked (l.hear.2.give (file.verdict .checksumDiffers)) log') s' here stands'
            (steady'.give _)
          simp only
          rw [World.run_bind_of_ok told]
          exact ⟨_, _, _, _, .again received carried agree (by omega) course,
            plays.append _ ⟨heard, plays'⟩, settled⟩
    · rw [refused] at sent
      exact ⟨_, _, _, _, .uncheckable other, plays.append _ ⟨heard, rfl⟩,
        World.run_bind_of_error sent⟩

/-- From any attempt on, an upload takes its course. -/
theorem run_settle (file : Sendable session disk path size) (showProgress : Bool) :
    ∀ (resends attempt : Nat) (w : World σ) (s : Slicer OpenFile) (i : Nat), w.disk = disk →
    s.Stands disk file.number size i → w.line.Steady → resends + attempt = Upload.maxResends + 1 →
    ∃ turns outcome l log, Course file attempt turns outcome ∧ w.line.Plays turns l ∧
      w.run ((file.upload showProgress).settle resends attempt s) = (outcome, w.talked l log)
  | 0, _, _, _, _, here, stands, steady, bound =>
    file.run_attempt showProgress here stands steady bound nofun
  | resends + 1, attempt, _, _, _, here, stands, steady, bound => by
    refine file.run_attempt showProgress here stands steady bound ?_
    rintro n same w s here stands steady
    cases same
    exact run_settle file showProgress resends (attempt + 1) w s _ here stands steady (by omega)

/-! ## Whole uploads -/

theorem clean (file : Sendable session disk path size) : 0 ∉ Utf8.encode file.name := by
  have named := file.named
  cases h : path.fileName? with
  | none =>
    rw [h] at named
    cases named
  | some name =>
    rw [h] at named
    have path := Disk.zero_notMem_of_find file.found
    have component : 0 ∉ name := fun zero => path (Path.mem_of_mem_fileName h zero)
    rw [show file.name = Utf8.lossy name from (Option.some.inj named).symm]
    exact Utf8.zero_notMem_encode_lossy component

/-- The frames bring the packets of the file, numbered from one on. -/
theorem frames_bring (file : Sendable session disk path size) {i : Nat} (h : i < file.count) :
    ∃ f p, file.frames[i]? = some f ∧ file.Brings i f p := by
  have countable : file.count ≤ Upload.maxPackets := file.countable
  have bounded := file.bounded
  have slice := sliceAt_length_le size file.content i
  have fits := file.fits _ (file.mem_slices h)
  simp only [Upload.maxPackets, maxSlice, Wire.maxPayload] at countable bounded fits
  refine ⟨.packet session.clientId (file.packet i), file.packet i, ?_, rfl, rfl,
    Packet.decode_packetBody file.short file.clean, ?_, ?_, rfl,
    file.encrypts _ (file.mem_slices h), ?_, ?_⟩
  · unfold frames framesFrom
    simp [h]
  · unfold packet
    simp only [UInt16.toNat_ofNat']
    omega
  · unfold packet
    simp only [UInt16.toNat_ofNat']
    omega
  · unfold packet
    simp only [UInt32.toNat_ofNat']
    omega
  · unfold packet
    simp only [UInt32.toNat_ofNat']
    omega

/-- Everything that can be checked beforehand is in order, so the attempts begin; nothing but the log
is touched before. -/
theorem exists_started (w : World σ) {session : Session κ} {path : Path} {options : UploadOptions}
    (file : Sendable session w.disk path options.sliceSize) :
    ∃ s log, s.Stands w.disk file.number options.sliceSize 0 ∧
      w.run (Upload.sendFile session path options) =
        (w.talked w.line log).run
          ((file.upload options.showProgress).settle Upload.maxResends 1 s) := by
  obtain ⟨s, stands, opened⟩ := Slicer.run_openFile (w := w) rfl file.positive file.bounded file.found
  have summed := run_fileChecksum (w := w) rfl file.found
  have count : s.slices = file.count := stands.slices
  have length : s.length = file.content.length := stands.length
  obtain ⟨raw, h, shown⟩ : ∃ raw, path.fileName? = some raw ∧ Utf8.lossy raw = file.name :=
    Option.map_eq_some_iff.1 file.named
  refine ⟨s, .sendingFile path file.content.length (.ofNat file.count) file.sum :: w.log, stands, ?_⟩
  unfold Upload.sendFile
  simp only [file.held, h, shown]
  rw [Field.checkName_of_lt file.short, World.run_bind_of_ok (World.run_ofExcept _ _),
    World.run_bind_of_ok opened]
  simp only [count, length]
  have countable : ¬ Upload.maxPackets < file.count := Nat.not_lt.2 file.countable
  rw [if_neg countable, World.run_bind_of_ok summed, World.run_bind_of_ok (World.run_log _ _)]
  exact World.run_bind_of_ok (World.run_sure _ _)

/-- On a line that takes all requests, an upload goes through its attempts. -/
theorem run_sendFile (w : World σ) {session : Session κ} {path : Path} {options : UploadOptions}
    (file : Sendable session w.disk path options.sliceSize) (steady : w.line.Steady) :
    ∃ turns outcome l log, file.Course 1 turns outcome ∧ w.line.Plays turns l ∧
      w.run (Upload.sendFile session path options) = (outcome, w.talked l log) := by
  obtain ⟨s, log, stands, started⟩ := file.exists_started
  obtain ⟨turns, outcome, l, log', course, plays, settled⟩ :=
    file.run_settle options.showProgress Upload.maxResends 1 (w.talked w.line log) s 0 rfl stands
      steady rfl
  exact ⟨turns, outcome, l, log', course, plays, started.trans settled⟩

end Sendable

/-- Every upload of a file that can be sent, over a line that takes all requests, takes a course of
the verdict protocol, whatever the server answers. -/
theorem sendFile_course {κ σ : Type} [Keyring κ] [Server σ] (w : World σ) (session : Session κ)
    (path : Path) (options : UploadOptions)
    (file : Sendable session w.disk path options.sliceSize) (steady : w.line.Steady) :
    file.frames.length = file.count ∧
      (∀ i < file.count, ∃ f p, file.frames[i]? = some f ∧ file.Brings i f p) ∧
      ∃ turns outcome l log, file.Course 1 turns outcome ∧ w.line.Plays turns l ∧
        l.taken = (Turn.frames turns).reverse ++ w.line.taken ∧
        w.run (Upload.sendFile session path options) = (outcome, w.talked l log) := by
  obtain ⟨turns, outcome, l, log, course, plays, ran⟩ := file.run_sendFile w steady
  exact ⟨file.frames_length, fun i h => file.frames_bring h, turns, outcome, l, log, course, plays,
    plays.taken, ran⟩

/-! ## Three bytes in two packets -/

/-- A session key. -/
def sampleKey : SessionKey := ⟨List.replicate 32 7, by decide⟩

/-- A session that holds it. -/
def sampleSession : Session RsaKeyring :=
  { Session.fresh "alice" { source := { seed := [] } } (.ofText "me.info") with
    key := some sampleKey, phase := .registered }

/-- A disk with three bytes of notes. -/
def sampleDisk : Disk :=
  { entries := [([Utf8.encode "notes"], .file 0)], contents := [#[1, 2, 3]] }

/-- A server that shares the key and will misreport one checksum, on an open line. -/
def sampleWorld : World Archive :=
  { disk := sampleDisk
    line :=
      { server :=
          { wrap := fun _ _ => [], sessionKeys := fun _ => sampleKey, misreports := 1
            key := some sampleKey }
        isOpen := true }
    network := .error .connectionRefused }

/-- The notes can be sent. -/
def sampleFile : Sendable sampleSession sampleWorld.disk (.ofText "notes") 2 :=
  .ofRsa sampleSession sampleWorld.disk (.ofText "notes") 2 sampleKey rfl "notes"
    (by decide +kernel) (by decide +kernel) 0 rfl (by decide) (by decide) (by decide)

theorem sendFile_course_notes :
    sampleFile.frames.length = 2 ∧ ∃ turns outcome l log,
      sampleFile.Course 1 turns outcome ∧ sampleWorld.line.Plays turns l ∧
        sampleWorld.run (Upload.sendFile sampleSession (.ofText "notes") { sliceSize := 2 }) =
          (outcome, sampleWorld.talked l log) := by
  obtain ⟨length, -, turns, outcome, l, log, course, plays, -, ran⟩ :=
    sendFile_course sampleWorld sampleSession (.ofText "notes") { sliceSize := 2 } sampleFile
      ⟨rfl, rfl, rfl⟩
  exact ⟨length, turns, outcome, l, log, course, plays, ran⟩

end EncryptedBackup
