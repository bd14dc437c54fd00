/-
Uploads to a server that keeps what it is sent. It collects the slices of an attempt in order
(`collect_frames`) and judges what it has collected; so a file arrives as it is, once, unless too
many checksums are misreported, and then nothing arrives (`sendFile_delivers`).
-/
import EncryptedBackup.Proofs.Upload.Course
import EncryptedBackup.Proofs.World.Disk

namespace EncryptedBackup

variable {κ : Type} [Keyring κ] {session : Session κ} {disk : Disk} {path : Path} {size : Nat}

/-- The slices of the file are encrypted as the server decrypts them. -/
def Sendable.Sealed (file : Sendable session disk path size) : Prop :=
  ∀ i < file.count, file.ciphertext (sliceAt size file.content i) =
    file.key.encrypt (sliceAt size file.content i)

/-! ## Packets -/

namespace Archive

/-- What the server makes of a packet of the file. -/
theorem answer_packet (file : Sendable session disk path size) (secure : file.Sealed) {i : Nat}
    (h : i < file.count) {a : Archive} (shared : a.key = some file.key) :
    a.answer (.packet session.clientId (file.packet i)) =
      if i + 1 = file.count then
        { a with collected := a.collected ++ sliceAt size file.content i }.report session.clientId
          file.name
      else ([], { a with collected := a.collected ++ sliceAt size file.content i }) := by
  have opened : a.plaintext? (file.packet i) = some (sliceAt size file.content i) := by
    unfold plaintext? Sendable.packet
    simp only [shared, secure i h]
    exact SessionKey.decrypt?_encrypt _ _
  have decoded := Packet.decode_packetBody (p := file.packet i) file.short file.clean
  have countable : file.count ≤ Upload.maxPackets := file.countable
  have last : (file.packet i).number = (file.packet i).total ↔ i + 1 = file.count := by
    simp only [Upload.maxPackets] at countable
    unfold Sendable.packet
    simp only [← UInt16.toNat_inj, UInt16.toNat_ofNat']
    omega
  unfold answer Frame.packet
  simp only [RequestCode.ofNumber?_number, decoded]
  unfold takePacket
  simp only [opened, last]
  rfl

/-! ## Verdicts -/

theorem answer_matches (file : Sendable session disk path size) (a : Archive) :
    a.answer (file.verdict .checksumMatches) = (acknowledgement, a.keep file.name) := by
  have name := Field.nameText_padded (Nat.le_of_lt file.short) file.clean
  have read : Field.name (file.verdict .checksumMatches).payload 0 _ = _ :=
    Field.name_at [] (Field.padded Wire.nameWidth (Utf8.encode file.name)) []
      (by simp [Sendable.verdict, Frame.plain]) rfl
  rw [Field.padded_length, name] at read
  unfold answer
  simp only [read]
  rfl

theorem answer_differs (file : Sendable session disk path size) (a : Archive) :
    a.answer (file.verdict .checksumDiffers) = ([], a.drop) := rfl

theorem answer_differsForGood (file : Sendable session disk path size) (a : Archive) :
    a.answer (file.verdict .checksumDiffersForGood) = (acknowledgement, a.drop) := rfl

end Archive

/-- A line to a server that shares the key of a file, has nothing of it yet, and will misreport so
many checksums. -/
structure Line.Awaits (l : Line Archive) (file : Sendable session disk path size)
    (misreports : Nat) : Prop where
  steady : l.Steady
  quiet : l.arriving = []
  shared : l.server.key = some file.key
  empty : l.server.collected = []
  misreports : l.server.misreports = misreports

namespace Sendable

/-- The packets from an index to the last one are collected, and the last one is answered with a
report on all that was collected. -/
theorem collect_frames (file : Sendable session disk path size) (secure : file.Sealed) :
    ∀ (left i : Nat) (l l' : Line Archive), i + left = file.count → 0 < left →
    l.server.key = some file.key → l.Plays ((file.framesFrom i left).map .sent) l' →
    let all := l.server.collected ++
      ((List.range' i left).map (sliceAt size file.content)).flatten
    let (reply, server) := { l.server with collected := all }.report session.clientId file.name
    l'.server = server ∧ l'.arriving = l.arriving ++ reply
  | 0, _, _, _, _, positive, _, _ => absurd positive (by omega)
  | left + 1, i, l, l', bound, _, shared, plays => by
    have answered : Server.answer l.server (Frame.packet session.clientId (file.packet i)) = _ :=
      Archive.answer_packet file secure (by omega : i < file.count) shared
    have plays : (l.give (.packet session.clientId (file.packet i))).Plays
      ((file.framesFrom (i + 1) left).map .sent) l' := plays
    -- the server speaks up at the last packet only
    cases left with
    | zero =>
      rw [if_pos bound] at answered
      cases plays
      rw [Line.give_server, Line.give_arriving, answered]
      simp
    | succ left =>
      rw [if_neg (by omega)] at answered
      have rest := collect_frames file secure (left + 1) (i + 1) _ l' (by omega) (by omega)
        (by rw [Line.give_server, answered]; exact shared) plays
      rw [Line.give_server, Line.give_arriving, answered] at rest
      simpa [List.range'_succ] using rest

/-- After the packets of an attempt a checksum is heard: that of the file, unless misreported. -/
theorem hear_report (file : Sendable session disk path size) (secure : file.Sealed)
    {l l' : Line Archive} {k : Nat} (awaits : l.Awaits file k) {outcome : Except Error Response} {turns : List Turn}
    (plays : l.Plays (file.frames.map .sent ++ .heard outcome :: turns) l') :
    ∃ (r : Response) (m : Line Archive), outcome = .ok r ∧ r.code = .fileReceived ∧
      r.checksum = .ok (if k = 0 then file.sum else file.sum ^^^ 0xDEAD) ∧ m.Plays turns l' ∧
      m.Steady ∧ m.arriving = [] ∧
      m.server = { l.server with collected := file.content, misreports := k - 1 } := by
  obtain ⟨n, sent, heard, rest⟩ := Line.Plays.exists_of_append _ plays
  obtain ⟨server, reply⟩ := file.collect_frames secure file.count 0 l n (by omega) file.count_pos
    awaits.shared sent
  have joined : ((List.range' 0 file.count).map (sliceAt size file.content)).flatten =
      file.content := by
    rw [← List.range_eq_range']
    exact slices_flatten file.positive file.content
  have steady := sent.steady _ awaits.steady
  rw [joined, awaits.empty, List.nil_append] at server reply
  rw [awaits.quiet, List.nil_append] at reply
  have carries := Response.carries_checksum session.clientId (.ofNat file.content.length)
    (Archive.reported { l.server with collected := file.content }) file.short file.clean
  have said := Line.hear_framed [] steady.isOpen carries
    (by rw [reply, Archive.say_eq carries, List.append_nil])
  rw [said] at heard rest
  refine ⟨_, _, heard.symm, rfl, ?_, rest, ⟨steady.isOpen, steady.unbroken, steady.ready⟩, rfl, ?_⟩
  · unfold Archive.reported
    simp only [awaits.misreports]
    rfl
  · simp only [server, awaits.misreports]

/-- An acknowledgement is heard. -/
theorem hear_acknowledgement {m : Line Archive} {f : Frame} {a : Archive} (steady : m.Steady)
    (quiet : m.arriving = []) (answered : m.server.answer f = (Archive.acknowledgement, a)) :
    ∃ r n, (m.give f).hear = (.ok r, n) ∧ n.server = a := by
  obtain ⟨said, server⟩ := Line.hear_said steady.isOpen quiet Response.carries_bare_none answered
  exact ⟨_, _, said, server⟩

/-- A misreported checksum is another one. -/
theorem misreported_ne (sum : UInt32) : sum ^^^ 0xDEAD ≠ sum := by
  intro same
  have := congrArg (sum ^^^ ·) same
  simp only [← UInt32.xor_assoc, UInt32.xor_self, UInt32.zero_xor] at this
  exact absurd this (by decide)

/-! ## The outcome -/

/-- The frames of an upload that is sent again so often and ends with a verdict. -/
def requests (file : Sendable session disk path size) (resends : Nat) (last : RequestCode) :
    List Frame :=
  (List.replicate resends (file.frames ++ [file.verdict .checksumDiffers])).flatten ++
    (file.frames ++ [file.verdict last])

theorem requests_succ (file : Sendable session disk path size) (resends : Nat) (last : RequestCode) :
    file.requests (resends + 1) last =
      file.frames ++ file.verdict .checksumDiffers :: file.requests resends last := by
  unfold requests
  simp [List.replicate_succ]

theorem requests_length (file : Sendable session disk path size) (last : RequestCode) :
    ∀ resends : Nat, (file.requests resends last).length = (resends + 1) * (file.count + 1)
  | 0 => by simp [requests, frames_length]
  | resends + 1 => by
    rw [requests_succ, List.length_append, List.length_cons, requests_length file last resends,
      frames_length, Nat.succ_mul (resends + 1)]
    omega

theorem reverse_requests (file : Sendable session disk path size) (resends : Nat)
    (last : RequestCode) (taken : List Frame) :
    ((file.requests resends last).reverse ++ taken).head? = some (file.verdict last) := by
  unfold requests
  simp

theorem frames_map_sent : ∀ (fs : List Frame) (turns : List Turn),
    Turn.frames (fs.map .sent ++ turns) = fs ++ Turn.frames turns
  | [], _ => rfl
  | f :: fs, turns => by
    have rest := frames_map_sent fs turns
    unfold Turn.frames at rest ⊢
    simp [rest]

/-- An upload to a server that will misreport `k` checksums: if there are attempts enough, one more
than these, the file is kept, and otherwise nothing is. -/
theorem Course.delivers {file : Sendable session disk path size} (secure : file.Sealed)
    {attempt : Nat} {turns : List Turn} {outcome : Except Error Report}
    (course : Course file attempt turns outcome) :
    ∀ {k : Nat} {l l' : Line Archive}, l.Awaits file k → l.Plays turns l' → attempt ≤ 4 →
    l'.server.collected = [] ∧
    (attempt + k ≤ 4 →
      outcome = .ok (file.report (attempt + k)) ∧
      Turn.frames turns = file.requests k .checksumMatches ∧
      l'.server = { l.server with
        files := l.server.files ++ [(file.name, file.content)], collected := [], misreports := 0 }) ∧
    (4 < attempt + k →
      outcome = .error (.checksumsDiffer 4) ∧
      Turn.frames turns = file.requests (4 - attempt) .checksumDiffersForGood ∧
      l'.server.files = l.server.files) := by
  induction course with
  | unheard e =>
    intro k l l' awaits plays _
    obtain ⟨r, m, h, -⟩ := file.hear_report secure awaits plays
    cases h
  | uncheckable other =>
    intro k l l' awaits plays _
    obtain ⟨r, m, h, received, -⟩ := file.hear_report secure awaits plays
    cases h
    exact absurd received other
  | confirmed received agree answer =>
    intro k l l' awaits plays bound
    obtain ⟨r, m, h, -, reported, ⟨heard, rest⟩, steady, quiet, server⟩ :=
      file.hear_report secure awaits plays
    cases h
    -- checksums that agree were not misreported
    obtain rfl : k = 0 := by
      apply Classical.byContradiction
      intro some
      rw [agree, if_neg some] at reported
      exact misreported_ne _ (Except.ok.inj reported).symm
    obtain ⟨r', n, said, kept⟩ := hear_acknowledgement steady quiet
      (Archive.answer_matches file m.server)
    rw [said] at heard rest
    cases heard
    cases rest
    refine ⟨by rw [kept]; rfl, fun _ => ⟨rfl, ?_, by rw [kept, server]; rfl⟩, fun late => ?_⟩
    · rw [frames_map_sent]
      simp [requests, Turn.frames]
    · omega
  | @again attempt _ _ turns _ received carried differ early rest ih =>
    intro k l l' awaits plays bound
    obtain ⟨r, m, h, -, reported, rest, steady, quiet, server⟩ := file.hear_report secure awaits plays
    cases h
    obtain ⟨k, rfl⟩ : ∃ j, k = j + 1 := by
      cases k with
      | zero => exact absurd (Except.ok.inj (carried.symm.trans reported)) differ
      | succ j => exact ⟨j, rfl⟩
    -- what was collected is dropped, so the next attempt finds the server as this one did, with
    -- one misreport less to come
    have dropped : (m.give (file.verdict .checksumDiffers)).server =
        { l.server with collected := [], misreports := k } := by
      rw [Line.give_server]
      show (Archive.answer _ _).2 = _
      rw [Archive.answer_differs, server]
      rfl
    have awaits' : (m.give (file.verdict .checksumDiffers)).Awaits file k := by
      refine ⟨steady.give _, ?_, ?_, ?_, ?_⟩
      · rw [Line.give_arriving, quiet]
        rfl
      · rw [dropped]
        exact awaits.shared
      · rw [dropped]
      · rw [dropped]
    obtain ⟨empty, kept, lost⟩ := ih awaits' rest (by simp only [Upload.maxResends] at early; omega)
    refine ⟨empty, fun enough => ?_, fun late => ?_⟩
    · obtain ⟨reported, sent, server⟩ := kept (by omega)
      refine ⟨by rw [reported, Nat.add_assoc, Nat.add_comm 1], ?_, by rw [server, dropped]⟩
      rw [frames_map_sent, requests_succ, ← sent]
      rfl
    · obtain ⟨reported, sent, files⟩ := lost (by omega)
      refine ⟨reported, ?_, by rw [files, dropped]⟩
      have left : 4 - attempt = 4 - (attempt + 1) + 1 := by
        simp only [Upload.maxResends] at early
        omega
      rw [frames_map_sent, left, requests_succ, ← sent]
      rfl
  | givenUp received carried differ last answer =>
    intro k l l' awaits plays bound
    obtain ⟨r, m, h, -, reported, ⟨heard, rest⟩, steady, quiet, server⟩ :=
      file.hear_report secure awaits plays
    cases h
    have positive : k ≠ 0 := by
      rintro rfl
      exact differ (Except.ok.inj (carried.symm.trans reported))
    obtain ⟨r', n, said, kept⟩ := hear_acknowledgement steady quiet
      (Archive.answer_differsForGood file m.server)
    rw [said] at heard rest
    cases heard
    cases rest
    simp only [Upload.maxResends] at last
    refine ⟨by rw [kept]; rfl, fun early => ?_, fun _ => ⟨?_, ?_, by rw [kept, server]; rfl⟩⟩
    · omega
    · rw [last]
      rfl
    · rw [frames_map_sent, last]
      simp [requests, Turn.frames]

/-- An upload to a server that misreports nothing is confirmed at the first attempt, and the file
kept. -/
theorem run_sendFile_kept {w : World Archive} {options : UploadOptions}
    (file : Sendable session w.disk path options.sliceSize) (secure : file.Sealed)
    (awaits : w.line.Awaits file 0) :
    ∃ l log, w.run (Upload.sendFile session path options) = (.ok (file.report 1), w.talked l log) ∧
      l.taken = (file.requests 0 .checksumMatches).reverse ++ w.line.taken ∧
      l.server = { w.line.server with
        files := w.line.server.files ++ [(file.name, file.content)], collected := []
        misreports := 0 } := by
  obtain ⟨turns, outcome, l, log, course, plays, ran⟩ := file.run_sendFile w awaits.steady
  obtain ⟨-, kept, -⟩ := course.delivers secure awaits plays (by omega)
  obtain ⟨reported, sent, server⟩ := kept (by omega)
  have taken := plays.taken
  rw [sent] at taken
  exact ⟨l, log, by rw [ran, reported], taken, server⟩

end Sendable

/-- End to end: over a line to a server that shares the session's key and has collected nothing yet,
an upload of a file is confirmed and the file kept, once, under its name and as it is, if at most
three checksums are misreported. If more are, the upload gives up after four attempts, and the
server keeps nothing. -/
theorem sendFile_delivers (w : World Archive) (session : Session RsaKeyring) (key : SessionKey)
    (path : Path) (options : UploadOptions) (name : String) (content : Bytes)
    (held : session.key = some key) (stored : w.disk.read path = .ok content)
    (named : path.fileName?.map Utf8.lossy = some name) (short : (Utf8.encode name).length ≤ 254)
    (positive : 0 < options.sliceSize) (bounded : options.sliceSize ≤ maxSlice)
    (countable : sliceCount options.sliceSize content.length ≤ 65535)
    (steady : w.line.Steady) (quiet : w.line.arriving = [])
    (shared : w.line.server.key = some key) (empty : w.line.server.collected = []) :
    let packets := sliceCount options.sliceSize content.length
    let k := w.line.server.misreports
    ∃ w', w'.disk = w.disk ∧ w'.line.server.collected = [] ∧
      (k ≤ 3 →
        w.run (Upload.sendFile session path options) =
          (.ok { fileName := name, bytes := content.length, packets := .ofNat packets
                 attempts := k + 1, checksum := checksum content, elapsed := .ofNanos 0 }, w') ∧
        w'.line.server.files = w.line.server.files ++ [(name, content)] ∧
        w'.line.taken.length = (k + 1) * (packets + 1) + w.line.taken.length ∧
        w'.line.taken.head? = some (.plain session.clientId .checksumMatches name)) ∧
      (4 ≤ k →
        w.run (Upload.sendFile session path options) = (.error (.checksumsDiffer 4), w') ∧
        w'.line.server.files = w.line.server.files ∧
        w'.line.taken.length = 4 * (packets + 1) + w.line.taken.length ∧
        w'.line.taken.head? = some (.plain session.clientId .checksumDiffersForGood name)) := by
  obtain ⟨number, found, rfl⟩ := Disk.find_of_read stored
  let file := Sendable.ofRsa session w.disk path options.sliceSize key held name named
    (Nat.lt_succ_of_le short) number found positive bounded countable
  obtain ⟨turns, outcome, l, log, course, plays, ran⟩ := file.run_sendFile w steady
  have taken := plays.taken
  have awaits : w.line.Awaits file w.line.server.misreports := ⟨steady, quiet, shared, empty, rfl⟩
  obtain ⟨collected, kept, lost⟩ := course.delivers (fun _ _ => rfl) awaits plays (by omega)
  refine ⟨w.talked l log, rfl, collected, fun enough => ?_, fun late => ?_⟩
  · obtain ⟨reported, sent, server⟩ := kept (by omega)
    rw [sent] at taken
    refine ⟨?_, congrArg Archive.files server, ?_, ?_⟩
    · rw [ran, reported, Nat.add_comm]
      rfl
    · rw [World.talked_line, taken, List.length_append, List.length_reverse,
        Sendable.requests_length]
      rfl
    · rw [World.talked_line, taken]
      exact file.reverse_requests _ _ _
  · obtain ⟨failed, sent, files⟩ := lost (by omega)
    rw [sent] at taken
    refine ⟨?_, files, ?_, ?_⟩
    · rw [ran, failed]
    · rw [World.talked_line, taken, List.length_append, List.length_reverse,
        Sendable.requests_length]
      rfl
    · rw [World.talked_line, taken]
      exact file.reverse_requests _ _ _

theorem sendFile_delivers_notes : ∃ w',
    sampleWorld.run (Upload.sendFile sampleSession (.ofText "notes") { sliceSize := 2 }) =
      (.ok { fileName := "notes", bytes := 3, packets := 2, attempts := 2
             checksum := checksum [1, 2, 3], elapsed := .ofNanos 0 }, w') ∧
    w'.line.server.files = [("notes", [1, 2, 3])] := by
  obtain ⟨w', -, -, kept, -⟩ := sendFile_delivers sampleWorld sampleSession sampleKey
    (.ofText "notes") { sliceSize := 2 } "notes" [1, 2, 3] rfl rfl
    (by decide +kernel) (by decide +kernel) (by decide) (by decide) (by decide)
    ⟨rfl, rfl, rfl⟩ rfl rfl rfl
  obtain ⟨ran, files, -, -⟩ := kept (by decide)
  exact ⟨w', ran, files⟩

end EncryptedBackup
