/-
Nothing an upload counts or announces leaves its range. A watched upload checks its counters before
every slice, and the number of every packet before it is used; it is the upload itself, on every
machine and whatever the alarm, so no check ever fails. A slice of an admitted size and its
ciphertext go into a packet and a request that announce their exact lengths (`sendFile_in_range`).
-/
import EncryptedBackup.Proofs.Crypto.Cbc
import EncryptedBackup.Proofs.Slicer.Counters
import EncryptedBackup.Proofs.Upload.Course
import EncryptedBackup.Proofs.Wire.Stream

namespace EncryptedBackup

/-! ## Lengths that are announced -/

/-- A packet says how long a slice and its ciphertext are, and the header of its request how long
the body is. -/
structure Packet.Measures (p : Packet) (r : Request) (slice ciphertext : Bytes) : Prop where
  plainSize : p.plainSize.toNat = slice.length
  contentSize : p.contentSize.toNat = ciphertext.length
  payloadSize : r.header.payloadSize.toNat = 267 + ciphertext.length

/-- A slice of an admitted size fits a packet and a request once it is encrypted and padded. -/
theorem Packet.exists_measures {slice ciphertext : Bytes} (bounded : slice.length ≤ maxSlice)
    (padded : ciphertext.length = 16 * (slice.length / 16 + 1)) {name : String}
    (short : (Utf8.encode name).length < Wire.nameWidth) (id : ClientId) (number total : UInt16) :
    ∃ p r, Packet.make number total name slice.length ciphertext = .ok p ∧
      Request.packet id p = .ok r ∧ p.Measures r slice ciphertext := by
  have fits : Packet.overhead + ciphertext.length ≤ Wire.maxPayload := by
    simp only [maxSlice, Wire.maxPayload, Packet.overhead, Wire.nameWidth] at bounded ⊢
    omega
  have plain : slice.length ≤ Wire.maxPayload := Nat.le_trans bounded (by decide)
  have requested := Request.packet_eq_ok id
    (p := ⟨.ofNat ciphertext.length, .ofNat slice.length, number, total, name, ciphertext⟩) short fits
  have small := Nat.le_of_add_left_le fits
  refine ⟨_, _, Packet.make_eq_ok number total short plain small, requested, ?_, ?_, ?_⟩
  · simp only [Wire.maxPayload] at plain
    simp only [UInt32.toNat_ofNat']
    omega
  · simp only [Wire.maxPayload] at small
    simp only [UInt32.toNat_ofNat']
    omega
  · exact Request.announced _

theorem Packet.make_ne_payloadTooLarge {slice ciphertext : Bytes}
    (bounded : slice.length ≤ maxSlice) (padded : ciphertext.length = 16 * (slice.length / 16 + 1))
    (number total : UInt16) (name : String) (n : Nat) :
    Packet.make number total name slice.length ciphertext ≠ .error (.payloadTooLarge n) := by
  by_cases short : (Utf8.encode name).length < Wire.nameWidth
  · obtain ⟨p, -, made, -⟩ := exists_measures bounded padded short .unset number total
    rw [made]
    nofun
  · unfold Packet.make
    rw [Field.checkName_of_le (Nat.not_lt.1 short)]
    nofun

/-! ## Watched uploads -/

namespace Upload

variable {κ File : Type} {m : Type → Type}

/-- The counters of an upload and its slicer agree, and none has left its range. -/
structure Counts (u : Upload κ) (sent : UInt16) (s : Slicer File) : Prop where
  bytes : s.taken ≤ s.length
  number : sent.toNat = s.count
  packets : u.packets.toNat = s.slices
  bound : sent.toNat ≤ u.packets.toNat

instance (u : Upload κ) (sent : UInt16) (s : Slicer File) : Decidable (u.Counts sent s) :=
  decidable_of_iff (s.taken ≤ s.length ∧ sent.toNat = s.count ∧ u.packets.toNat = s.slices ∧
      sent.toNat ≤ u.packets.toNat)
    ⟨fun ⟨bytes, number, packets, bound⟩ => ⟨bytes, number, packets, bound⟩,
      fun ⟨bytes, number, packets, bound⟩ => ⟨bytes, number, packets, bound⟩⟩

variable [Monad m] [Machine m File] [Keyring κ]

/-- Send slices as `sendSlices` does, but raise an alarm where the counters are wrong or the number
of the next packet is one that does not exist. -/
def watchSlices (u : Upload κ) (alarm : Error) :
    (left : Nat) → (sent : UInt16) → Slicer File → Act m (UInt16 × Slicer File)
  | 0, sent, s => do
    Act.insist alarm (u.Counts sent s)
    return (sent, s)
  | left + 1, sent, s => do
    Act.insist alarm (u.Counts sent s)
    let (outcome, s) ← Act.sure s.next
    match ← Act.ofExcept outcome with
    | none => return (sent, s)
    | some slice =>
      Act.insist alarm (sent.toNat < u.packets.toNat ∧ (sent + 1).toNat = sent.toNat + 1)
      sendRequest (← Act.ofExcept (u.packetRequest (sent + 1) slice))
      u.showSent (sent + 1)
      u.watchSlices alarm left (sent + 1) s

variable [LawfulMonad m]

omit [Keyring κ] [Machine m File] in
theorem Counts.next {u : Upload κ} {sent : UInt16} {s s' : Slicer File} {slice : Bytes}
    (h : u.Counts sent s) (counted : s.Counted (.ok (some slice)) s') :
    (sent.toNat < u.packets.toNat ∧ (sent + 1).toNat = sent.toNat + 1) ∧ u.Counts (sent + 1) s' := by
  obtain ⟨more, taken, count⟩ := counted.given slice rfl
  have due : s.nextLength ≤ s.length - s.taken := Nat.min_le_left ..
  have bytes := h.bytes
  have below : sent.toNat < u.packets.toNat := by
    rw [h.number, h.packets]
    exact more
  -- the number of all packets is one, so the numbers below it can be counted on
  have counts : (sent + 1).toNat = sent.toNat + 1 := by
    have small := u.packets.toNat_lt
    rw [UInt16.toNat_add]
    exact Nat.mod_eq_of_lt (by simp; omega)
  refine ⟨⟨below, counts⟩, ?_, ?_, ?_, ?_⟩
  · rw [taken, counted.length]
    omega
  · rw [counts, count, h.number]
  · rw [counted.slices, h.packets]
  · omega

/-- While the counters are right the alarm is not raised. -/
theorem coincide_watchSlices (u : Upload κ) (alarm : Error) (left : Nat) (sent : UInt16)
    (s : Slicer File) (counts : u.Counts sent s) :
    Act.Coincide (fun result => result.2.slices = s.slices)
      (u.sendSlices left sent s : Act m _) (u.watchSlices alarm left sent s) := by
  induction left generalizing sent s with
  | zero =>
    unfold sendSlices watchSlices
    rw [Act.insist_bind counts]
    exact .pure rfl
  | succ left ih =>
    unfold sendSlices watchSlices
    rw [Act.insist_bind counts]
    apply s.coincide_next.bind
    rintro ⟨outcome, s'⟩ counted
    apply (Act.Coincide.ofExcept outcome).bind
    rintro (_ | slice) rfl
    · exact .pure counted.slices
    · obtain ⟨numbered, counts'⟩ := counts.next counted
      simp only
      rw [Act.insist_bind numbered, ← counted.slices]
      refine .andThen fun request => ?_
      refine .andThen fun _ => ?_
      refine .andThen fun _ => ?_
      exact ih (sent + 1) s' counts'

/-! ## Uploads with a given loop -/

/-- Send the whole file once, its slices by a loop that is given. -/
def sendAllBy (u : Upload κ) (loop : Nat → UInt16 → Slicer File → Act m (UInt16 × Slicer File))
    (s : Slicer File) : Act m (UInt32 × Slicer File) := do
  let (outcome, s) ← Act.sure s.rewind
  Act.ofExcept outcome
  u.showSent 0
  let (sent, s) ← loop s.slices 0 s
  Act.log (.allSent sent)
  let response ← readResponse
  return (← Act.ofExcept response.checksum, s)

/-- Send the file as `settle` does, its slices by a loop that is given. -/
def settleBy (u : Upload κ) (loop : Nat → UInt16 → Slicer File → Act m (UInt16 × Slicer File)) :
    (resends attempt : Nat) → Slicer File → Act m Report
  | resends, attempt, s => do
    let (theirs, s) ← u.sendAllBy loop s
    if theirs = u.checksum then
      u.tell .checksumMatches
      readAcknowledgement
      let report := u.report attempt (← Act.sure Machine.clock)
      Act.log (.checksumConfirmed attempt report.elapsed)
      return report
    else
      Act.log (.checksumsDiffer attempt u.checksum theirs)
      match resends with
      | 0 =>
        u.tell .checksumDiffersForGood
        readAcknowledgement
        throw (.checksumsDiffer attempt)
      | resends + 1 =>
        u.tell .checksumDiffers
        u.settleBy loop resends (attempt + 1) s

/-- Send a file as `sendFile` does, its slices by a loop that is given. -/
def sendFileBy (loop : Upload κ → Nat → UInt16 → Slicer File → Act m (UInt16 × Slicer File))
    (session : Session κ) (path : Path) (options : UploadOptions) : Act m Report := do
  let some key := session.key | throw (.keys .noSessionKey)
  let some name := path.fileName? | throw (.setup (.namesNoFile path.text))
  let fileName := Utf8.lossy name
  Act.ofExcept (Field.checkName Wire.nameWidth fileName)
  let slicer : Slicer File ← Slicer.openFile path options.sliceSize
  if maxPackets < slicer.slices then throw (.fileTooLarge slicer.slices maxPackets)
  let checksum ← fileChecksum path
  let packets := UInt16.ofNat slicer.slices
  Act.log (.sendingFile path slicer.length packets checksum)
  let upload : Upload κ :=
    { keyring := session.keyring, clientId := session.clientId, key, fileName
      bytes := slicer.length, packets, checksum, started := ← Act.sure Machine.clock
      showProgress := options.showProgress }
  upload.settleBy (loop upload) maxResends 1 slicer

omit [LawfulMonad m] in
theorem settleBy_sendSlices (u : Upload κ) (resends attempt : Nat) (s : Slicer File) :
    (u.settleBy u.sendSlices resends attempt s : Act m Report) = u.settle resends attempt s := by
  induction resends generalizing attempt s with
  | zero => rfl
  | succ resends ih =>
    unfold settleBy settle
    simp only [ih]
    rfl

omit [LawfulMonad m] in
theorem sendFileBy_sendSlices (session : Session κ) (path : Path) (options : UploadOptions) :
    (sendFileBy (fun u => u.sendSlices) session path options : Act m Report) =
      sendFile session path options := by
  unfold sendFileBy sendFile
  cases session.key with
  | none => rfl
  | some key =>
    cases path.fileName? with
    | none => rfl
    | some name => simp only [settleBy_sendSlices]

theorem coincide_sendAllBy (u : Upload κ) (alarm : Error) (s : Slicer File)
    (packets : u.packets.toNat = s.slices) :
    Act.Coincide (fun result => result.2.slices = s.slices)
      (u.sendAllBy u.sendSlices s : Act m _) (u.sendAllBy (u.watchSlices alarm) s) := by
  unfold sendAllBy
  apply s.coincide_rewind.bind
  rintro ⟨outcome, s₁⟩ back
  refine (Act.Coincide.ofExcept outcome).bind fun _ rewound => ?_
  obtain ⟨taken, count⟩ := back.start rewound
  have slices : s₁.slices = s.slices := back.slices
  have counts : u.Counts 0 s₁ := by
    constructor
    · exact taken ▸ Nat.zero_le _
    · exact count.symm
    · rw [slices, packets]
    · exact Nat.zero_le _
  refine .andThen fun _ => ?_
  apply (u.coincide_watchSlices alarm s₁.slices 0 s₁ counts).bind
  rintro ⟨sent, s₂⟩ same
  refine .andThen fun _ => ?_
  refine .andThen fun _ => ?_
  refine .andThen fun _ => ?_
  exact .pure (same.trans slices)

theorem coincide_settleBy (u : Upload κ) (alarm : Error) (resends attempt : Nat) (s : Slicer File)
    (packets : u.packets.toNat = s.slices) :
    Act.Coincide (fun _ => True) (u.settleBy u.sendSlices resends attempt s : Act m _)
      (u.settleBy (u.watchSlices alarm) resends attempt s) := by
  induction resends generalizing attempt s with
  | zero =>
    unfold settleBy
    apply (u.coincide_sendAllBy alarm s packets).bind
    rintro ⟨theirs, s'⟩ -
    exact .refl _
  | succ resends ih =>
    unfold settleBy
    apply (u.coincide_sendAllBy alarm s packets).bind
    rintro ⟨theirs, s'⟩ same
    simp only
    split
    · exact .refl _
    · refine .andThen fun _ => ?_
      refine .andThen fun _ => ?_
      exact ih (attempt + 1) s' (packets.trans same.symm)

/-- A watched upload raises no alarm. -/
theorem sendFileBy_watchSlices (session : Session κ) (path : Path) (options : UploadOptions)
    (alarm : Error) :
    sendFileBy (fun u => u.watchSlices alarm) session path options =
      (sendFile session path options : Act m Report) := by
  rw [← sendFileBy_sendSlices]
  symm
  apply Act.Coincide.eq (P := fun _ => True)
  unfold sendFileBy
  cases session.key with
  | none => exact .refl _
  | some key =>
    cases path.fileName? with
    | none => exact .refl _
    | some name =>
      refine .andThen fun _ => ?_
      refine .andThen fun slicer => ?_
      by_cases large : maxPackets < slicer.slices
      · simp only [if_pos large]
        exact (Act.Coincide.throw _).bind fun _ => False.elim
      simp only [if_neg large]
      refine .andThen fun _ => ?_
      refine .andThen fun _ => ?_
      refine .andThen fun _ => ?_
      apply coincide_settleBy
      -- this is where the cast to two octets loses nothing
      simp only [maxPackets] at large
      simp
      omega

/-- On every machine an upload that raises an alarm as soon as a counter is wrong is the upload
itself; and whatever the key, a slice of the admitted size is announced with its exact lengths and
never found too large. -/
theorem sendFile_in_range (session : Session κ) (path : Path) (options : UploadOptions) :
    (∀ alarm, sendFileBy (fun u => u.watchSlices alarm) session path options =
      (sendFile session path options : Act m Report)) ∧
    ∀ (key : SessionKey) (slice : Bytes), options.sliceSize ≤ maxSlice →
      slice.length ≤ options.sliceSize →
      (key.encrypt slice).length = 16 * (slice.length / 16 + 1) ∧ ∀ id number total name,
        (∀ n, Packet.make number total name slice.length (key.encrypt slice) ≠
          .error (.payloadTooLarge n)) ∧
        ((Utf8.encode name).length < Wire.nameWidth → ∃ p r,
          Packet.make number total name slice.length (key.encrypt slice) = .ok p ∧
            Request.packet id p = .ok r ∧ p.Measures r slice (key.encrypt slice)) := by
  refine ⟨sendFileBy_watchSlices session path options, fun key slice admitted inside => ?_⟩
  have bounded : slice.length ≤ maxSlice := Nat.le_trans inside admitted
  have padded : (key.encrypt slice).length = 16 * (slice.length / 16 + 1) :=
    Cbc.encrypt_length key.bytes slice
  refine ⟨padded, fun id number total name => ⟨?_, fun short => ?_⟩⟩
  · exact Packet.make_ne_payloadTooLarge bounded padded number total name
  · exact Packet.exists_measures bounded padded short id number total

/-- The largest slice fills its request to four bytes. -/
theorem sendFile_in_range_full :
    (sendFileBy (fun u => u.watchSlices (.payloadTooLarge 0)) sampleSession (.ofText "notes")
      { sliceSize := maxSlice } : Act (InWorld Archive) Report) =
        sendFile sampleSession (.ofText "notes") { sliceSize := maxSlice } ∧
    ∃ p r, Packet.make 1 1 "notes" maxSlice (sampleKey.encrypt (.replicate maxSlice 0)) = .ok p ∧
      Request.packet .unset p = .ok r ∧ r.header.payloadSize.toNat = 0xFFFFFFFF - 4 := by
  obtain ⟨watched, sized⟩ := sendFile_in_range (m := InWorld Archive) sampleSession (.ofText "notes")
    { sliceSize := maxSlice }
  have length : (List.replicate maxSlice (0 : UInt8)).length = maxSlice := List.length_replicate
  obtain ⟨padded, fits⟩ := sized sampleKey (.replicate maxSlice 0) (Nat.le_refl _) (Nat.le_of_eq length)
  rw [length] at padded fits
  obtain ⟨p, r, made, requested, measures⟩ := (fits .unset 1 1 "notes").2 (by decide +kernel)
  refine ⟨watched _, p, r, made, requested, ?_⟩
  rw [measures.payloadSize, padded]
  rfl

end Upload

end EncryptedBackup
