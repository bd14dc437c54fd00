/-
Uploads under one session key or another. If no encryption fails and the length of a ciphertext
depends on the length of its plaintext alone (`Veils`), packets under two keys resemble one another
(`packetRequest_concurs`), and so whole uploads are twins (`twins_sendFile`).
-/
import EncryptedBackup.Proofs.Crypto.Cbc
import EncryptedBackup.Proofs.Upload.Slices
import EncryptedBackup.Proofs.Wire.Stream
import EncryptedBackup.Proofs.World.Twins
import EncryptedBackup.Keyring.Rsa
import EncryptedBackup.Upload

namespace EncryptedBackup

variable {κ σ α β : Type}

/-! ## Looking at the disk -/

/-- A step that looks at the disk and at nothing else, and leaves the world as it is. -/
def Inspects (x : InWorld σ α) : Prop := ∃ f : Disk → α, ∀ w, StateT.run x w = (f w.disk, w)

theorem Inspects.pure (a : α) : Inspects (Pure.pure a : InWorld σ α) := ⟨fun _ => a, fun _ => rfl⟩

theorem Inspects.bind {x : InWorld σ α} {f : α → InWorld σ β} (first : Inspects x)
    (second : ∀ a, Inspects (f a)) : Inspects (x >>= f) := by
  obtain ⟨g, first⟩ := first
  choose h second using second
  refine ⟨fun d => h (g d) d, fun w => ?_⟩
  rw [StateT.run_bind, first]
  exact second (g w.disk) w

section

variable [Keyring κ] [Server σ] {ring : κ}

theorem Act.Twins.sure {x : InWorld σ α} (inspects : Inspects x) :
    Act.Twins ring Eq (Act.sure x) (Act.sure x) := by
  intro w w' alike
  obtain ⟨f, looks⟩ := inspects
  rw [World.run_sure, World.run_sure, looks, looks, alike.disk]
  exact .ok rfl alike

theorem Act.Twins.orElse {x : InWorld σ (Except Fault α)} (error : Fault → Error)
    (inspects : Inspects x) : Act.Twins ring Eq (Act.orElse error x) (Act.orElse error x) :=
  (Act.Twins.sure inspects).andThen fun _ => .ofExcept (.refl _)

theorem inspects_next (s : Slicer OpenFile) : Inspects (s.next (m := InWorld σ)) := by
  unfold Slicer.next
  split
  · exact .pure _
  · refine Inspects.bind ⟨fun d => d.readNext s.file s.nextLength, fun _ => rfl⟩
      fun (outcome, _) => ?_
    cases outcome with
    | error fault => exact .pure _
    | ok bs => exact .pure _

theorem inspects_rewind (s : Slicer OpenFile) : Inspects (s.rewind (m := InWorld σ)) := by
  refine Inspects.bind ⟨fun _ => (.ok (), { s.file with position := 0 }), fun _ => rfl⟩
    fun (outcome, _) => ?_
  cases outcome with
  | error fault => exact .pure _
  | ok _ => exact .pure _

theorem twins_openFile (path : Path) (size : Nat) :
    Act.Twins ring Eq (Slicer.openFile path size : Act (InWorld σ) (Slicer OpenFile))
      (Slicer.openFile path size) := by
  unfold Slicer.openFile
  split
  · exact .throw _
  · exact (Act.Twins.orElse .file ⟨fun d => d.openFile path, fun _ => rfl⟩).andThen
      fun _ => .pure rfl

theorem twins_takeRest : ∀ (left : Nat) (d : Digest) (file : OpenFile),
    Act.Twins ring Eq (d.takeRest left file : Act (InWorld σ) Digest) (d.takeRest left file)
  | 0, _, _ => .pure rfl
  | left + 1, d, file => by
    refine (Act.Twins.sure ⟨fun disk => disk.readNext file bufferSize, fun _ => rfl⟩).andThen
      fun (outcome, file) => (Act.Twins.ofExcept (.refl _)).andThen fun bs => ?_
    split
    · exact .pure rfl
    · exact twins_takeRest left (d.feed bs) file

theorem twins_fileChecksum (path : Path) :
    Act.Twins ring Eq (fileChecksum path : Act (InWorld σ) UInt32) (fileChecksum path) :=
  (Act.Twins.orElse .file ⟨fun d => d.openFile path, fun _ => rfl⟩).andThen fun _ =>
    (twins_takeRest _ _ _).andThen fun _ => .pure rfl

end

/-! ## Packets -/

/-- Encryption with a keyring does not fail, and the length of the plaintext alone decides how long
a ciphertext is. -/
def Veils [Keyring κ] (ring : κ) : Prop :=
  ∃ size : Nat → Nat, ∀ (key : SessionKey) (bs : Bytes), ∃ ciphertext,
    Keyring.encrypt ring key bs = .ok ciphertext ∧ ciphertext.length = size bs.length

/-- The real keyring encrypts so. -/
theorem RsaKeyring.veils (ring : RsaKeyring) : Veils ring :=
  ⟨fun n => 16 * (n / 16 + 1), fun key bs => ⟨key.encrypt bs, rfl, Cbc.encrypt_length key.bytes bs⟩⟩

theorem Packet.make_congr (number total : UInt16) (fileName : String) (plainSize : Nat)
    {ciphertext ciphertext' : Bytes} (even : ciphertext'.length = ciphertext.length) :
    make number total fileName plainSize ciphertext' =
      (make number total fileName plainSize ciphertext).map fun p =>
        { p with ciphertext := ciphertext' } := by
  unfold make
  rw [even]
  cases Field.checkName Wire.nameWidth fileName with
  | error e => rfl
  | ok _ =>
    by_cases large : Wire.maxPayload < ciphertext.length
    · simp only [if_pos large]
      rfl
    by_cases larger : Wire.maxPayload < plainSize
    · simp only [if_neg large, if_pos larger]
      rfl
    simp only [if_neg large, if_neg larger]
    rfl

theorem Frame.outline_packet (id : ClientId) {p : Packet} {ciphertext : Bytes}
    (even : ciphertext.length = p.ciphertext.length) :
    (Frame.packet id { p with ciphertext }).outline = (Frame.packet id p).outline := by
  have layout (q : Packet) : (packetBody q).take Packet.overhead =
      Field.ofLong q.contentSize ++ (Field.ofLong q.plainSize ++ (Field.ofWord q.number ++
        (Field.ofWord q.total ++ Field.padded Wire.nameWidth (Utf8.encode q.fileName)))) := by
    unfold packetBody
    rw [← List.append_assoc, ← List.append_assoc, ← List.append_assoc, ← List.append_assoc,
      List.take_left' (by simp [Field.ofLong, Field.ofWord, Packet.overhead]; omega)]
    simp only [List.append_assoc]
  unfold outline packet
  simp only [if_true, packetBody_length, layout, even]

/-- Packets that differ in their ciphertext only make requests that resemble one another. -/
theorem Request.packet_concurs (id : ClientId) {p : Packet} {ciphertext : Bytes}
    (even : ciphertext.length = p.ciphertext.length) :
    Concurs Resembles (packet id p) (packet id { p with ciphertext }) := by
  by_cases short : (Utf8.encode p.fileName).length < Wire.nameWidth
  · by_cases fits : Packet.overhead + p.ciphertext.length ≤ Wire.maxPayload
    · obtain ⟨r, made, writes⟩ := packet_writes id short fits
      obtain ⟨r', made', writes'⟩ :=
        packet_writes id (p := { p with ciphertext }) short (even.symm ▸ fits)
      rw [made, made']
      exact .ok ⟨_, _, writes, writes', (Frame.outline_packet id even).symm⟩
    · have refused {q : Packet} (name : q.fileName = p.fileName)
          (even : q.ciphertext.length = p.ciphertext.length) : packet id q =
            .error (.payloadTooLarge (Packet.overhead + p.ciphertext.length)) := by
        unfold packet ofBody
        rw [name, Field.checkName_of_lt short]
        simp only [RequestBody.announcedLength, even]
        exact dif_neg fits
      rw [refused (q := p) rfl rfl, refused (q := { p with ciphertext }) rfl even]
      exact .error _
  · unfold packet
    rw [Field.checkName_of_le (Nat.not_lt.1 short)]
    exact .error _

namespace Upload

variable [Keyring κ] {u : Upload κ}

/-- A slice becomes requests that resemble one another. -/
theorem packetRequest_concurs (veils : Veils u.keyring) (key : SessionKey) (number : UInt16)
    (slice : Bytes) : Concurs Request.Resembles (u.packetRequest number slice)
      ({ u with key }.packetRequest number slice) := by
  obtain ⟨size, veils⟩ := veils
  obtain ⟨ciphertext, encrypted, length⟩ := veils u.key slice
  obtain ⟨ciphertext', encrypted', length'⟩ := veils key slice
  have even : ciphertext'.length = ciphertext.length := length'.trans length.symm
  unfold packetRequest
  rw [encrypted, encrypted']
  simp only [bind, Except.bind]
  rw [Packet.make_congr number u.packets u.fileName slice.length even]
  cases packed : Packet.make number u.packets u.fileName slice.length ciphertext with
  | error e => exact .error e
  | ok p =>
    obtain ⟨-, -, -, rfl⟩ := Packet.make_ok packed
    exact Request.packet_concurs u.clientId even

/-! ## One request after the other -/

variable [Server σ] {ring : κ}

theorem twins_tell (key : SessionKey) (verdict : RequestCode) :
    Act.Twins ring Eq (u.tell verdict : Act (InWorld σ) Unit) ({ u with key }.tell verdict) :=
  (Act.Twins.ofExcept (Request.concurs_of_cases
    (Request.plain_cases u.clientId verdict u.fileName))).bind
    fun _ _ resembles => twins_sendRequest resembles

theorem twins_readAcknowledgement :
    Act.Twins ring Eq (readAcknowledgement : Act (InWorld σ) Unit) readAcknowledgement := by
  refine twins_readResponse.bind fun r r' resembles => ?_
  rw [resembles.code_eq]
  split
  · exact .log _
  · exact .pure rfl

theorem twins_showSent (key : SessionKey) (sent : UInt16) :
    Act.Twins ring Eq (u.showSent sent : Act (InWorld σ) Unit) ({ u with key }.showSent sent) := by
  unfold showSent
  simp only
  split
  · exact .sure ⟨fun _ => (), fun _ => rfl⟩
  · exact .pure rfl

theorem twins_sendSlices (veils : Veils u.keyring) (key : SessionKey) :
    ∀ (left : Nat) (sent : UInt16) (s : Slicer OpenFile),
    Act.Twins ring Eq (u.sendSlices left sent s : Act (InWorld σ) (UInt16 × Slicer OpenFile))
      ({ u with key }.sendSlices left sent s)
  | 0, _, _ => .pure rfl
  | left + 1, sent, s => by
    unfold sendSlices
    refine (Act.Twins.sure (inspects_next s)).andThen fun (outcome, s) => ?_
    refine (Act.Twins.ofExcept (.refl outcome)).andThen fun slice => ?_
    cases slice with
    | none => exact .pure rfl
    | some slice =>
      refine (Act.Twins.ofExcept (packetRequest_concurs veils key (sent + 1) slice)).bind
        fun _ _ resembles => ?_
      exact (twins_sendRequest resembles).andThen fun _ =>
        (twins_showSent key (sent + 1)).andThen fun _ => twins_sendSlices veils key left (sent + 1) s

/-- Neither a checksum nor the lack of one depends on a key. -/
theorem checksum_concurs {r r' : Response} (resembles : r.Resembles ring r') :
    Concurs Eq r.checksum r'.checksum := by
  cases resembles with
  | same => exact .refl _
  | key => exact .error _

theorem twins_sendAll (veils : Veils u.keyring) (key : SessionKey) (s : Slicer OpenFile) :
    Act.Twins ring Eq (u.sendAll s : Act (InWorld σ) (UInt32 × Slicer OpenFile))
      ({ u with key }.sendAll s) := by
  refine (Act.Twins.sure (inspects_rewind s)).andThen fun (outcome, s) => ?_
  refine (Act.Twins.ofExcept (.refl outcome)).andThen fun _ => ?_
  refine (twins_showSent key 0).andThen fun _ => ?_
  refine (twins_sendSlices veils key s.slices 0 s).andThen fun (sent, s) => ?_
  refine (Act.Twins.log _).andThen fun _ => twins_readResponse.bind fun _ _ resembles => ?_
  exact (Act.Twins.ofExcept (checksum_concurs resembles)).andThen fun _ => .pure rfl

theorem twins_settle (veils : Veils u.keyring) (key : SessionKey) (resends attempt : Nat)
    (s : Slicer OpenFile) : Act.Twins ring Eq (u.settle resends attempt s : Act (InWorld σ) Report)
      ({ u with key }.settle resends attempt s) := by
  unfold settle
  refine (twins_sendAll veils key s).andThen fun (theirs, s) => ?_
  dsimp only
  split
  · refine (twins_tell key _).andThen fun _ => twins_readAcknowledgement.andThen fun _ => ?_
    exact (Act.Twins.sure ⟨fun _ => 0, fun _ => rfl⟩).andThen fun _ =>
      (Act.Twins.log _).andThen fun _ => .pure rfl
  · refine (Act.Twins.log _).andThen fun _ => ?_
    match resends with
    | 0 =>
      exact (twins_tell key _).andThen fun _ => twins_readAcknowledgement.andThen fun _ => .throw _
    | resends + 1 =>
      exact (twins_tell key _).andThen fun _ => twins_settle veils key resends (attempt + 1) s

end Upload

/-- Uploads in sessions that resemble one another are twins. -/
theorem Upload.twins_sendFile [Keyring κ] [Server σ] {ring : κ} {s s' : Session κ}
    (resembles : s.Resembles s') (veils : Veils s.keyring) (path : Path) (options : UploadOptions) :
    Act.Twins ring Eq (sendFile s path options : Act (InWorld σ) Report)
      (sendFile s' path options) := by
  obtain ⟨key', rfl, held⟩ := resembles
  unfold sendFile
  match s.key, key', held with
  | none, none, _ => exact .throw _
  | some key, some key', _ =>
    cases path.fileName? with
    | none => exact .throw _
    | some name =>
      refine (Act.Twins.ofExcept (.refl _)).andThen fun _ => ?_
      refine (twins_openFile path options.sliceSize).andThen fun slicer => ?_
      dsimp only
      split
      · exact .throw _
      · refine (twins_fileChecksum path).andThen fun checksum => (Act.Twins.log _).andThen fun _ => ?_
        refine (Act.Twins.sure ⟨fun _ => 0, fun _ => rfl⟩).andThen fun _ => ?_
        exact twins_settle veils key' _ _ _

end EncryptedBackup
