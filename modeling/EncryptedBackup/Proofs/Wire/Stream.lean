/-
Requests one after the other on a stream. Whatever a client puts into its requests, each of them is
written, and the stream of all is cut again into one frame for each, with nothing left over; what
stands in a frame at fixed places is what was put into its request (`cut_requests`).
-/
import Mathlib.Data.List.Forall2
import EncryptedBackup.Proofs.Wire.Framing

namespace EncryptedBackup

open Wire

/-! ## Frames one after the other -/

namespace Frame

theorem go_flatMap : ∀ (fs : List Frame) (n : Nat), fs.length ≤ n → (∀ f ∈ fs, f.Whole) →
    cut.go n (fs.flatMap encode) = (fs, [])
  | [], n, _, _ => go_nil n
  | f :: fs, 0, bound, _ => absurd bound (by simp)
  | f :: fs, n + 1, bound, whole => by
    have later := go_flatMap fs n (Nat.le_of_succ_le_succ bound)
      fun g mem => whole g (List.mem_cons_of_mem f mem)
    have first := take?_encode (whole f List.mem_cons_self) (fs.flatMap encode)
    rw [List.flatMap_cons]
    unfold cut.go
    simp only [first, later]

theorem length_le_flatMap : ∀ fs : List Frame, fs.length ≤ (fs.flatMap encode).length
  | [] => Nat.zero_le _
  | f :: fs => by
    have later := length_le_flatMap fs
    have first := f.length_encode
    simp only [RequestHeader.length] at first
    rw [List.flatMap_cons, List.length_append, List.length_cons]
    omega

/-- Frames written one after the other are cut apart again. -/
theorem cut_flatMap {fs : List Frame} (whole : ∀ f ∈ fs, f.Whole) :
    cut (fs.flatMap encode) = (fs, []) :=
  go_flatMap fs _ (length_le_flatMap fs) whole

end Frame

/-! ## What is put into requests -/

/-- What a client puts into a request. -/
inductive Draft where
  | plain (clientId : ClientId) (code : RequestCode) (name : String)
  | publicKey (clientId : ClientId) (name : String) (key : Bytes)
  | packet (clientId : ClientId) (number total : UInt16) (fileName : String) (plainSize : Nat)
    (ciphertext : Bytes)
  deriving DecidableEq

namespace Draft

/-- The request that is made of it. -/
def request : Draft → Except Error Request
  | .plain clientId code name => Request.plain clientId code name
  | .publicKey clientId name key => Request.publicKey clientId name key
  | .packet clientId number total fileName plainSize ciphertext => do
    Request.packet clientId (← Packet.make number total fileName plainSize ciphertext)

/-- Whose request it is. -/
def clientId : Draft → ClientId
  | .plain clientId _ _ | .publicKey clientId _ _ | .packet clientId _ _ _ _ _ => clientId

/-- What it is a request for. -/
def code : Draft → RequestCode
  | .plain _ code _ => code
  | .publicKey _ _ _ => .sendPublicKey
  | .packet _ _ _ _ _ _ => .sendFile

/-- What is read at fixed places in the body of a request. -/
def ReadFrom : Draft → Bytes → Prop
  | .plain _ _ name, body =>
    Field.name body 0 nameWidth = .ok (Field.beforeNul name, nameWidth) ∧ body.length = nameWidth
  | .publicKey _ name key, body =>
    Field.name body 0 nameWidth = .ok (Field.beforeNul name, nameWidth) ∧
      body.drop nameWidth = key ∧ key.length = publicKeyWidth
  | .packet _ number total fileName plainSize ciphertext, body =>
    ∃ p, Packet.decode body = .ok p ∧ p.contentSize.toNat = p.ciphertext.length ∧
      p.plainSize.toNat = plainSize ∧ p.number = number ∧ p.total = total ∧
      p.fileName = Field.beforeNul fileName ∧ p.ciphertext = ciphertext

/-- A frame is that of the request made of a draft: it has the request's header, as many bytes as the
header and the request announce, and what was put into the request. -/
structure Conveyed (d : Draft) (r : Request) (f : Frame) : Prop where
  header : f.header = r.header
  clientId : f.header.clientId = d.clientId
  version : f.header.version = Wire.version
  code : f.header.code = d.code.number
  announced : f.header.payloadSize.toNat = r.body.announcedLength
  written : r.body.encode = .ok f.payload
  length : f.payload.length = r.body.announcedLength
  read : d.ReadFrom f.payload

end Draft

/-! ## Every request that is made -/

theorem Field.lt_of_checkName {width : Nat} {name : String} (h : checkName width name = .ok ()) :
    (Utf8.encode name).length < width := by
  unfold checkName at h
  simp only at h
  split at h
  · assumption
  · cases h

theorem Packet.make_ok {number total : UInt16} {fileName : String} {plainSize : Nat}
    {ciphertext : Bytes} {p : Packet} (h : make number total fileName plainSize ciphertext = .ok p) :
    (Utf8.encode fileName).length < nameWidth ∧ ciphertext.length ≤ maxPayload ∧
      plainSize ≤ maxPayload ∧
      p = ⟨.ofNat ciphertext.length, .ofNat plainSize, number, total, fileName, ciphertext⟩ := by
  unfold make at h
  obtain ⟨_, checked, h⟩ := exists_of_bind_ok h
  have short := Field.lt_of_checkName checked
  by_cases large : maxPayload < ciphertext.length
  · simp only [if_pos large] at h
    cases h
  by_cases larger : maxPayload < plainSize
  · simp only [if_neg large, if_pos larger] at h
    cases h
  simp only [if_neg large, if_neg larger] at h
  cases h
  exact ⟨short, Nat.le_of_not_lt large, Nat.le_of_not_lt larger, rfl⟩

theorem Request.eq_of_ofBody {id : ClientId} {code : RequestCode} {body : RequestBody}
    {r : Request} (h : ofBody id code body = .ok r) :
    r.clientId = id ∧ r.code = code ∧ r.body = body := by
  unfold ofBody at h
  split at h
  · cases h
    exact ⟨rfl, rfl, rfl⟩
  · cases h

/-- The header announces what is announced. -/
theorem Request.announced (r : Request) :
    r.header.payloadSize.toNat = r.body.announcedLength := by
  have fits := r.fits
  simp only [maxPayload] at fits
  unfold header
  simp only [UInt32.toNat_ofNat']
  omega

namespace Draft

/-- What a request writes conveys its draft, if the body it writes is as long as announced. -/
theorem conveyed_of_body {d : Draft} {r : Request} (body : Bytes)
    (clientId : r.clientId = d.clientId) (code : r.code = d.code)
    (written : r.body.encode = .ok body) (length : body.length = r.body.announcedLength)
    (read : d.ReadFrom body) :
    ∃ f : Frame, f.Whole ∧ r.encode = .ok f.encode ∧ d.Conveyed r f := by
  refine ⟨⟨r.header, body⟩, ?_, ?_, rfl, clientId, rfl, congrArg RequestCode.number code, r.announced,
    written, length, read⟩
  · unfold Frame.Whole
    rw [r.announced, length]
  · unfold Request.encode
    rw [written]
    rfl

/-- The name of a request is read from the start of its body. -/
theorem read_name {name : String} (short : (Utf8.encode name).length < nameWidth)
    (behind : Bytes) :
    Field.name (Field.padded nameWidth (Utf8.encode name) ++ behind) 0 nameWidth =
      .ok (Field.beforeNul name, nameWidth) := by
  have read : Field.name (Field.padded nameWidth (Utf8.encode name) ++ behind) 0 _ = _ :=
    Field.name_at [] (Field.padded nameWidth (Utf8.encode name)) behind rfl rfl
  rwa [Field.padded_length, Field.nameText_padded_eq (Nat.le_of_lt short), Nat.zero_add] at read

/-- Every request that is made writes one frame that conveys its draft. -/
theorem exists_conveyed {d : Draft} {r : Request} (made : d.request = .ok r) :
    ∃ f : Frame, f.Whole ∧ r.encode = .ok f.encode ∧ d.Conveyed r f := by
  cases d with
  | plain id code name =>
    obtain ⟨_, checked, made⟩ := exists_of_bind_ok made
    have short := Field.lt_of_checkName checked
    obtain ⟨clientId, code, body⟩ := Request.eq_of_ofBody made
    have read := read_name short []
    rw [List.append_nil] at read
    refine conveyed_of_body (Field.padded nameWidth (Utf8.encode name)) clientId code ?_ ?_
      ⟨read, Field.padded_length ..⟩
    · rw [body]
      exact Field.ofName_of_lt short
    · rw [body]
      exact Field.padded_length ..
  | publicKey id name key =>
    obtain ⟨_, checked, made⟩ := exists_of_bind_ok made
    have short := Field.lt_of_checkName checked
    by_cases full : key.length = publicKeyWidth
    · simp only [full, ne_eq, not_true_eq_false, if_false] at made
      obtain ⟨clientId, code, body⟩ := Request.eq_of_ofBody made
      refine conveyed_of_body (Field.padded nameWidth (Utf8.encode name) ++ key) clientId code
        ?_ ?_ ⟨read_name short key, ?_, full⟩
      · rw [body]
        simp only [RequestBody.encode, Field.ofName_of_lt short]
        rfl
      · rw [body, List.length_append, Field.padded_length, full]
        rfl
      · exact List.drop_left' (Field.padded_length ..)
    · simp only [ne_eq, full, not_false_eq_true, if_true] at made
      cases made
  | packet id number total fileName plainSize ciphertext =>
    obtain ⟨p, packed, made⟩ := exists_of_bind_ok made
    obtain ⟨short, small, plainSmall, layout⟩ := Packet.make_ok packed
    obtain ⟨_, checked, made⟩ := exists_of_bind_ok made
    obtain ⟨clientId, code, body⟩ := Request.eq_of_ofBody made
    have named := Field.lt_of_checkName checked
    have decoded := Packet.decode_packetBody_eq named
    simp only [maxPayload] at small plainSmall
    refine conveyed_of_body (Frame.packetBody p) clientId code ?_ ?_ ⟨_, decoded, ?_⟩
    · rw [body]
      simp only [RequestBody.encode, Packet.encodeFields, Field.ofName_of_lt named]
      simp [bind, Except.bind, pure, Except.pure, Frame.packetBody]
    · rw [body]
      exact Frame.packetBody_length p
    · subst layout
      refine ⟨?_, ?_, rfl, rfl, rfl, rfl⟩
      · simp only [UInt32.toNat_ofNat']
        omega
      · simp only [UInt32.toNat_ofNat']
        omega

end Draft

/-! ## Streams of requests -/

/-- Requests that were made are written, and what they write one after the other is cut into one
frame for each of them, with no byte left; each frame conveys what was put into its request. -/
theorem cut_requests (xs : List (Draft × Request)) (made : ∀ x ∈ xs, x.1.request = .ok x.2) :
    ∃ texts frames, xs.mapM (fun x => x.2.encode) = .ok texts ∧
      Frame.cut texts.flatten = (frames, []) ∧
      List.Forall₂ (fun x f => x.1.Conveyed x.2 f) xs frames := by
  obtain ⟨frames, whole, written, conveyed⟩ : ∃ frames : List Frame, (∀ f ∈ frames, f.Whole) ∧
      xs.mapM (fun x => x.2.encode) = .ok (frames.map Frame.encode) ∧
      List.Forall₂ (fun x f => x.1.Conveyed x.2 f) xs frames := by
    induction xs with
    | nil => exact ⟨[], nofun, rfl, .nil⟩
    | cons x xs ih =>
      obtain ⟨f, whole, written, conveyed⟩ := Draft.exists_conveyed (made x List.mem_cons_self)
      obtain ⟨fs, whole', written', conveyed'⟩ := ih fun y mem => made y (List.mem_cons_of_mem x mem)
      refine ⟨f :: fs, ?_, ?_, .cons conveyed conveyed'⟩
      · rintro g (_ | ⟨_, mem⟩)
        · exact whole
        · exact whole' g mem
      · rw [List.mapM_cons, written, written']
        rfl
  refine ⟨_, frames, written, ?_, conveyed⟩
  rw [← List.flatMap_def]
  exact Frame.cut_flatMap whole

/-- A name behind a NUL, a public key, and a packet. -/
def sampleDrafts : List Draft :=
  [.plain .unset .register "al\x00ice", .publicKey .unset "alice" (List.replicate 160 7),
    .packet .unset 1 1 "notes" 3 [1, 2, 3]]

theorem cut_requests_sample : ∃ (xs : List (Draft × Request)) (texts : List Bytes)
    (frames : List Frame), xs.map Prod.fst = sampleDrafts ∧
      xs.mapM (fun x => x.2.encode) = .ok texts ∧ Frame.cut texts.flatten = (frames, []) ∧
      List.Forall₂ (fun x f => x.1.Conveyed x.2 f) xs frames := by
  obtain ⟨r₁, made₁, -⟩ := Request.plain_writes .unset .register
    (by decide +kernel : (Utf8.encode "al\x00ice").length < nameWidth)
  obtain ⟨r₂, made₂, -⟩ := Request.publicKey_writes .unset
    (by decide +kernel : (Utf8.encode "alice").length < nameWidth)
    (show (List.replicate 160 7 : Bytes).length = publicKeyWidth from List.length_replicate)
  obtain ⟨r₃, made₃, -⟩ := Request.packet_writes .unset (p := ⟨3, 3, 1, 1, "notes", [1, 2, 3]⟩)
    (by decide +kernel) (by decide)
  let xs : List (Draft × Request) := sampleDrafts.zip [r₁, r₂, r₃]
  have made : ∀ x ∈ xs, x.1.request = .ok x.2 := by
    simp only [xs, sampleDrafts, List.zip_cons_cons, List.zip_nil_left, List.forall_mem_cons]
    exact ⟨made₁, made₂, made₃, nofun⟩
  obtain ⟨texts, frames, written, cut, conveyed⟩ := cut_requests xs made
  exact ⟨xs, texts, frames, rfl, written, cut, conveyed⟩

end EncryptedBackup
