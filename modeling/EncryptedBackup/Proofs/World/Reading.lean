/-
Reading responses from a stream. What one reading gives and how far it goes is decided by the
first bytes of the stream, in a fixed order (`Line.Reads`): its length, the code, the announced size,
the length again, the layout. So readings stay in step with the frames of a server, whether or not a
frame is understood (`readResponse_in_frame`).
-/
import EncryptedBackup.Proofs.Wire.Acceptance
import EncryptedBackup.Proofs.World.Run
import EncryptedBackup.World.Script

namespace EncryptedBackup

/-! ## Headers -/

/-- A stream that is long enough starts with a header. -/
theorem ResponseHeader.exists_decode {bs : Bytes} (enough : length ≤ bs.length) :
    ∃ header, decode bs = .ok header := by
  simp only [length] at enough
  have version := Field.slice_of_le (by omega : 0 + 1 ≤ bs.length)
  have code := Field.slice_of_le (by omega : 0 + 1 + 2 ≤ bs.length)
  have size := Field.slice_of_le (by omega : 0 + 1 + 2 + 4 ≤ bs.length)
  unfold decode Field.octet Field.word Field.long
  simp only [version, code, size, bind, Except.bind, pure, Except.pure]
  exact ⟨_, rfl⟩

/-- A header is only there if all its bytes are. -/
theorem ResponseHeader.length_le_of_decode {bs : Bytes} {h : ResponseHeader}
    (read : decode bs = .ok h) : length ≤ bs.length := by
  unfold decode at read
  obtain ⟨⟨_, _⟩, version, read⟩ := exists_of_bind_ok read
  obtain ⟨⟨_, _⟩, code, read⟩ := exists_of_bind_ok read
  obtain ⟨⟨_, _⟩, size, -⟩ := exists_of_bind_ok read
  have := Field.octet_ok version
  have := Field.word_ok code
  have := Field.long_ok size
  simp only [length]
  omega

/-! ## One reading -/

namespace Line

variable {σ : Type}

/-- What reading behind the end finds. -/
def ending (l : Line σ) : Fault := if l.conditions.resetAtEnd then .reset else .earlyEnd

/-- What a reading gives of a stream that ends with this fault, and what it leaves. -/
structure Reads (fault : Fault) (stream : Bytes) (outcome : Except Error Response) (left : Bytes) :
    Prop where
  short : stream.length < 7 → outcome = .error (.line fault)
  headed : 7 ≤ stream.length → ∃ header, ResponseHeader.decode (stream.take 7) = .ok header
  unknown {header : ResponseHeader} : ResponseHeader.decode (stream.take 7) = .ok header →
    (∀ c : ResponseCode, c.number ≠ header.code) →
    outcome = .error (.unknownResponse header.code) ∧ left = stream.drop 7
  tooLarge {header : ResponseHeader} {c : ResponseCode} :
    ResponseHeader.decode (stream.take 7) = .ok header → c.number = header.code →
    (outcome = .error (.payloadTooLarge header.payloadSize.toNat) ↔
      65536 < header.payloadSize.toNat) ∧
    (65536 < header.payloadSize.toNat → left = stream.drop 7)
  cut {header : ResponseHeader} {c : ResponseCode} :
    ResponseHeader.decode (stream.take 7) = .ok header → c.number = header.code →
    header.payloadSize.toNat ≤ 65536 → stream.length < 7 + header.payloadSize.toNat →
    outcome = .error (.line fault)
  whole {header : ResponseHeader} {c : ResponseCode} :
    ResponseHeader.decode (stream.take 7) = .ok header → c.number = header.code →
    header.payloadSize.toNat ≤ 65536 → 7 + header.payloadSize.toNat ≤ stream.length →
    outcome = Response.decode header ((stream.drop 7).take header.payloadSize.toNat) ∧
      left = stream.drop (7 + header.payloadSize.toNat)

variable {l : Line σ}

theorem read_of_le (connected : l.isOpen = true) {n : Nat} (enough : n ≤ l.arriving.length) :
    l.read n = (.ok (l.arriving.take n), { l with arriving := l.arriving.drop n }) := by
  unfold read
  rw [connected, if_neg (by simp), if_pos enough]

theorem read_of_lt (connected : l.isOpen = true) {n : Nat} (short : l.arriving.length < n) :
    l.read n = (.error l.ending, { l with arriving := [] }) := by
  unfold read ending
  rw [connected, if_neg (by simp), if_neg (by omega)]

theorem hear_of_short (connected : l.isOpen = true)
    (short : l.arriving.length < ResponseHeader.length) :
    l.hear = (.error (.line l.ending), { l with arriving := [] }) := by
  unfold hear
  rw [read_of_lt connected short]

section

variable (connected : l.isOpen = true) {header : ResponseHeader}
  (headed : ResponseHeader.decode (l.arriving.take ResponseHeader.length) = .ok header)

include connected headed

/-- Behind the header of a response. -/
theorem read_header : l.read ResponseHeader.length = (.ok (l.arriving.take ResponseHeader.length),
    { l with arriving := l.arriving.drop ResponseHeader.length }) := by
  have all := ResponseHeader.length_le_of_decode headed
  rw [List.length_take] at all
  exact read_of_le connected (by omega)

theorem hear_of_unknown (unknown : ∀ c : ResponseCode, c.number ≠ header.code) :
    l.hear = (.error (.unknownResponse header.code),
      { l with arriving := l.arriving.drop ResponseHeader.length }) := by
  unfold hear
  simp only [read_header connected headed, headed, ResponseCode.ofNumber_of_unknown unknown]

variable {c : ResponseCode} (known : c.number = header.code)

include known

theorem hear_of_large (large : Response.maxPayload < header.payloadSize.toNat) :
    l.hear = (.error (.payloadTooLarge header.payloadSize.toNat),
      { l with arriving := l.arriving.drop ResponseHeader.length }) := by
  unfold hear
  simp only [read_header connected headed, headed, ← known, ResponseCode.ofNumber_number, if_pos large]

theorem hear_of_cut (small : header.payloadSize.toNat ≤ Response.maxPayload)
    (short : l.arriving.length < ResponseHeader.length + header.payloadSize.toNat) :
    l.hear = (.error (.line l.ending), { l with arriving := [] }) := by
  have all := ResponseHeader.length_le_of_decode headed
  rw [List.length_take] at all
  have payload := read_of_lt (l := { l with arriving := l.arriving.drop ResponseHeader.length })
    connected (n := header.payloadSize.toNat) (by simp only [List.length_drop]; omega)
  unfold hear
  simp only [read_header connected headed, headed, ← known, ResponseCode.ofNumber_number,
    if_neg (Nat.not_lt.2 small), payload]
  rfl

theorem hear_of_whole (small : header.payloadSize.toNat ≤ Response.maxPayload)
    (enough : ResponseHeader.length + header.payloadSize.toNat ≤ l.arriving.length) :
    l.hear = (Response.decode header
        ((l.arriving.drop ResponseHeader.length).take header.payloadSize.toNat),
      { l with arriving := l.arriving.drop (ResponseHeader.length + header.payloadSize.toNat) }) := by
  have payload := read_of_le (l := { l with arriving := l.arriving.drop ResponseHeader.length })
    connected (n := header.payloadSize.toNat) (by simp only [List.length_drop]; omega)
  unfold hear
  simp only [read_header connected headed, headed, ← known, ResponseCode.ofNumber_number,
    if_neg (Nat.not_lt.2 small), payload, List.drop_drop]

end

/-- One reading goes as far as it should. -/
theorem hear_reads (connected : l.isOpen = true) :
    ∃ left, l.hear.2 = { l with arriving := left } ∧ Reads l.ending l.arriving l.hear.1 left := by
  obtain ⟨left, behind⟩ := l.hear_arriving
  have eq_of {r : Except Error Response} {bs : Bytes}
      (h : l.hear = (r, { l with arriving := bs })) : left = bs :=
    congrArg arriving (behind.symm.trans (congrArg Prod.snd h))
  refine ⟨left, behind, fun short => ?_, fun enough => ?_, fun headed unknown => ?_,
    fun headed known => ⟨⟨fun refused => ?_, fun large => ?_⟩, fun large => ?_⟩,
    fun headed known small short => ?_, fun headed known small enough => ?_⟩
  · rw [hear_of_short connected short]
  · exact ResponseHeader.exists_decode (by simp only [ResponseHeader.length, List.length_take]; omega)
  · have heard := hear_of_unknown connected headed unknown
    exact ⟨congrArg Prod.fst heard, eq_of heard⟩
  -- neither the line nor the layout of a body says that a payload is too large
  · refine Nat.lt_of_not_le fun small => ?_
    rename_i header c
    rcases Nat.lt_or_ge l.arriving.length (7 + header.payloadSize.toNat) with short | enough
    · rw [hear_of_cut connected headed known small short] at refused
      cases refused
    · rw [hear_of_whole connected headed known small enough] at refused
      obtain ⟨_, _, _, other⟩ := Response.truncated_of_decode known refused
      cases other
  · rw [hear_of_large connected headed known large]
  · exact eq_of (hear_of_large connected headed known large)
  · rw [hear_of_cut connected headed known small short]
  · have heard := hear_of_whole connected headed known small enough
    exact ⟨congrArg Prod.fst heard, eq_of heard⟩

end Line

/-! ## One reading after the other -/

/-- What a server puts into a response. -/
structure Answer where
  version : UInt8
  code : ResponseCode
  body : ResponseBody

namespace Answer

/-- The header that is written. -/
def header (a : Answer) : ResponseHeader :=
  { version := a.version, code := a.code.number, payloadSize := .ofNat a.body.encode.length }

/-- The bytes that are written. -/
def encode (a : Answer) : Except Error Bytes := Response.encode a.version a.code a.body

/-- What there is to understand. -/
def understood (a : Answer) : Except Error Response := Response.decode a.header a.body.encode

/-- Is the payload one that is read? -/
def IsSmall (a : Answer) : Prop := a.body.encode.length ≤ Response.maxPayload

theorem payloadSize_toNat {a : Answer} (small : a.IsSmall) :
    a.header.payloadSize.toNat = a.body.encode.length := by
  unfold IsSmall Response.maxPayload at small
  simp only [header, UInt32.toNat_ofNat']
  omega

theorem encode_eq {a : Answer} (small : a.IsSmall) :
    a.encode = .ok (a.header.encode ++ a.body.encode) := by
  unfold encode Response.encode
  simp only
  rw [if_pos (Nat.le_trans small (by decide))]
  rfl

end Answer

/-- What stands in a frame is understood, and what stands behind it is left. -/
theorem Line.hear_answer {σ : Type} {l : Line σ} {a : Answer} (rest : Bytes)
    (connected : l.isOpen = true) (small : a.IsSmall)
    (waits : l.arriving = a.header.encode ++ a.body.encode ++ rest) :
    l.hear = (a.understood, { l with arriving := rest }) := by
  have size := Answer.payloadSize_toNat small
  have length : a.header.encode.length = ResponseHeader.length := a.header.encode_length
  have payload : l.arriving.drop ResponseHeader.length = a.body.encode ++ rest := by
    rw [waits, List.append_assoc, List.drop_left' length]
  have headed : ResponseHeader.decode (l.arriving.take ResponseHeader.length) = .ok a.header := by
    rw [waits, List.append_assoc, List.take_left' length]
    simpa using a.header.decode_encode []
  rw [hear_of_whole connected headed (c := a.code) rfl (by rw [size]; exact small)
    (by simp [waits, length, size]), size, payload, List.take_left, ← List.drop_drop, payload,
    List.drop_left]
  rfl

namespace World

variable {σ : Type} [Server σ]

/-- What so many readings give, one after the other, and the world behind them. -/
def readings (w : World σ) : Nat → List (Except Error Response) × World σ
  | 0 => ([], w)
  | n + 1 =>
    let (outcome, w) := w.run readResponse
    let (later, w) := w.readings n
    (outcome :: later, w)

/-- As many readings as there are frames give what stands in these, in order, and leave the rest. -/
theorem readings_of_answers (rest : Bytes) : ∀ (xs : List Answer) (w : World σ),
    (∀ a ∈ xs, a.IsSmall) → w.line.isOpen = true →
    w.line.arriving = (xs.map fun a => a.header.encode ++ a.body.encode).flatten ++ rest →
    ∃ log, w.readings xs.length =
      (xs.map Answer.understood, w.talked { w.line with arriving := rest } log)
  | [], w, _, _, waits => by
    refine ⟨w.log, ?_⟩
    rw [show rest = w.line.arriving from waits.symm]
    rfl
  | a :: xs, w, small, connected, waits => by
    obtain ⟨log, ran⟩ := w.run_readResponse
    rw [List.map_cons, List.flatten_cons, List.append_assoc] at waits
    rw [Line.hear_answer _ connected (small a List.mem_cons_self) waits] at ran
    generalize behind : (xs.map fun a => a.header.encode ++ a.body.encode).flatten ++ rest = left at ran
    obtain ⟨log', later⟩ := readings_of_answers rest xs
      (w.talked { w.line with arriving := left } log)
      (fun b mem => small b (List.mem_cons_of_mem a mem)) connected behind.symm
    refine ⟨log', ?_⟩
    rw [List.length_cons, readings]
    simp only [ran]
    rw [later]
    rfl

end World

/-- One reading of any stream goes as far as it should; and readings of what a server wrote, with any
bytes behind it, give what stands in each frame, understood or not, and leave those bytes. -/
theorem readResponse_in_frame {σ : Type} [Server σ] (w : World σ) (connected : w.line.isOpen = true) :
    (∃ outcome left log,
      w.run readResponse = (outcome, w.talked { w.line with arriving := left } log) ∧
      Line.Reads w.line.ending w.line.arriving outcome left) ∧
    ∀ xs : List Answer, (∀ a ∈ xs, a.body.encode.length ≤ 65536) →
      ∃ texts, xs.mapM Answer.encode = .ok texts ∧
        ∀ rest, w.line.arriving = texts.flatten ++ rest → ∃ log, w.readings xs.length =
          (xs.map fun a => Response.decode a.header a.body.encode,
            w.talked { w.line with arriving := rest } log) := by
  constructor
  · obtain ⟨log, ran⟩ := w.run_readResponse
    obtain ⟨left, behind, reads⟩ := w.line.hear_reads connected
    exact ⟨_, left, log, by rw [ran, behind], reads⟩
  · intro xs small
    refine ⟨xs.map fun a => a.header.encode ++ a.body.encode, ?_, fun rest waits => ?_⟩
    · induction xs with
      | nil => rfl
      | cons a xs ih =>
        rw [List.mapM_cons, Answer.encode_eq (small a List.mem_cons_self),
          ih fun b mem => small b (List.mem_cons_of_mem a mem)]
        rfl
    · exact World.readings_of_answers rest xs w small connected waits

/-- A checksum that lacks its fields, an id with two bytes behind it, and the start of a header. -/
def misfit : World Script :=
  { disk := {}
    line :=
      { server := {}, isOpen := true
        arriving := [3, 0x43, 6, 0, 0, 0, 0] ++ [3, 0x40, 6, 18, 0, 0, 0] ++ ClientId.unset.bytes ++
          [1, 2] ++ [3, 0x40] }
    network := .error .connectionRefused }

theorem readResponse_in_frame_misfit : ∃ log, misfit.readings 2 =
    ([.error (.truncated 0 16 0), .ok ⟨⟨3, 1600, 18⟩, .registered, .bare (some .unset)⟩],
      misfit.talked { misfit.line with arriving := [3, 0x40] } log) := by
  obtain ⟨-, answers⟩ := readResponse_in_frame misfit rfl
  obtain ⟨texts, written, reads⟩ := answers
    [⟨3, .fileReceived, .bare none⟩, ⟨3, .registered, .withKey .unset [1, 2]⟩] (by decide)
  cases written
  exact reads [3, 0x40] rfl

end EncryptedBackup
