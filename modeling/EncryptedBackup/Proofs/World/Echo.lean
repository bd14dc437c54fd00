/-
Two clients whose servers say the same but for the session keys. Their streams are echoes of one
another (`Echoes`) if they differ in encrypted keys only, in whole frames of the same lengths; their
lines are alike (`Line.Alike`) if all else that a client can tell is the same. Giving a line another
frame and hearing a response keep lines alike, and what is heard differs in a key at most.
-/
import EncryptedBackup.Keyring
import EncryptedBackup.Proofs.Wire.Responses
import EncryptedBackup.Proofs.World.Reading

namespace EncryptedBackup

variable {κ σ α β : Type}

/-! ## Outcomes -/

/-- Two outcomes with the states behind them: related values in states that are `good`, or the same
error in states that are `bad`. -/
inductive Agree {S : Type} (good bad : S → S → Prop) (R : α → β → Prop) :
    Except Error α × S → Except Error β × S → Prop where
  | ok {a : α} {b : β} {s t : S} (value : R a b) (state : good s t) :
    Agree good bad R (.ok a, s) (.ok b, t)
  | error (e : Error) {s t : S} (state : bad s t) : Agree good bad R (.error e, s) (.error e, t)

theorem Agree.outcome {S : Type} {good bad : S → S → Prop} {p q : Except Error α × S}
    (agree : Agree good bad Eq p q) (shows : ∀ s t, good s t → bad s t) :
    p.1 = q.1 ∧ bad p.2 q.2 := by
  cases agree with
  | ok value state => exact ⟨congrArg Except.ok value, shows _ _ state⟩
  | error e state => exact ⟨rfl, state⟩

/-- Two outcomes without a state. -/
inductive Concurs (R : α → β → Prop) : Except Error α → Except Error β → Prop where
  | ok {a : α} {b : β} (value : R a b) : Concurs R (.ok a) (.ok b)
  | error (e : Error) : Concurs R (.error e) (.error e)

theorem Concurs.refl (x : Except Error α) : Concurs Eq x x := by
  cases x with
  | error e => exact .error e
  | ok a => exact .ok rfl

/-! ## What an onlooker sees -/

/-- A frame without the ciphertext of a packet: its header, the length of its payload, and what
stands before the ciphertext. -/
def Frame.outline (f : Frame) : RequestHeader × Nat × Bytes :=
  (f.header, f.payload.length,
    if f.header.code = RequestCode.sendFile.number then f.payload.take Packet.overhead
    else f.payload)

/-! ## Servers that recite -/

section

variable [Server σ]

/-- A server that says these texts, one to each frame whatever it is, and then nothing more. -/
def Recites (a : σ) (texts : List Bytes) : Prop :=
  ∀ (fs : List Frame) (f : Frame),
    (Server.answer (fs.foldl (fun a f => (Server.answer a f).2) a) f).1 = texts.getD fs.length []

variable {a : σ} {texts : List Bytes}

theorem Recites.answer (recites : Recites a texts) (f : Frame) :
    (Server.answer a f).1 = texts.headD [] := by
  refine (recites [] f).trans ?_
  cases texts with
  | nil => rfl
  | cons text texts => rfl

theorem Recites.next (recites : Recites a texts) (f : Frame) :
    Recites (Server.answer a f).2 texts.tail := by
  intro fs g
  have later := recites (f :: fs) g
  cases texts with
  | nil => exact later
  | cons text texts => exact later

/-- Two servers that recite texts of the same lengths. -/
structure Duet (a b : σ) (texts texts' : List Bytes) : Prop where
  recites : Recites a texts
  recites' : Recites b texts'
  lengths : texts.map List.length = texts'.map List.length

namespace Duet

variable {b : σ} {texts' : List Bytes} (duet : Duet a b texts texts') (f g : Frame)

include duet

theorem next : Duet (Server.answer a f).2 (Server.answer b g).2 texts.tail texts'.tail :=
  ⟨duet.recites.next f, duet.recites'.next g, by rw [List.map_tail, List.map_tail, duet.lengths]⟩

theorem answer_length : (Server.answer a f).1.length = (Server.answer b g).1.length := by
  have lengths := duet.lengths
  rw [duet.recites.answer, duet.recites'.answer]
  cases texts with
  | nil =>
    cases List.map_eq_nil_iff.1 lengths.symm
    rfl
  | cons text texts =>
    obtain ⟨text', later, rfl, same, -⟩ := List.map_eq_cons_iff.1 lengths.symm
    exact same.symm

end Duet

theorem Recites.flatten_eq (recites : Recites a texts) (f : Frame) :
    (Server.answer a f).1 ++ texts.tail.flatten = texts.flatten := by
  rw [recites.answer]
  cases texts with
  | nil => rfl
  | cons text texts => rfl

end

/-- A script of byte strings is recited. -/
theorem Script.recites (texts : List Bytes) (publicField : Bytes) (source : Entropy) :
    Recites ({ replies := texts.map .bytes, publicField, source } : Script) texts := by
  intro fs f
  induction fs generalizing texts publicField with
  | nil =>
    cases texts with
    | nil => rfl
    | cons text texts => rfl
  | cons g fs ih =>
    cases texts with
    | nil => exact ih [] _
    | cons text texts => exact ih texts _

/-! ## Streams -/

section

variable [Keyring κ]

/-- A keyring finds a session key in a byte string. -/
def Opens (ring : κ) (encrypted : Bytes) : Prop :=
  ∃ key : SessionKey, Keyring.unwrap ring encrypted = .ok key.bytes

/-- What a keyring has become when a key comes in a response of a code: a public key is
acknowledged once a new pair is made. -/
def keyringAt (ring : κ) : ResponseCode → κ
  | .publicKeyReceived => (Keyring.generate ring).2
  | _ => ring

/-- Two streams that differ in encrypted keys only. These fill the rest of whole frames, have the
same lengths, and open, each in its own run, for a client that starts with the keyring. -/
inductive Echoes (ring : κ) : Bytes → Bytes → Prop where
  | same (bs : Bytes) : Echoes ring bs bs
  | frame {xs ys : Bytes} (header : ResponseHeader) (payload : Bytes)
    (full : header.payloadSize.toNat = payload.length) (behind : Echoes ring xs ys) :
    Echoes ring (header.encode ++ payload ++ xs) (header.encode ++ payload ++ ys)
  | key {xs ys encrypted encrypted' : Bytes} (header : ResponseHeader) {code : ResponseCode}
    (id : ClientId) (known : code.number = header.code)
    (carries : code = .publicKeyReceived ∨ code = .reconnected)
    (full : header.payloadSize.toNat = (id.bytes ++ encrypted).length)
    (even : encrypted.length = encrypted'.length)
    (opens : Opens (keyringAt ring code) encrypted)
    (opens' : Opens (keyringAt ring code) encrypted') (behind : Echoes ring xs ys) :
    Echoes ring (header.encode ++ (id.bytes ++ encrypted) ++ xs)
      (header.encode ++ (id.bytes ++ encrypted') ++ ys)

/-- Two responses that differ in an encrypted key at most, which opens if it does. -/
inductive Response.Resembles (ring : κ) : Response → Response → Prop where
  | same (r : Response) : Resembles ring r r
  | key {encrypted encrypted' : Bytes} (header : ResponseHeader) (code : ResponseCode)
    (id : ClientId) (opens : Opens (keyringAt ring code) encrypted)
    (opens' : Opens (keyringAt ring code) encrypted') :
    Resembles ring ⟨header, code, .withKey id encrypted⟩ ⟨header, code, .withKey id encrypted'⟩

/-- What is understood of a frame with an encrypted key. -/
theorem Response.decode_key {header : ResponseHeader} {code : ResponseCode} (id : ClientId)
    (encrypted : Bytes) (known : code.number = header.code)
    (carries : code = .publicKeyReceived ∨ code = .reconnected) :
    decode header (id.bytes ++ encrypted) = .ok ⟨header, code, .withKey id encrypted⟩ := by
  rw [decode_of_known known, ResponseBody.decode_withKey carries]
  rfl

theorem Response.Resembles.code_eq {ring : κ} {r r' : Response} (alike : r.Resembles ring r') :
    r.code = r'.code := by
  cases alike with
  | same => rfl
  | key => rfl

end

/-! ## Reading -/

namespace Line

variable {l : Line σ}

/-- Why no response with this header is read from a line. -/
def obstacle (l : Line σ) (header : ResponseHeader) : Option Error :=
  match ResponseCode.ofNumber header.code with
  | .error e => some e
  | .ok _ =>
    if Response.maxPayload < header.payloadSize.toNat then
      some (.payloadTooLarge header.payloadSize.toNat)
    else if l.arriving.length < ResponseHeader.length + header.payloadSize.toNat then
      some (.line l.ending)
    else none

theorem hear_of_closed (closed : l.isOpen = false) :
    l.hear = (.error (.line .notConnected), l) := by
  unfold hear read
  rw [closed]
  rfl

/-- Behind a header it is the obstacle that is heard, or what the payload says. -/
theorem hear_eq (connected : l.isOpen = true) {header : ResponseHeader}
    (headed : ResponseHeader.decode (l.arriving.take ResponseHeader.length) = .ok header) :
    match l.obstacle header with
    | some e => l.hear.1 = .error e
    | none => ResponseHeader.length + header.payloadSize.toNat ≤ l.arriving.length ∧
      l.hear = (Response.decode header
          ((l.arriving.drop ResponseHeader.length).take header.payloadSize.toNat),
        { l with arriving :=
            l.arriving.drop (ResponseHeader.length + header.payloadSize.toNat) }) := by
  unfold obstacle
  by_cases known : ∃ c : ResponseCode, c.number = header.code
  · obtain ⟨c, known⟩ := known
    rw [← known, ResponseCode.ofNumber_number]
    simp only
    by_cases large : Response.maxPayload < header.payloadSize.toNat
    · rw [if_pos large, hear_of_large connected headed known large]
    rw [if_neg large]
    have small := Nat.le_of_not_lt large
    by_cases short : l.arriving.length < ResponseHeader.length + header.payloadSize.toNat
    · rw [if_pos short, hear_of_cut connected headed known small short]
    rw [if_neg short]
    have enough := Nat.le_of_not_lt short
    exact ⟨enough, hear_of_whole connected headed known small enough⟩
  · have unknown : ∀ c : ResponseCode, c.number ≠ header.code := fun c h => known ⟨c, h⟩
    rw [ResponseCode.ofNumber_of_unknown unknown, hear_of_unknown connected headed unknown]

/-- A frame at the start of a stream, of which the line has at least the header. -/
theorem headed_of_stream {header : ResponseHeader} {behind later : Bytes}
    (stream : l.arriving ++ later = header.encode ++ behind)
    (enough : ResponseHeader.length ≤ l.arriving.length) :
    ResponseHeader.decode (l.arriving.take ResponseHeader.length) = .ok header := by
  have start := congrArg (List.take ResponseHeader.length) stream
  rw [List.take_append_of_le_length enough, List.take_left' header.encode_length] at start
  rw [start]
  simpa using header.decode_encode []

/-- A whole frame at the start of a stream: its payload, and what is behind it. -/
theorem cut_of_stream {header : ResponseHeader} {payload behind later : Bytes}
    (stream : l.arriving ++ later = header.encode ++ payload ++ behind)
    (full : header.payloadSize.toNat = payload.length)
    (enough : ResponseHeader.length + header.payloadSize.toNat ≤ l.arriving.length) :
    (l.arriving.drop ResponseHeader.length).take header.payloadSize.toNat = payload ∧
      l.arriving.drop (ResponseHeader.length + header.payloadSize.toNat) ++ later = behind := by
  have size : (header.encode ++ payload).length =
      ResponseHeader.length + header.payloadSize.toNat := by
    rw [List.length_append, header.encode_length, full]
  constructor
  · have first : l.arriving.take (ResponseHeader.length + header.payloadSize.toNat) =
        header.encode ++ payload := by
      have whole := congrArg (List.take (ResponseHeader.length + header.payloadSize.toNat)) stream
      rwa [List.take_append_of_le_length enough, List.take_left' size] at whole
    rw [List.take_drop, first]
    exact List.drop_left' header.encode_length
  · rw [← List.drop_append_of_le_length enough, stream, List.drop_left' size]

end Line

/-! ## Lines -/

section

variable [Keyring κ] [Server σ]

/-- Two lines on which a client can tell only session keys apart, now and later. -/
structure Line.Alike (ring : κ) (l l' : Line σ) : Prop where
  isOpen : l.isOpen = l'.isOpen
  conditions : l.conditions = l'.conditions
  count : l.count = l'.count
  ready : l.Ready
  ready' : l'.Ready
  taken : l.taken.map Frame.outline = l'.taken.map Frame.outline
  arriving : l.arriving.length = l'.arriving.length
  said : ∃ texts texts' : List Bytes, Duet l.server l'.server texts texts' ∧
    Echoes ring (l.arriving ++ texts.flatten) (l'.arriving ++ texts'.flatten)

/-- What is heard on two lines: the same error, or responses that resemble one another, and then the
lines stay alike. -/
def Line.HearAlike (ring : κ) (l l' : Line σ) : Prop :=
  Agree (Line.Alike ring) (fun m m' => m.taken.map Frame.outline = m'.taken.map Frame.outline)
    (Response.Resembles ring) l.hear l'.hear

namespace Line.Alike

variable {ring : κ} {l l' : Line σ}

theorem refusal (alike : l.Alike ring l') : l.refusal = l'.refusal := by
  unfold Line.refusal isBroken
  rw [alike.isOpen, alike.conditions, alike.count]

theorem ending (alike : l.Alike ring l') : l.ending = l'.ending := by
  unfold Line.ending
  rw [alike.conditions]

theorem obstacle (alike : l.Alike ring l') (header : ResponseHeader) :
    l.obstacle header = l'.obstacle header := by
  unfold Line.obstacle
  rw [alike.arriving, alike.ending]

/-- Both servers take a frame, and say the next of their texts. -/
theorem give (alike : l.Alike ring l') {f g : Frame} (same : f.outline = g.outline) :
    (l.give f).Alike ring (l'.give g) := by
  obtain ⟨texts, texts', duet, echoes⟩ := alike.said
  refine { isOpen := alike.isOpen, conditions := alike.conditions
           count := congrArg (· + 1) alike.count
           ready := give_ready alike.ready f, ready' := give_ready alike.ready' g
           taken := ?_, arriving := ?_
           said := ⟨texts.tail, texts'.tail, duet.next f g, ?_⟩ }
  · rw [give_taken, give_taken, List.map_cons, List.map_cons, same, alike.taken]
  · rw [give_arriving, give_arriving, List.length_append, List.length_append, alike.arriving,
      duet.answer_length f g]
  · rw [give_arriving, give_arriving, List.append_assoc, List.append_assoc,
      duet.recites.flatten_eq, duet.recites'.flatten_eq]
    exact echoes

/-- Behind the same header both clients hear the same error, or what their payloads say. -/
theorem hear_headed (alike : l.Alike ring l') (connected : l.isOpen = true)
    {header : ResponseHeader}
    (headed : ResponseHeader.decode (l.arriving.take ResponseHeader.length) = .ok header)
    (headed' : ResponseHeader.decode (l'.arriving.take ResponseHeader.length) = .ok header) :
    (∃ e, l.hear.1 = .error e ∧ l'.hear.1 = .error e) ∨
    (ResponseHeader.length + header.payloadSize.toNat ≤ l.arriving.length ∧
      l.hear = (Response.decode header
          ((l.arriving.drop ResponseHeader.length).take header.payloadSize.toNat),
        { l with arriving :=
            l.arriving.drop (ResponseHeader.length + header.payloadSize.toNat) }) ∧
      l'.hear = (Response.decode header
          ((l'.arriving.drop ResponseHeader.length).take header.payloadSize.toNat),
        { l' with arriving :=
            l'.arriving.drop (ResponseHeader.length + header.payloadSize.toNat) })) := by
  have first := hear_eq connected headed
  have second := hear_eq (alike.isOpen ▸ connected) headed'
  rw [← alike.obstacle header] at second
  cases h : l.obstacle header with
  | some e =>
    rw [h] at first second
    exact .inl ⟨e, first, second⟩
  | none =>
    rw [h] at first second
    exact .inr ⟨first.1, first.2, second.2⟩

/-- Both clients read on. -/
theorem onward (alike : l.Alike ring l') {texts texts' : List Bytes}
    (duet : Duet l.server l'.server texts texts') (n : Nat)
    (left : Echoes ring (l.arriving.drop n ++ texts.flatten)
      (l'.arriving.drop n ++ texts'.flatten)) :
    Line.Alike ring { l with arriving := l.arriving.drop n }
      { l' with arriving := l'.arriving.drop n } :=
  { alike with
    arriving := by rw [List.length_drop, List.length_drop, alike.arriving]
    said := ⟨texts, texts', duet, left⟩ }

/-- Both clients fail, and have heard nothing that tells their lines apart. -/
theorem failed (alike : l.Alike ring l') {e : Error} (first : l.hear.1 = .error e)
    (second : l'.hear.1 = .error e) : l.HearAlike ring l' := by
  have taken : l.hear.2.taken.map Frame.outline = l'.hear.2.taken.map Frame.outline := by
    rw [hear_taken, hear_taken]
    exact alike.taken
  unfold Line.HearAlike
  rw [show l.hear = (.error e, l.hear.2) from Prod.ext first rfl,
    show l'.hear = (.error e, l'.hear.2) from Prod.ext second rfl]
  exact .error e taken

/-- At the start of both streams is a frame with the same header; what can be understood of the one
payload resembles what can be of the other. -/
theorem hear_frame (alike : l.Alike ring l') (connected : l.isOpen = true)
    (enough : ResponseHeader.length ≤ l.arriving.length) {texts texts' : List Bytes}
    (duet : Duet l.server l'.server texts texts') {header : ResponseHeader}
    {payload payload' xs ys : Bytes}
    (stream : l.arriving ++ texts.flatten = header.encode ++ payload ++ xs)
    (stream' : l'.arriving ++ texts'.flatten = header.encode ++ payload' ++ ys)
    (full : header.payloadSize.toNat = payload.length)
    (full' : header.payloadSize.toNat = payload'.length) (behind : Echoes ring xs ys)
    (read : Concurs (Response.Resembles ring) (Response.decode header payload)
      (Response.decode header payload')) : l.HearAlike ring l' := by
  have headed := Line.headed_of_stream (stream.trans (List.append_assoc ..)) enough
  have headed' := Line.headed_of_stream (stream'.trans (List.append_assoc ..))
    (alike.arriving ▸ enough)
  obtain ⟨e, first, second⟩ | ⟨whole, first, second⟩ := alike.hear_headed connected headed headed'
  · exact alike.failed first second
  obtain ⟨payload₁, left⟩ := Line.cut_of_stream stream full whole
  obtain ⟨payload₂, left'⟩ := Line.cut_of_stream stream' full' (alike.arriving ▸ whole)
  unfold Line.HearAlike
  rw [first, second, payload₁, payload₂]
  generalize Response.decode header payload = outcome at read ⊢
  generalize Response.decode header payload' = outcome' at read ⊢
  cases read with
  | ok resembles =>
    refine .ok resembles (alike.onward duet _ ?_)
    rwa [left, left']
  | error e => exact .error e alike.taken

/-- Both clients hear the same error, or responses that resemble one another. -/
theorem hear (alike : l.Alike ring l') : l.HearAlike ring l' := by
  unfold Line.HearAlike
  cases connected : l.isOpen with
  | false =>
    rw [hear_of_closed connected, hear_of_closed (alike.isOpen ▸ connected)]
    exact .error _ alike.taken
  | true =>
  rcases Nat.lt_or_ge l.arriving.length ResponseHeader.length with short | enough
  · rw [hear_of_short connected short,
      hear_of_short (alike.isOpen ▸ connected) (alike.arriving ▸ short), alike.ending]
    exact .error _ alike.taken
  obtain ⟨texts, texts', duet, echoes⟩ := alike.said
  generalize stream : l.arriving ++ texts.flatten = xs at echoes
  generalize stream' : l'.arriving ++ texts'.flatten = ys at echoes
  cases echoes with
  | same bs =>
    -- nothing is known of frames here, but what waits is the same, and so is what comes later
    obtain ⟨waits, later⟩ := List.append_inj (stream.trans stream'.symm) alike.arriving
    have long : ResponseHeader.length ≤ (l.arriving.take ResponseHeader.length).length := by
      rw [List.length_take]
      omega
    obtain ⟨header, headed⟩ := ResponseHeader.exists_decode long
    obtain ⟨e, first, second⟩ | ⟨-, first, second⟩ :=
      alike.hear_headed connected headed (waits ▸ headed)
    · exact alike.failed first second
    rw [first, second, ← waits]
    cases Response.decode header
      ((l.arriving.drop ResponseHeader.length).take header.payloadSize.toNat) with
    | error e => exact .error e alike.taken
    | ok r =>
      have left := alike.onward duet
        (ResponseHeader.length + header.payloadSize.toNat) (by rw [← waits, later]; exact .same _)
      rw [← waits] at left
      exact .ok (.same r) left
  | frame header payload full behind =>
    refine alike.hear_frame connected enough duet stream stream' full full
      behind ?_
    cases Response.decode header payload with
    | error e => exact .error e
    | ok r => exact .ok (.same r)
  | key header id known carries full even opens opens' behind =>
    refine alike.hear_frame connected enough duet stream stream' full ?_
      behind ?_
    · rw [full, List.length_append, List.length_append, even]
    · rw [Response.decode_key id _ known carries, Response.decode_key id _ known carries]
      exact .ok (.key header _ id opens opens')

end Line.Alike

end

end EncryptedBackup
