/-
A line as a conversation. Between two requests nothing unfinished lies on it (`Ready`); then a
request is refused before its first byte, or its whole frame is given to the server whatever one
write takes (`write_encode`). `hear` is what a client learns that reads one response. `Plays` says
that a line bears out a list of turns.
-/
import EncryptedBackup.Proofs.Wire.Framing
import EncryptedBackup.World.Line

namespace EncryptedBackup

namespace Line

variable {σ : Type}

/-! ## Requests -/

/-- Nothing of an unfinished request lies on the line. -/
def Ready (l : Line σ) : Prop := l.unfinished = []

/-- Why the line takes no request at this time. -/
def refusal (l : Line σ) : Option Fault :=
  if !l.isOpen then some .notConnected else if l.isBroken then some .brokenPipe else none

variable [Server σ]

/-- The server takes one frame and answers it. -/
def give (l : Line σ) (f : Frame) : Line σ := l.deliver [f]

@[simp] theorem give_taken (l : Line σ) (f : Frame) : (l.give f).taken = f :: l.taken := rfl

theorem give_server (l : Line σ) (f : Frame) :
    (l.give f).server = (Server.answer l.server f).2 := rfl

theorem give_arriving (l : Line σ) (f : Frame) :
    (l.give f).arriving = l.arriving ++ (Server.answer l.server f).1 := rfl

theorem give_ready {l : Line σ} (ready : l.Ready) (f : Frame) : (l.give f).Ready := ready

omit [Server σ] in
theorem portions_spec (l : Line σ) {bs : Bytes} (nonempty : bs ≠ []) :
    (l.portions bs).flatten = bs ∧ (∀ p ∈ l.portions bs, p ≠ []) := by
  unfold portions
  split
  · exact ⟨pieces_flatten _ _, fun p h => ne_nil_of_mem_pieces h⟩
  · rw [if_neg nonempty]
    exact ⟨by simp, fun p h => by rwa [List.mem_singleton.1 h]⟩

/-- Once the start of a frame lies on a line that is not broken, the rest of it gets through: the
line can only break behind a whole frame. -/
theorem writePieces_rest {f : Frame} (whole : f.Whole) : ∀ (ps : List Bytes) (l : Line σ) (n : Nat),
    ps ≠ [] → (∀ p ∈ ps, p ≠ []) → l.isBroken = false → l.unfinished = f.encode.take n →
    ps.flatten = f.encode.drop n →
    l.writePieces ps = (.ok (), { l with unfinished := [] }.give f)
  | [], _, _, nonempty, _, _, _, _ => absurd rfl nonempty
  | p :: ps, l, n, _, full, sound, start, rest => by
    -- `n` bytes of the frame lie on the line already, and this piece brings the next ones
    have stream : l.unfinished ++ p = f.encode.take (n + p.length) := by
      have next : p = (f.encode.drop n).take p.length := by rw [← rest]; simp
      rw [start, List.take_add, ← next]
    have positive : 0 < p.length := List.length_pos_iff.2 (full p (by simp))
    have bound : n + (p.length + ps.flatten.length) = f.encode.length := by
      have := congrArg List.length rest
      simp only [List.flatten_cons, List.length_append, List.length_drop] at this
      omega
    unfold writePieces
    rw [sound, if_neg (by simp)]
    unfold absorb
    rw [stream]
    cases ps with
    | nil =>
      simp only [List.flatten_nil, List.length_nil, Nat.add_zero] at bound
      rw [bound, List.take_length, Frame.cut_encode whole]
      rfl
    | cons q qs =>
      -- bytes are still missing, so the server takes nothing yet and the line cannot break
      have more : 0 < (q :: qs).flatten.length := by
        have := List.length_pos_iff.2 (full q (by simp))
        simp
        omega
      rw [Frame.cut_of_short whole (by omega)]
      refine writePieces_rest whole (q :: qs) _ (n + p.length) (by simp)
        (fun r h => full r (List.mem_cons_of_mem p h)) sound rfl ?_
      rw [← List.drop_drop, ← rest]
      simp

/-- A request on a ready line is refused as a whole or given to the server as a whole. -/
theorem write_encode {l : Line σ} (ready : l.Ready) {f : Frame} (whole : f.Whole) :
    l.write f.encode = match l.refusal with
      | some fault => (.error fault, l)
      | none => (.ok (), l.give f) := by
  have nonempty : f.encode ≠ [] := by
    intro nil
    have := f.length_encode
    simp only [nil, List.length_nil, RequestHeader.length] at this
    omega
  obtain ⟨joined, full⟩ := l.portions_spec nonempty
  unfold write refusal
  cases hopen : l.isOpen with
  | false => rfl
  | true =>
    rw [if_pos rfl]
    generalize l.portions f.encode = ps at joined full
    cases ps with
    | nil => exact absurd joined.symm nonempty
    | cons p ps =>
      cases sound : l.isBroken with
      | true =>
        unfold writePieces
        simp [sound]
      | false =>
        rw [writePieces_rest whole (p :: ps) l 0 (by simp) full sound (by rw [ready]; rfl) joined]
        obtain ⟨⟩ := l
        cases ready
        rfl

/-! ## Responses -/

omit [Server σ] in
/-- What a client learns that reads a response, and the line behind it. -/
def hear (l : Line σ) : Except Error Response × Line σ :=
  match l.read ResponseHeader.length with
  | (.error fault, l) => (.error (.line fault), l)
  | (.ok bs, l) =>
    match ResponseHeader.decode bs with
    | .error e => (.error e, l)
    | .ok header =>
      match ResponseCode.ofNumber header.code with
      | .error e => (.error e, l)
      | .ok _ =>
        let size := header.payloadSize.toNat
        if Response.maxPayload < size then (.error (.payloadTooLarge size), l)
        else
          match l.read size with
          | (.error fault, l) => (.error (.line fault), l)
          | (.ok payload, l) => (Response.decode header payload, l)

omit [Server σ] in
theorem read_arriving (l : Line σ) (n : Nat) :
    ∃ bs, (l.read n).2 = { l with arriving := bs } := by
  unfold read
  split
  · exact ⟨_, rfl⟩
  split
  · exact ⟨_, rfl⟩
  · exact ⟨_, rfl⟩

omit [Server σ] in
/-- Hearing takes from what waits on the line and changes nothing else. -/
theorem hear_arriving (l : Line σ) : ∃ bs, l.hear.2 = { l with arriving := bs } := by
  obtain ⟨bs, first⟩ := l.read_arriving ResponseHeader.length
  unfold hear
  split
  · rename_i h
    rw [h] at first
    exact ⟨bs, first⟩
  rename_i h
  rw [h] at first
  simp only at first
  split
  · exact ⟨bs, first⟩
  split
  · exact ⟨bs, first⟩
  simp only
  split
  · exact ⟨bs, first⟩
  -- the payload is read from what the header has left
  subst first
  obtain ⟨bs', second⟩ := Line.read_arriving { l with arriving := bs } _
  split
  · rename_i h
    exact ⟨bs', by rw [← second, h]⟩
  · rename_i h
    exact ⟨bs', by rw [← second, h]⟩

omit [Server σ] in
theorem hear_ready {l : Line σ} (ready : l.Ready) : l.hear.2.Ready := by
  obtain ⟨bs, h⟩ := l.hear_arriving
  rw [h]
  exact ready

omit [Server σ] in
@[simp] theorem hear_taken (l : Line σ) : l.hear.2.taken = l.taken := by
  obtain ⟨bs, h⟩ := l.hear_arriving
  rw [h]

/-- The line is open and never breaks. -/
structure Steady (l : Line σ) : Prop where
  isOpen : l.isOpen = true
  unbroken : l.conditions.breaksAfter = none
  ready : l.Ready

omit [Server σ] in
theorem Steady.refusal {l : Line σ} (steady : l.Steady) : l.refusal = none := by
  unfold Line.refusal isBroken
  rw [steady.isOpen, steady.unbroken]
  rfl

theorem Steady.give {l : Line σ} (steady : l.Steady) (f : Frame) : (l.give f).Steady :=
  ⟨steady.isOpen, steady.unbroken, steady.ready⟩

omit [Server σ] in
theorem Steady.hear {l : Line σ} (steady : l.Steady) : l.hear.2.Steady := by
  obtain ⟨bs, h⟩ := l.hear_arriving
  rw [h]
  exact ⟨steady.isOpen, steady.unbroken, steady.ready⟩

end Line

/-! ## Turns -/

/-- A turn of a conversation, as a client sees it. -/
inductive Turn where
  | sent (f : Frame)
  | heard (outcome : Except Error Response)

/-- The frames that were sent. -/
def Turn.frames (ts : List Turn) : List Frame :=
  ts.filterMap fun
    | .sent f => some f
    | .heard _ => none

namespace Line

variable {σ : Type} [Server σ]

/-- From one line to another the turns are these: each frame sent is given to the server, and what
was heard is what the line then had to say. -/
def Plays : Line σ → List Turn → Line σ → Prop
  | l, [], l' => l = l'
  | l, .sent f :: ts, l' => (l.give f).Plays ts l'
  | l, .heard outcome :: ts, l' => l.hear.1 = outcome ∧ l.hear.2.Plays ts l'

theorem Plays.append : ∀ (ts : List Turn) {ts' : List Turn} {l m n : Line σ},
    l.Plays ts m → m.Plays ts' n → l.Plays (ts ++ ts') n
  | [], _, _, _, _, first, second => by
    cases first
    exact second
  | .sent _ :: ts, _, _, _, _, first, second => Plays.append ts first second
  | .heard _ :: ts, _, _, _, _, first, second => ⟨first.1, Plays.append ts first.2 second⟩

theorem Plays.exists_of_append : ∀ (ts : List Turn) {ts' : List Turn} {l n : Line σ},
    l.Plays (ts ++ ts') n → ∃ m, l.Plays ts m ∧ m.Plays ts' n
  | [], _, l, _, h => ⟨l, rfl, h⟩
  | .sent _ :: ts, _, _, _, h => Plays.exists_of_append ts h
  | .heard _ :: ts, _, _, _, h => by
    obtain ⟨m, first, second⟩ := Plays.exists_of_append ts h.2
    exact ⟨m, ⟨h.1, first⟩, second⟩

/-- What the server takes are the frames sent. -/
theorem Plays.taken : ∀ (ts : List Turn) {l m : Line σ},
    l.Plays ts m → m.taken = (Turn.frames ts).reverse ++ l.taken
  | [], _, _, h => by
    cases h
    rfl
  | .sent f :: ts, l, m, h => by
    rw [Plays.taken ts h]
    simp [Turn.frames]
  | .heard _ :: ts, l, m, h => by
    rw [Plays.taken ts h.2, hear_taken]
    rfl

theorem Plays.steady : ∀ (ts : List Turn) {l m : Line σ}, l.Plays ts m → l.Steady → m.Steady
  | [], _, _, h, steady => by
    cases h
    exact steady
  | .sent f :: ts, _, _, h, steady => Plays.steady ts h (steady.give f)
  | .heard _ :: ts, _, _, h, steady => Plays.steady ts h.2 steady.hear

end Line

end EncryptedBackup
