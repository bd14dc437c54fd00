/-
An upload on any line. What it does begins with writing the first packet; and if it fails, then
because the line refuses a request, because no response is understood, because the server answers a
file with something else than a checksum, or because its checksum has differed in every attempt
(`Sendable.deals_settle`). Nothing else that is done in between can fail.
-/
import EncryptedBackup.Proofs.Upload.Course
import EncryptedBackup.Proofs.World.Deeds

namespace EncryptedBackup

/-! ## What is done with the line -/

/-- Does a response bring a checksum, and not this one? -/
def Deed.differs (sum : UInt32) : Deed → Bool
  | .heard (.ok r) =>
    match r.checksum with
    | .ok theirs => theirs ≠ sum
    | .error _ => false
  | _ => false

/-- An error has its reason in the last thing that was done: the line refused a request, a response
could not be read or understood, or a response has no checksum. -/
inductive Interrupted : List Deed → Error → Prop where
  | refused (before : List Deed) (f : Frame) (fault : Fault) :
    Interrupted (before ++ [.wrote f (.error fault)]) (.line fault)
  | unheard (before : List Deed) (e : Error) : Interrupted (before ++ [.heard (.error e)]) e
  | uncheckable (before : List Deed) {r : Response} {e : Error} (none : r.checksum = .error e) :
    Interrupted (before ++ [.heard (.ok r)]) e

theorem Interrupted.behind {ds : List Deed} {e : Error} (h : Interrupted ds e)
    (earlier : List Deed) : Interrupted (earlier ++ ds) e := by
  cases h with
  | refused before f fault =>
    rw [← List.append_assoc]
    exact .refused _ f fault
  | unheard before e =>
    rw [← List.append_assoc]
    exact .unheard _ e
  | uncheckable before none =>
    rw [← List.append_assoc]
    exact .uncheckable _ none

/-- What is done begins with writing a frame. -/
def Begins (f : Frame) (ds : List Deed) : Prop := ∃ written rest, ds = .wrote f written :: rest

theorem Begins.append {f : Frame} {ds : List Deed} (h : Begins f ds) (later : List Deed) :
    Begins f (ds ++ later) := by
  obtain ⟨written, rest, rfl⟩ := h
  exact ⟨written, rest ++ later, rfl⟩

/-- Frames are written one after the other, until one is refused. -/
inductive Writing : List Frame → List Deed → Except Fault Unit → Prop where
  | nil : Writing [] [] (.ok ())
  | refused (f : Frame) (fs : List Frame) (fault : Fault) :
    Writing (f :: fs) [.wrote f (.error fault)] (.error fault)
  | wrote (f : Frame) {fs : List Frame} {ds : List Deed} {outcome : Except Fault Unit}
    (rest : Writing fs ds outcome) : Writing (f :: fs) (.wrote f (.ok ()) :: ds) outcome

namespace Writing

variable {fs : List Frame} {ds : List Deed} {outcome : Except Fault Unit}

theorem begins {f : Frame} (h : Writing (f :: fs) ds outcome) : Begins f ds := by
  cases h with
  | refused _ _ fault => exact ⟨_, _, rfl⟩
  | wrote _ rest => exact ⟨_, _, rfl⟩

theorem interrupted {fault : Fault} (h : Writing fs ds (.error fault)) :
    Interrupted ds (.line fault) := by
  generalize failed : Except.error fault = outcome at h
  induction h with
  | nil => cases failed
  | refused f fs fault =>
    cases failed
    exact .refused [] f fault
  | wrote f rest ih => exact (ih failed).behind [_]

/-- While packets are written nothing is heard of a checksum. -/
theorem countP_differs (h : Writing fs ds outcome) (sum : UInt32) :
    ds.countP (Deed.differs sum) = 0 := by
  induction h with
  | nil => rfl
  | refused => rfl
  | wrote f rest ih =>
    rw [List.countP_cons_of_neg (by simp [Deed.differs])]
    exact ih

end Writing

namespace Sendable

variable {κ σ : Type} [Keyring κ] [Server σ] {session : Session κ} {disk : Disk} {path : Path}
  {size : Nat} {w : World σ}

/-- The frame of the first packet. -/
def first (file : Sendable session disk path size) : Frame :=
  .packet session.clientId (file.packet 0)

theorem exists_frames (file : Sendable session disk path size) :
    ∃ rest, file.frames = file.first :: rest := by
  unfold frames
  obtain ⟨n, count⟩ := Nat.exists_eq_succ_of_ne_zero (Nat.ne_of_gt file.count_pos)
  rw [count]
  exact ⟨_, rfl⟩

/-- So many responses have brought another checksum, and one more has answered the last verdict. -/
def GivesUp (file : Sendable session disk path size) (n : Nat) (ds : List Deed) : Prop :=
  ∃ before r, ds = before ++
      [.wrote (file.verdict .checksumDiffersForGood) (.ok ()), .heard (.ok r)] ∧
    before.countP (Deed.differs file.sum) = n

/-- What is done from an attempt on, with what it comes to. -/
structure Dealt (file : Sendable session disk path size) (attempts : Nat) (ds : List Deed)
    (outcome : Except Error Report) : Prop where
  begins : Begins file.first ds
  failure : ∀ e, outcome = .error e →
    Interrupted ds e ∨ e = .checksumsDiffer (Upload.maxResends + 1) ∧ file.GivesUp attempts ds

/-! ## Packets and verdicts -/

/-- The packets from an index on are written, as far as the line takes them. -/
theorem deals_sendSlices (file : Sendable session disk path size) (showProgress : Bool) :
    ∀ (left i : Nat) (w : World σ) (s : Slicer OpenFile), w.disk = disk →
    s.Stands disk file.number size i → i + left = file.count →
    w.Deals ((file.upload showProgress).sendSlices left (.ofNat i) s) fun ds outcome =>
      (∃ s', Writing (file.framesFrom i left) ds (.ok ()) ∧
        s'.Stands disk file.number size file.count ∧ outcome = .ok (.ofNat file.count, s')) ∨
      ∃ fault, Writing (file.framesFrom i left) ds (.error fault) ∧ outcome = .error (.line fault)
  | 0, i, w, s, _, stands, all => by
    obtain rfl : i = file.count := all
    exact .idle rfl (.inl ⟨s, .nil, stands, rfl⟩)
  | left + 1, i, w, s, here, stands, all => by
    have more : i < file.count := by omega
    have enough : i < s.slices := by
      rw [stands.slices]
      exact more
    obtain ⟨s₁, stands₁, next⟩ := Slicer.run_next here stands enough
    obtain ⟨r, made, writes⟩ := file.packetRequest_ok showProgress more
    -- the loop counts in 16 bits, the slices are counted in full
    have number : UInt16.ofNat i + 1 = .ofNat (i + 1) := by simp
    unfold Upload.sendSlices
    refine .andThen next (.andThen (World.run_ofExcept _ _) ?_)
    simp only [number]
    unfold content at made
    rw [made]
    refine .andThen (World.run_ofExcept _ _) ((World.deals_sendRequest _ writes).bind_written ?_ ?_)
    · intro fault
      exact .inr ⟨fault, .refused _ _ fault, rfl⟩
    · intro l log
      refine .andThen (run_showSent _ _) ?_
      refine (deals_sendSlices file showProgress left (i + 1) (w.talked l log) s₁ here stands₁
        (by omega)).mono ?_
      rintro ds outcome (⟨s', writing, stands', rfl⟩ | ⟨fault, writing, rfl⟩)
      · exact .inl ⟨s', .wrote _ writing, stands', rfl⟩
      · exact .inr ⟨fault, .wrote _ writing, rfl⟩

/-- A verdict is written as one frame. -/
theorem deals_tell (file : Sendable session disk path size) (showProgress : Bool) (w : World σ)
    (code : RequestCode) :
    w.Deals ((file.upload showProgress).tell code) (World.Written (file.verdict code)) := by
  obtain ⟨r, made, writes⟩ := Request.plain_writes session.clientId code file.short
  unfold Upload.tell
  rw [show Request.plain (file.upload showProgress).clientId code
    (file.upload showProgress).fileName = .ok r from made]
  exact .andThen (World.run_ofExcept _ _) (World.deals_sendRequest _ writes)

/-- An acknowledgement is one response, whatever it is. -/
theorem deals_readAcknowledgement (w : World σ) :
    w.Deals Upload.readAcknowledgement fun ds outcome =>
      ∃ answer, ds = [.heard answer] ∧ outcome = answer.map fun _ => () := by
  unfold Upload.readAcknowledgement
  refine (World.deals_readResponse w).bind ?_ ?_
  · rintro ds e rfl
    exact ⟨.error e, rfl, rfl⟩
  · rintro ds r l log rfl
    split
    · exact .log _ ⟨.ok r, rfl, rfl⟩
    · exact .idle rfl ⟨.ok r, rfl, rfl⟩

/-- One attempt: the packets are written, and a response is heard if all of them were. -/
inductive Attempted (file : Sendable session disk path size) :
    List Deed → Except Error (UInt32 × Slicer OpenFile) → Prop where
  | refused {ds : List Deed} {fault : Fault} (writing : Writing file.frames ds (.error fault)) :
    Attempted file ds (.error (.line fault))
  | unheard {ds : List Deed} (writing : Writing file.frames ds (.ok ())) (e : Error) :
    Attempted file (ds ++ [.heard (.error e)]) (.error e)
  | uncheckable {ds : List Deed} (writing : Writing file.frames ds (.ok ())) {r : Response}
    {e : Error} (none : r.checksum = .error e) :
    Attempted file (ds ++ [.heard (.ok r)]) (.error e)
  | answered {ds : List Deed} (writing : Writing file.frames ds (.ok ())) {r : Response}
    {theirs : UInt32} (carried : r.checksum = .ok theirs) {s : Slicer OpenFile}
    (stands : s.Stands disk file.number size file.count) :
    Attempted file (ds ++ [.heard (.ok r)]) (.ok (theirs, s))

namespace Attempted

variable {file : Sendable session disk path size} {ds : List Deed}
  {outcome : Except Error (UInt32 × Slicer OpenFile)}

theorem begins (h : file.Attempted ds outcome) : Begins file.first ds := by
  have first {ds : List Deed} {written : Except Fault Unit} (writing : Writing file.frames ds written) :
      Begins file.first ds := by
    obtain ⟨rest, frames⟩ := file.exists_frames
    rw [frames] at writing
    exact writing.begins
  cases h with
  | refused writing => exact first writing
  | unheard writing => exact (first writing).append _
  | uncheckable writing => exact (first writing).append _
  | answered writing => exact (first writing).append _

theorem interrupted {e : Error} (h : file.Attempted ds (.error e)) : Interrupted ds e := by
  cases h with
  | refused writing => exact writing.interrupted
  | unheard writing => exact .unheard _ _
  | uncheckable writing none => exact .uncheckable _ none

theorem told {theirs : UInt32} {s : Slicer OpenFile} (h : file.Attempted ds (.ok (theirs, s))) :
    s.Stands disk file.number size file.count ∧
      ds.countP (Deed.differs file.sum) = if theirs = file.sum then 0 else 1 := by
  cases h with
  | answered writing carried stands =>
    refine ⟨stands, ?_⟩
    rw [List.countP_append, writing.countP_differs]
    by_cases agree : theirs = file.sum
    · simp [Deed.differs, carried, agree]
    · simp [Deed.differs, carried, agree]

end Attempted

theorem deals_sendAll (file : Sendable session disk path size) (showProgress : Bool) {i : Nat}
    {s : Slicer OpenFile} (here : w.disk = disk) (stands : s.Stands disk file.number size i) :
    w.Deals ((file.upload showProgress).sendAll s) file.Attempted := by
  obtain ⟨s₁, stands₁, rewound⟩ := Slicer.run_rewind (w := w) stands
  have packets : s₁.slices = file.count := stands₁.slices
  unfold Upload.sendAll
  refine .andThen rewound (.andThen (World.run_ofExcept _ _) (.andThen (run_showSent _ _) ?_))
  rw [packets]
  refine (file.deals_sendSlices showProgress file.count 0 w s₁ here stands₁ (by omega)).bind ?_ ?_
  · rintro ds e (⟨s', writing, stands', sent⟩ | ⟨fault, writing, failed⟩)
    · cases sent
    · cases failed
      exact .refused writing
  · rintro ds ⟨sent, s'⟩ l log (⟨s', writing, stands', sent⟩ | ⟨fault, writing, failed⟩)
    · cases sent
      refine .logThen _ ((World.deals_readResponse _).bind ?_ ?_)
      · rintro _ e rfl
        exact .unheard writing e
      · rintro _ r l log rfl
        cases carried : r.checksum with
        | error e =>
          refine .idle (World.run_bind_of_error (World.run_ofExcept _ _)) ?_
          exact .uncheckable writing carried
        | ok theirs =>
          exact .andThen (World.run_ofExcept _ _) (.idle rfl (.answered writing carried stands'))
    · cases failed

/-- What follows an acknowledged verdict is done if the verdict is written and a response heard. -/
theorem deals_verdict {β : Type} (file : Sendable session disk path size) (showProgress : Bool)
    (w : World σ) (code : RequestCode) {next : Act (InWorld σ) β}
    {Q : List Deed → Except Error β → Prop}
    (refused : ∀ fault, Q [.wrote (file.verdict code) (.error fault)] (.error (.line fault)))
    (unheard : ∀ e, Q [.wrote (file.verdict code) (.ok ()), .heard (.error e)] (.error e))
    (answered : ∀ r l log, (w.talked l log).Deals next fun ds outcome =>
      Q (.wrote (file.verdict code) (.ok ()) :: .heard (.ok r) :: ds) outcome) :
    w.Deals (do
      (file.upload showProgress).tell code
      Upload.readAcknowledgement
      next) Q := by
  refine (file.deals_tell showProgress w code).bind_written refused ?_
  intro l log
  refine (deals_readAcknowledgement _).bind ?_ ?_
  · rintro ds e ⟨answer, rfl, failed⟩
    cases answer with
    | ok r => cases failed
    | error e =>
      cases failed
      exact unheard e
  · rintro ds _ l log ⟨answer, rfl, succeeded⟩
    cases answer with
    | ok r => exact answered r l log
    | error e => cases succeeded

/-! ## Attempts -/

theorem Dealt.of_ok {file : Sendable session disk path size} {n : Nat} {ds : List Deed}
    (begins : Begins file.first ds) (report : Report) : file.Dealt n ds (.ok report) :=
  ⟨begins, nofun⟩

theorem Dealt.of_interrupted {file : Sendable session disk path size} {n : Nat} {ds : List Deed}
    {e : Error} (begins : Begins file.first ds) (interrupted : Interrupted ds e) :
    file.Dealt n ds (.error e) :=
  ⟨begins, fun _ same => .inl (Except.error.inj same ▸ interrupted)⟩

/-- What is done from an attempt on, if that is so for the attempts that follow. -/
theorem deals_attempt (file : Sendable session disk path size) (showProgress : Bool)
    {resends attempt i : Nat} {s : Slicer OpenFile} (here : w.disk = disk)
    (stands : s.Stands disk file.number size i)
    (bound : resends + attempt = Upload.maxResends + 1)
    (later : ∀ n, resends = n + 1 → ∀ (l : Line σ) log (s : Slicer OpenFile),
      s.Stands disk file.number size file.count →
      (w.talked l log).Deals ((file.upload showProgress).settle n (attempt + 1) s)
        (file.Dealt (n + 1))) :
    w.Deals ((file.upload showProgress).settle resends attempt s) (file.Dealt (resends + 1)) := by
  unfold Upload.settle
  refine (file.deals_sendAll showProgress here stands).bind ?_ ?_
  · rintro ds e attempted
    exact .of_interrupted attempted.begins attempted.interrupted
  · rintro ds ⟨theirs, s'⟩ l log attempted
    have begins := attempted.begins
    obtain ⟨stands', told⟩ := attempted.told
    have refused (f : Frame) (fault : Fault) : file.Dealt (resends + 1)
        (ds ++ [.wrote f (.error fault)]) (.error (.line fault)) :=
      .of_interrupted (begins.append _) (.refused ds f fault)
    have unheard (d : Deed) (e : Error) : file.Dealt (resends + 1)
        (ds ++ [d, .heard (.error e)]) (.error e) :=
      .of_interrupted (begins.append _) ((Interrupted.unheard [d] e).behind ds)
    simp only
    by_cases agree : theirs = (file.upload showProgress).checksum
    · rw [if_pos agree]
      refine file.deals_verdict showProgress _ _ (refused _) (unheard _) fun r l log => ?_
      refine .andThen (World.run_sure _ _) (.logThen _ ?_)
      exact .idle rfl (.of_ok (begins.append _) _)
    · rw [if_neg agree]
      rw [if_neg (show theirs ≠ file.sum from agree)] at told
      refine .logThen _ ?_
      cases resends with
      | zero =>
        refine file.deals_verdict showProgress _ _ (refused _) (unheard _) fun r l log => ?_
        refine .idle rfl ⟨begins.append _, ?_⟩
        rintro _ ⟨⟩
        refine .inr ⟨?_, ds, r, rfl, told⟩
        rw [← bound, Nat.zero_add]
      | succ resends =>
        refine (file.deals_tell showProgress _ _).bind_written (refused _) fun l log => ?_
        refine (later resends rfl l log s' stands').mono ?_
        intro ds' outcome dealt
        refine ⟨begins.append _, fun e failed => ?_⟩
        rcases dealt.failure e failed with interrupted | ⟨rfl, before, r, rfl, count⟩
        · exact .inl ((interrupted.behind [_]).behind ds)
        · refine .inr ⟨rfl, ds ++ .wrote (file.verdict .checksumDiffers) (.ok ()) :: before, r,
            by simp, ?_⟩
          rw [List.countP_append, List.countP_cons_of_neg (by simp [Deed.differs]), told, count]
          omega

/-- From any attempt on, an upload fails only for the reasons that there are. -/
theorem deals_settle (file : Sendable session disk path size) (showProgress : Bool) :
    ∀ (resends attempt : Nat) (w : World σ) (s : Slicer OpenFile) (i : Nat), w.disk = disk →
    s.Stands disk file.number size i → resends + attempt = Upload.maxResends + 1 →
    w.Deals ((file.upload showProgress).settle resends attempt s) (file.Dealt (resends + 1))
  | 0, _, _, _, _, here, stands, bound => file.deals_attempt showProgress here stands bound nofun
  | resends + 1, attempt, w, _, _, here, stands, bound => by
    refine file.deals_attempt showProgress here stands bound ?_
    rintro n same l log s stands
    cases same
    exact deals_settle file showProgress resends (attempt + 1) (w.talked l log) s _ here stands
      (by omega)

end Sendable

end EncryptedBackup
