/-
What the verdict that the checksums match rests on. Over any line, whatever the server, an upload
writes it only straight after a response with the file's own checksum (`Confirmed`); so no server
that received a damaged copy, and says so, is ever given it (`sendFile_confirms_undamaged`).
-/
import EncryptedBackup.Proofs.Checksum.Damage
import EncryptedBackup.Proofs.Upload.Preflight

namespace EncryptedBackup

/-! ## Confirmation -/

/-- Whatever frame says that the checksums match comes straight after a response with a checksum. -/
inductive Confirmed (sum : UInt32) : List Deed → Prop where
  | nil : Confirmed sum []
  | heard (outcome : Except Error Response) {ds : List Deed} (rest : Confirmed sum ds) :
    Confirmed sum (.heard outcome :: ds)
  | other {f : Frame} (code : f.header.code ≠ RequestCode.checksumMatches.number)
    (written : Except Fault Unit) {ds : List Deed} (rest : Confirmed sum ds) :
    Confirmed sum (.wrote f written :: ds)
  | matching {r : Response} (told : r.checksum = .ok sum) (f : Frame) (written : Except Fault Unit)
    {ds : List Deed} (rest : Confirmed sum ds) :
    Confirmed sum (.heard (.ok r) :: .wrote f written :: ds)

namespace Confirmed

variable {sum : UInt32} {ds ds' : List Deed}

theorem append (h : Confirmed sum ds) (h' : Confirmed sum ds') : Confirmed sum (ds ++ ds') := by
  induction h with
  | nil => exact h'
  | heard outcome _ ih => exact .heard outcome ih
  | other code written _ ih => exact .other code written ih
  | matching told f written _ ih => exact .matching told f written ih

/-- The response in question. -/
theorem exists_told (h : Confirmed sum ds) : ∀ {before after : List Deed} {f : Frame}
    {written : Except Fault Unit}, ds = before ++ .wrote f written :: after →
    f.header.code = RequestCode.checksumMatches.number →
    ∃ earlier r, before = earlier ++ [.heard (.ok r)] ∧ r.checksum = .ok sum := by
  induction h with
  | nil =>
    intro before after f written split
    cases before with
    | nil => cases split
    | cons d before => cases split
  | heard outcome rest ih =>
    intro before after f written split code
    cases before with
    | nil => cases split
    | cons d before =>
      cases split
      obtain ⟨earlier, r, rfl, told⟩ := ih rfl code
      exact ⟨_ :: earlier, r, rfl, told⟩
  | other differs written rest ih =>
    intro before after f written' split code
    cases before with
    | nil =>
      cases split
      exact absurd code differs
    | cons d before =>
      cases split
      obtain ⟨earlier, r, rfl, told⟩ := ih rfl code
      exact ⟨_ :: earlier, r, rfl, told⟩
  | @matching r told g written ds rest ih =>
    intro before after f written' split code
    match before with
    | [] => cases split
    | [d] =>
      cases split
      exact ⟨[], r, rfl, told⟩
    | d :: d' :: before =>
      cases split
      obtain ⟨earlier, r, rfl, told⟩ := ih rfl code
      exact ⟨_ :: _ :: earlier, r, rfl, told⟩

end Confirmed

/-! ## Uploads -/

theorem Writing.confirmed {fs : List Frame} {ds : List Deed} {outcome : Except Fault Unit}
    (h : Writing fs ds outcome) (sum : UInt32)
    (others : ∀ f ∈ fs, f.header.code ≠ RequestCode.checksumMatches.number) : Confirmed sum ds := by
  induction h with
  | nil => exact .nil
  | refused f fs fault => exact .other (others f List.mem_cons_self) _ .nil
  | wrote f rest ih =>
    exact .other (others f List.mem_cons_self) _
      (ih fun g mem => others g (List.mem_cons_of_mem f mem))

namespace Sendable

variable {κ σ : Type} [Keyring κ] [Server σ] {session : Session κ} {disk : Disk} {path : Path}
  {size : Nat} {file : Sendable session disk path size}

theorem confirmed_of_writing {ds : List Deed} {outcome : Except Fault Unit}
    (h : Writing file.frames ds outcome) (sum : UInt32) : Confirmed sum ds := by
  refine h.confirmed sum fun f mem => ?_
  obtain ⟨i, -, rfl⟩ := List.mem_map.1 mem
  show RequestCode.sendFile.number ≠ RequestCode.checksumMatches.number
  decide

namespace Attempted

theorem confirmed {ds : List Deed} {outcome : Except Error (UInt32 × Slicer OpenFile)}
    (h : file.Attempted ds outcome) (sum : UInt32) : Confirmed sum ds := by
  cases h with
  | refused writing => exact confirmed_of_writing writing sum
  | unheard writing e => exact (confirmed_of_writing writing sum).append (.heard _ .nil)
  | uncheckable writing => exact (confirmed_of_writing writing sum).append (.heard _ .nil)
  | answered writing => exact (confirmed_of_writing writing sum).append (.heard _ .nil)

/-- What is written after an attempt says that the checksums match only if they do. -/
theorem verdict {ds : List Deed} {theirs : UInt32} {s : Slicer OpenFile}
    (h : file.Attempted ds (.ok (theirs, s))) (sum : UInt32) (code : RequestCode)
    (fair : code = .checksumMatches → theirs = sum) (written : Except Fault Unit) {rest : List Deed}
    (later : Confirmed sum rest) :
    Confirmed sum (ds ++ .wrote (file.verdict code) written :: rest) := by
  by_cases matching : code = .checksumMatches
  · cases h with
    | @answered sent writing r _ carried _ _ =>
      rw [List.append_assoc]
      exact (confirmed_of_writing writing sum).append
        (.matching (fair matching ▸ carried) _ written later)
  · refine (h.confirmed sum).append (.other ?_ written later)
    intro same
    have read := congrArg RequestCode.ofNumber? same
    rw [show (file.verdict code).header.code = code.number from rfl, RequestCode.ofNumber?_number,
      RequestCode.ofNumber?_number] at read
    exact matching (Option.some.inj read)

end Attempted

/-- From any attempt on, the verdict that the checksums match comes after a checksum that does. -/
theorem deals_settle_confirmed (file : Sendable session disk path size) (showProgress : Bool) :
    ∀ (resends attempt : Nat) (w : World σ) (s : Slicer OpenFile) (i : Nat), w.disk = disk →
    s.Stands disk file.number size i →
    w.Deals ((file.upload showProgress).settle resends attempt s) fun ds _ =>
      Confirmed file.sum ds
  | resends, attempt, w, s, i, here, stands => by
    unfold Upload.settle
    refine (file.deals_sendAll showProgress here stands).bind
      (fun ds e attempted => attempted.confirmed _) ?_
    rintro ds ⟨theirs, s'⟩ l log attempted
    simp only
    by_cases agree : theirs = (file.upload showProgress).checksum
    · rw [if_pos agree]
      have verdict := attempted.verdict file.sum .checksumMatches fun _ => agree
      refine file.deals_verdict showProgress _ _ (fun fault => verdict _ .nil)
        (fun e => verdict _ (.heard _ .nil)) fun r l log => ?_
      refine .andThen (World.run_sure _ _) (.logThen _ (.idle rfl ?_))
      exact verdict _ (.heard _ .nil)
    · rw [if_neg agree]
      refine .logThen _ ?_
      match resends with
      | 0 =>
        have verdict := attempted.verdict file.sum .checksumDiffersForGood nofun
        refine file.deals_verdict showProgress _ _ (fun fault => verdict _ .nil)
          (fun e => verdict _ (.heard _ .nil)) fun r l log => ?_
        exact .idle rfl (verdict _ (.heard _ .nil))
      | resends + 1 =>
        have verdict := attempted.verdict file.sum .checksumDiffers nofun
        refine (file.deals_tell showProgress _ _).bind_written (fun fault => verdict _ .nil)
          fun l log => ?_
        refine (deals_settle_confirmed file showProgress resends (attempt + 1) (w.talked l log) s' _
          here attempted.told.1).mono fun ds' outcome confirmed => ?_
        exact verdict _ confirmed

end Sendable

/-- Damage changes the checksum. And in every upload, over any line to any server, the verdict that
the checksums match comes straight after a response with the file's checksum, which is that of no
damaged copy. -/
theorem sendFile_confirms_undamaged {κ σ : Type} [Keyring κ] [Server σ] (w : World σ)
    (session : Session κ) (path : Path) (options : UploadOptions) (seals : Seals session.keyring)
    {content : Bytes} (read : w.disk.read path = .ok content) :
    (∀ bs copy, Damaged bs copy → checksum copy ≠ checksum bs) ∧
    ∃ ds outcome l log,
      w.run (Upload.sendFile session path options) = (outcome, w.talked l log) ∧
      w.line.Does ds l ∧ ∀ before f written after, ds = before ++ .wrote f written :: after →
        f.header.code = RequestCode.checksumMatches.number →
        ∃ earlier r, before = earlier ++ [.heard (.ok r)] ∧ r.checksum = .ok (checksum content) ∧
          ∀ copy, r.checksum = .ok (checksum copy) → ¬ Damaged content copy := by
  refine ⟨fun bs copy => checksum_ne_of_damaged, ?_⟩
  have dealt : w.Deals (Upload.sendFile session path options) fun ds _ =>
      Confirmed (checksum content) ds := by
    rcases meets_or_sendable seals w path options with ⟨n, e, -, ran⟩ | ⟨⟨file⟩⟩
    · exact .idle ran .nil
    · obtain ⟨s, log, stands, started⟩ := file.exists_started
      obtain ⟨ds, outcome, l, log', ran, does, confirmed⟩ :=
        file.deals_settle_confirmed options.showProgress Upload.maxResends 1
          (w.talked w.line log) s 0 rfl stands
      rw [Disk.read_of_find file.found] at read
      cases read
      exact ⟨ds, outcome, l, log', started.trans ran, does, confirmed⟩
  obtain ⟨ds, outcome, l, log, ran, does, confirmed⟩ := dealt
  refine ⟨ds, outcome, l, log, ran, does, fun before f written after split code => ?_⟩
  obtain ⟨earlier, r, rfl, told⟩ := confirmed.exists_told split code
  refine ⟨earlier, r, rfl, told, fun copy reported damaged => ?_⟩
  rw [told] at reported
  exact checksum_ne_of_damaged damaged (Except.ok.inj reported).symm

/-- The notes are not confirmed to a server that reports the checksum of a damaged copy. -/
theorem sendFile_confirms_undamaged_notes :
    Damaged [1, 2, 3] [1, 9, 3] ∧ checksum [1, 9, 3] ≠ checksum [1, 2, 3] ∧
    ∃ ds outcome l log,
      sampleWorld.run (Upload.sendFile sampleSession (.ofText "notes") { sliceSize := 2 }) =
        (outcome, sampleWorld.talked l log) ∧
      sampleWorld.line.Does ds l ∧ ∀ earlier r f written after,
        ds = (earlier ++ [.heard (.ok r)]) ++ .wrote f written :: after →
        f.header.code = RequestCode.checksumMatches.number →
        r.checksum ≠ .ok (checksum [1, 9, 3]) := by
  have damaged : Damaged [1, 2, 3] [1, 9, 3] := by
    refine ⟨rfl, by decide, 0, fun i outside => ?_⟩
    have beyond : 3 ≤ i := by omega
    rw [List.getElem?_eq_none beyond, List.getElem?_eq_none beyond]
  have read : sampleWorld.disk.read (.ofText "notes") = .ok [1, 2, 3] := rfl
  obtain ⟨noticed, ds, outcome, l, log, ran, does, confirmed⟩ :=
    sendFile_confirms_undamaged sampleWorld sampleSession (.ofText "notes") { sliceSize := 2 }
      (RsaKeyring.seals _) read
  refine ⟨damaged, noticed _ _ damaged, ds, outcome, l, log, ran, does, ?_⟩
  intro earlier r f written after split code reported
  obtain ⟨earlier', r', same, -, undamaged⟩ := confirmed _ f written after split code
  obtain ⟨-, last⟩ := List.append_inj' same rfl
  cases last
  exact undamaged _ reported damaged

end EncryptedBackup
