/-
Wishes and their order. A wish is what one option asks for; it is granted if it is the first for its
option. Of two wishes either may be granted first (`grant_grant`), so what comes of a list of them
does not depend on its order (`grantAll_perm`): all are granted if no option has two
(`grantAll_toList`), and they are refused together otherwise (`grantAll_of_twice`).
-/
import EncryptedBackup.CommandLine
import EncryptedBackup.Proofs.Text.Decimal

namespace EncryptedBackup.CommandLine

open Text

/-! ## Wishes -/

/-- What one option asks for. -/
inductive Wish where
  | jobPath (text : String)
  | identityPath (text : String)
  | sliceSize (size : UInt64)
  | noProgress
  | verbose
  deriving DecidableEq

/-- The option that asks for it. -/
def Wish.option : Wish → Setting ⊕ Switch
  | .jobPath _ => .inl .jobPath
  | .identityPath _ => .inl .identityPath
  | .sliceSize _ => .inl .sliceSize
  | .noProgress => .inr .noProgress
  | .verbose => .inr .verbose

/-- What a line may ask for: each option has one wish at most. -/
structure Wishes where
  jobPath : Option String := none
  identityPath : Option String := none
  sliceSize : Option UInt64 := none
  noProgress : Bool := false
  verbose : Bool := false

namespace Wishes

/-- The wishes one by one. -/
def toList (ws : Wishes) : List Wish :=
  (ws.jobPath.map .jobPath).toList ++ (ws.identityPath.map .identityPath).toList ++
    (ws.sliceSize.map .sliceSize).toList ++ (if ws.noProgress then [.noProgress] else []) ++
    (if ws.verbose then [.verbose] else [])

/-- What is to come of them: the values that were asked for, and the defaults of the other options. -/
def outcome (ws : Wishes) : CommandLine where
  config :=
    { jobPath := .ofText (ws.jobPath.getD "transfer.info")
      identityPath := .ofText (ws.identityPath.getD "me.info")
      upload :=
        { sliceSize := (ws.sliceSize.map UInt64.toNat).getD 1024
          showProgress := !ws.noProgress } }
  verbose := ws.verbose

end Wishes

/-- The wish that an option and the text of its value make. -/
inductive Means : Setting → String → Wish → Prop where
  | jobPath {text : String} (some : text ≠ "") : Means .jobPath text (.jobPath text)
  | identityPath {text : String} (some : text ≠ "") : Means .identityPath text (.identityPath text)
  | sliceSize {digits : String} {size : UInt64} (denoted : Decimal.Denotes digits size.toNat) :
    Means .sliceSize digits (.sliceSize size)

section

variable {s : Setting} {value : String} {w : Wish}

theorem Means.option_eq (means : Means s value w) : w.option = .inl s := by
  cases means <;> rfl

theorem pathValue_of_ne (some : value ≠ "") : pathValue value = .ok (.ofText value) :=
  if_neg some

theorem numberValue_eq_ok_iff {n : Nat} :
    numberValue value = .ok n ↔ Decimal.Denotes value n ∧ n ≤ maxNumber := by
  rw [← Decimal.parse_eq_ok_iff]
  unfold numberValue
  cases Decimal.parse maxNumber value with
  | error defect => exact iff_of_false nofun nofun
  | ok m =>
    show (Except.ok m : Except Usage Nat) = .ok n ↔ _
    rw [Except.ok.injEq, Except.ok.injEq]

end

namespace Progress

/-! ## Granting one wish -/

/-- Has an option what it asks for? -/
def given (p : Progress) : Setting ⊕ Switch → Bool
  | .inl .jobPath => p.jobPath.isSome
  | .inl .identityPath => p.identityPath.isSome
  | .inl .sliceSize => p.sliceSize.isSome
  | .inr .noProgress => p.noProgress
  | .inr .verbose => p.verbose
  | .inr .help => false
  | .inr .version => false

/-- What was read, with a wish. -/
def note (p : Progress) : Wish → Progress
  | .jobPath text => { p with jobPath := some (.ofText text) }
  | .identityPath text => { p with identityPath := some (.ofText text) }
  | .sliceSize size => { p with sliceSize := some size.toNat }
  | .noProgress => { p with noProgress := true }
  | .verbose => { p with verbose := true }

/-- A wish is granted if it is the first for its option. -/
def grant (p : Progress) (w : Wish) : Except Usage Progress :=
  if p.given w.option then .error .repeated else .ok (p.note w)

section

variable {p q : Progress} {a b w : Wish} {o : Setting ⊕ Switch}

theorem given_note : (p.note w).given o = (decide (w.option = o) || p.given o) := by
  cases w <;> rcases o with (_ | _ | _) | (_ | _ | _ | _) <;> rfl

theorem pending_note : (p.note w).pending = p.pending := by
  cases w <;> rfl

theorem note_note (other : a.option ≠ b.option) : (p.note a).note b = (p.note b).note a := by
  cases a <;> cases b <;> simp_all [note, Wish.option]

theorem grant_of_given (again : p.given w.option = true) : p.grant w = .error .repeated :=
  if_pos again

theorem grant_of_new (new : p.given w.option = false) : p.grant w = .ok (p.note w) :=
  if_neg (Bool.eq_false_iff.1 new)

theorem grant_eq_ok_iff : p.grant w = .ok q ↔ p.given w.option = false ∧ q = p.note w := by
  cases again : p.given w.option with
  | true =>
    rw [grant_of_given again]
    exact iff_of_false nofun nofun
  | false =>
    rw [grant_of_new again, Except.ok.injEq]
    exact ⟨fun same => ⟨rfl, same.symm⟩, fun done => done.2.symm⟩

/-- Two wishes in a row are granted if both are new and they are of different options. -/
theorem grant_bind_grant : (p.grant a >>= fun q => q.grant b) =
    if p.given a.option || p.given b.option || decide (a.option = b.option) then .error .repeated
    else .ok ((p.note a).note b) := by
  cases first : p.given a.option with
  | true =>
    rw [grant_of_given first]
    rfl
  | false =>
    rw [grant_of_new first, Bool.false_or, Bool.or_comm, ← given_note]
    rfl

/-- Of two wishes either may be granted first. -/
theorem grant_grant (p : Progress) (a b : Wish) :
    (p.grant a >>= fun q => q.grant b) = p.grant b >>= fun q => q.grant a := by
  rw [grant_bind_grant, grant_bind_grant]
  by_cases same : a.option = b.option
  · rw [decide_eq_true same, decide_eq_true same.symm, Bool.or_true, Bool.or_true]
    rfl
  · rw [note_note same, decide_eq_false same, decide_eq_false (Ne.symm same),
      Bool.or_comm (p.given a.option)]

end

/-! ## Granting many -/

/-- Wishes are granted one after the other. -/
def grantAll (p : Progress) (ws : List Wish) : Except Usage Progress := ws.foldlM grant p

section

variable {p : Progress} {ws ws' : List Wish} {o : Setting ⊕ Switch}

theorem grantAll_cons (p : Progress) (w : Wish) (ws : List Wish) :
    p.grantAll (w :: ws) = p.grant w >>= fun q => q.grantAll ws := rfl

/-- The order of wishes makes no difference. -/
theorem grantAll_perm (order : ws.Perm ws') : ∀ p : Progress, p.grantAll ws = p.grantAll ws' := by
  induction order with
  | nil => exact fun _ => rfl
  | cons w _ ih =>
    intro p
    rw [grantAll_cons, grantAll_cons]
    exact congrArg _ (funext ih)
  | swap a b ws =>
    intro p
    simp only [grantAll_cons]
    rw [← bind_assoc, grant_grant, bind_assoc]
  | trans _ _ ih ih' => exact fun p => (ih p).trans (ih' p)

/-- A wish that is not new is refused, so it is enough that the others are refused behind a new one. -/
theorem grantAll_refused {w : Wish}
    (behind : p.given w.option = false → (p.note w).grantAll ws = .error .repeated) :
    p.grantAll (w :: ws) = .error .repeated := by
  rw [grantAll_cons]
  cases again : p.given w.option with
  | true =>
    rw [grant_of_given again]
    rfl
  | false =>
    rw [grant_of_new again]
    exact behind again

/-- An option that has what it asks for gets nothing more. -/
theorem grantAll_of_given : ∀ {ws : List Wish} {p : Progress}, p.given o = true →
    (∃ w ∈ ws, w.option = o) → p.grantAll ws = .error .repeated
  | [], _, _, ⟨_, mem, _⟩ => nomatch mem
  | w :: ws, p, before, ⟨b, mem, second⟩ => by
    refine grantAll_refused fun new => ?_
    -- the first wish is for another option, so the second one for this is behind it
    rcases List.mem_cons.1 mem with rfl | mem
    · rw [second, before] at new
      cases new
    · exact grantAll_of_given (by rw [given_note, before, Bool.or_true]) ⟨b, mem, second⟩

/-- Wishes with two for one option are not granted. -/
theorem grantAll_of_twice : ∀ {ws : List Wish} {p : Progress},
    2 ≤ ws.countP (·.option = o) → p.grantAll ws = .error .repeated
  | w :: ws, p, twice => by
    refine grantAll_refused fun _ => ?_
    rw [List.countP_cons] at twice
    by_cases same : w.option = o
    · rw [if_pos (decide_eq_true same)] at twice
      obtain ⟨b, mem, second⟩ := List.countP_pos_iff.1 (Nat.le_of_succ_le_succ twice)
      refine grantAll_of_given (o := o) ?_ ⟨b, mem, of_decide_eq_true second⟩
      rw [given_note, decide_eq_true same, Bool.true_or]
    · rw [if_neg (by simpa using same)] at twice
      exact grantAll_of_twice twice

/-- Wishes of which each option has one at most are granted, and come out as they are to. -/
theorem grantAll_toList (ws : Wishes) :
    ∃ p, Progress.grantAll {} ws.toList = .ok p ∧ p.finish = ws.outcome := by
  obtain ⟨job, identity, size, quiet, verbose⟩ := ws
  cases job <;> cases identity <;> cases size <;> cases quiet <;> cases verbose
  all_goals exact ⟨_, rfl, rfl⟩

end

/-! ## Values -/

section

variable {p q : Progress} {s : Setting} {value : String} {w : Wish}

/-- An option with a value is a wish to be granted. -/
theorem assign_of_means (means : Means s value w) : p.assign s value = p.grant w := by
  cases means with
  | jobPath some =>
    unfold assign grant
    rw [pathValue_of_ne some]
    rfl
  | identityPath some =>
    unfold assign grant
    rw [pathValue_of_ne some]
    rfl
  | @sliceSize _ size denoted =>
    unfold assign grant
    rw [numberValue_eq_ok_iff.2 ⟨denoted, Nat.le_of_lt_succ size.toNat_lt⟩]
    rfl

/-- A value makes its option a wish, or is refused whatever was read before. -/
theorem means_or_refused (s : Setting) (value : String) :
    (∃ w, Means s value w) ∨ ∀ p : Progress, ∃ usage, p.assign s value = .error usage := by
  cases s with
  | jobPath =>
    by_cases some : value = ""
    · subst some
      refine .inr fun p => ?_
      unfold assign
      cases p.jobPath <;> exact ⟨_, rfl⟩
    · exact .inl ⟨_, .jobPath some⟩
  | identityPath =>
    by_cases some : value = ""
    · subst some
      refine .inr fun p => ?_
      unfold assign
      cases p.identityPath <;> exact ⟨_, rfl⟩
    · exact .inl ⟨_, .identityPath some⟩
  | sliceSize =>
    cases number : numberValue value with
    | error usage =>
      refine .inr fun p => ?_
      unfold assign
      rw [number]
      cases p.sliceSize <;> exact ⟨_, rfl⟩
    | ok n =>
      obtain ⟨denoted, fits⟩ := numberValue_eq_ok_iff.1 number
      refine .inl ⟨.sliceSize (.ofNat n), .sliceSize ?_⟩
      rwa [UInt64.toNat_ofNat_of_lt' (Nat.lt_succ_of_le fits)]

/-- An option that takes a value has been granted a wish. -/
theorem exists_means_of_assign (done : p.assign s value = .ok q) :
    ∃ w, Means s value w ∧ p.grant w = .ok q := by
  rcases means_or_refused s value with ⟨w, means⟩ | refused
  · exact ⟨w, means, (assign_of_means means).symm.trans done⟩
  · obtain ⟨usage, refused⟩ := refused p
    cases refused.symm.trans done

end

/-! ## Settling -/

section

variable {p q : Progress} {w : Wish} {o : Setting ⊕ Switch}

theorem pending_of_grant (granted : p.grant w = .ok q) : q.pending = p.pending := by
  obtain ⟨-, rfl⟩ := grant_eq_ok_iff.1 granted
  exact pending_note

theorem resolve_of_idle (idle : p.pending = none) : p.resolve = .ok p := by
  unfold resolve
  rw [idle]

/-- A value that came later is settled as one that came at once. -/
theorem resolve_of_waiting (idle : p.pending = none) (s : Setting) (value : String) :
    { p with pending := some (s, some value) }.resolve = p.assign s value := by
  obtain ⟨_, _, _, _, _, _⟩ := p
  cases idle
  rfl

/-- What is settled was so before, or an option with its value has been granted. -/
theorem resolve_cases (settled : p.resolve = .ok q) : p.pending = none ∧ q = p ∨
    ∃ s value w, p.pending = some (s, some value) ∧ Means s value w ∧
      { p with pending := none }.grant w = .ok q := by
  unfold resolve at settled
  cases waiting : p.pending with
  | none =>
    rw [waiting] at settled
    exact .inl ⟨rfl, (Except.ok.inj settled).symm⟩
  | some waiting' =>
    rw [waiting] at settled
    obtain ⟨s, _ | value⟩ := waiting'
    · cases settled
    · obtain ⟨w, means, granted⟩ := exists_means_of_assign settled
      exact .inr ⟨s, value, w, rfl, means, granted⟩

theorem pending_of_resolve (settled : p.resolve = .ok q) : q.pending = none := by
  rcases resolve_cases settled with ⟨idle, rfl⟩ | ⟨s, value, w, -, -, granted⟩
  · exact idle
  · exact pending_of_grant granted

end

end Progress

end EncryptedBackup.CommandLine
