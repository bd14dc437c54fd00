/-
Orders and spellings of options. A line that spells wishes has them granted one by one, however they
are spelled (`reads_of_spells`). So what it comes to follows from the wishes alone, in whatever order
they stand, and a line with an option twice is refused (`options_in_any_order`).
-/
import EncryptedBackup.Proofs.CommandLine.Mentions

namespace EncryptedBackup.CommandLine

open Text

/-! ## Spellings -/

/-- The long name of an option with a value. -/
def Setting.name : Setting → String
  | .jobPath => "transfer-info"
  | .identityPath => "me-info"
  | .sliceSize => "chunk-size"

/-- The ways to write an option by its name: with the value in the next argument, where it must not
look like an option, or behind an equals sign. -/
inductive Named (s : Setting) (value : String) : List String → Prop where
  | apart (dashless : value.toList.head? ≠ some '-') : Named s value ["--" ++ s.name, value]
  | joined : Named s value ["--" ++ s.name ++ "=" ++ value]

/-- The ways to write the size of a slice by its letter. -/
inductive Lettered (digits : String) : List String → Prop where
  | apart : Lettered digits ["-c", digits]
  | attached : Lettered digits ["-c" ++ digits]
  | joined : Lettered digits ["-c" ++ ("=" ++ digits)]

/-- The ways to write an option without a value. -/
inductive Switched : Wish → String → Prop where
  | noProgress : Switched .noProgress "--no-progress"
  | verbose : Switched .verbose "--verbose"
  | letter : Switched .verbose "-v"

/-- A line spells wishes in this order. -/
inductive Spells : List Wish → List String → Prop where
  | none : Spells [] []
  | named {s : Setting} {value : String} {w : Wish} {ws : List Wish} {first rest : List String}
    (means : Means s value w) (named : Named s value first) (more : Spells ws rest) :
    Spells (w :: ws) (first ++ rest)
  | lettered {digits : String} {w : Wish} {ws : List Wish} {first rest : List String}
    (means : Means .sliceSize digits w) (lettered : Lettered digits first) (more : Spells ws rest) :
    Spells (w :: ws) (first ++ rest)
  | switched {w : Wish} {ws : List Wish} {first : String} {rest : List String}
    (switched : Switched w first) (more : Spells ws rest) : Spells (w :: ws) (first :: rest)
  /-- The letter `v` may be joined in front of a `c` that follows it. -/
  | cluster {t : String} {ws : List Wish} {rest : List String}
    (apart : Spells ws ("-v" :: ("-c" ++ t) :: rest)) : Spells ws (("-vc" ++ t) :: rest)

/-! ## Single arguments -/

/-- An argument asks for an option, with its value or still without. -/
structure Asks (argument : String) (s : Setting) (value : Option String) : Prop where
  take : ∀ p : Progress, p.take argument = p.setTo s value
  mentioned : mentioned argument = [.inl s]

section

variable {argument value digits : String} {s : Setting} {w : Wish}

theorem asks_name (s : Setting) : Asks ("--" ++ s.name) s none := by
  cases s
  all_goals exact ⟨fun _ => rfl, rfl⟩

theorem asks_name_value (s : Setting) (value : String) :
    Asks ("--" ++ s.name ++ "=" ++ value) s (some value) := by
  have chars : ("--" ++ s.name ++ "=" ++ value).toList =
      '-' :: '-' :: (s.name.toList ++ '=' :: value.toList) := by
    simp [String.toList_append]
  have behind (p : Progress) : p.named (s.name.toList ++ '=' :: value.toList) =
      p.setTo s (some (String.ofList value.toList)) := by
    cases s <;> rfl
  refine ⟨fun p => ?_, ?_⟩
  · rw [Progress.take_of_name chars, behind, String.ofList_toList]
  · rw [mentioned_of_name chars]
    cases s <;> rfl

theorem asks_letter {cs : List Char} (chars : argument.toList = '-' :: 'c' :: cs) :
    Asks argument .sliceSize (Progress.attached? cs) := by
  refine ⟨fun p => ?_, ?_⟩
  · rw [Progress.take_of_letters chars (by decide)]
    rfl
  · rw [mentioned_of_letters chars (by decide)]
    rfl

/-- Digits begin neither like an option nor like what stands behind an equals sign. -/
theorem exists_cons_of_denotes {n : Nat} (denoted : Decimal.Denotes digits n) :
    ∃ c cs, digits.toList = c :: cs ∧ c ≠ '-' ∧ c ≠ '=' := by
  obtain ⟨ds, behind, some, all, -⟩ := denoted
  rcases behind with signed | ⟨chars, -⟩
  · exact ⟨'+', ds, signed, by decide, by decide⟩
  · cases ds with
    | nil => exact absurd rfl some
    | cons d ds =>
      obtain ⟨digit, -⟩ := Decimal.Digits.of_cons all
      refine ⟨d, ds, chars, ?_, ?_⟩
      · rintro rfl
        cases digit
      · rintro rfl
        cases digit

theorem attached?_of_ne {c : Char} (other : c ≠ '=') (cs : List Char) :
    Progress.attached? (c :: cs) = some (String.ofList (c :: cs)) := by
  unfold Progress.attached?
  split
  · contradiction
  · rename_i same
    cases same
    exact absurd rfl other
  · rfl

theorem asks_letter_attached (means : Means .sliceSize digits w) :
    Asks ("-c" ++ digits) .sliceSize (some digits) := by
  cases means with
  | sliceSize denoted =>
    obtain ⟨c, cs, chars, -, other⟩ := exists_cons_of_denotes denoted
    have behind : ("-c" ++ digits).toList = '-' :: 'c' :: c :: cs := by
      rw [String.toList_append, chars]
      rfl
    have asks := asks_letter behind
    rwa [attached?_of_ne other, ← chars, String.ofList_toList] at asks

theorem asks_letter_joined (digits : String) :
    Asks ("-c" ++ ("=" ++ digits)) .sliceSize (some digits) := by
  have chars : ("-c" ++ ("=" ++ digits)).toList = '-' :: 'c' :: '=' :: digits.toList := by
    rw [String.toList_append, String.toList_append]
    rfl
  have asks := asks_letter chars
  rwa [show Progress.attached? ('=' :: digits.toList) = some (String.ofList digits.toList) from rfl,
    String.ofList_toList] at asks

/-- An option without a value is granted as soon as what stands before it is settled. -/
structure Turns (argument : String) (w : Wish) : Prop where
  take : ∀ p : Progress, p.take argument = p.resolve >>= fun q => q.grant w
  mentioned : mentioned argument = [w.option]

theorem take_of_v {cs : List Char} (chars : argument.toList = '-' :: 'v' :: cs) (p : Progress) :
    p.take argument = p.turnOn .verbose >>= fun q => q.letters cs := by
  rw [Progress.take_of_letters chars (by decide), Progress.letters_of_switch rfl]

theorem turns_of_switched (switched : Switched w argument) : Turns argument w := by
  cases switched with
  | noProgress => exact ⟨fun _ => rfl, rfl⟩
  | verbose => exact ⟨fun _ => rfl, rfl⟩
  | letter => exact ⟨fun p => (take_of_v rfl p).trans (bind_pure _), rfl⟩

/-- A value stands alone. -/
theorem alone_of_dashless (dashless : value.toList.head? ≠ some '-') (c : Char) (cs : List Char) :
    value.toList ≠ '-' :: c :: cs := by
  intro chars
  rw [chars] at dashless
  exact dashless rfl

theorem dashless_of_means (means : Means .sliceSize digits w) :
    digits.toList.head? ≠ some '-' := by
  cases means with
  | sliceSize denoted =>
    obtain ⟨c, cs, chars, other, -⟩ := exists_cons_of_denotes denoted
    rw [chars]
    simpa using other

end

/-! ## Lines -/

/-- A line reads as wishes: it settles what is not settled, has them granted, and mentions their
options. -/
structure Reads (args : List String) (ws : List Wish) : Prop where
  takeAll : ∀ p : Progress, p.takeAll args = p.resolve >>= fun q => q.grantAll ws
  mentioned : args.flatMap mentioned = ws.map Wish.option

namespace Reads

section

variable {argument value t : String} {args : List String} {s : Setting} {w : Wish} {ws : List Wish}

theorem nil : Reads [] [] := ⟨fun _ => (bind_pure _).symm, rfl⟩

/-- With nothing to settle, the wishes are granted. -/
theorem idle (reads : Reads args ws) {p : Progress} (idle : p.pending = none) :
    p.takeAll args = p.grantAll ws := by
  rw [reads.takeAll, Progress.resolve_of_idle idle]
  rfl

/-- A wish is granted, and then what follows. -/
theorem grant (reads : Reads args ws) {p : Progress} (idle : p.pending = none) (w : Wish) :
    (p.grant w >>= fun q => q.takeAll args) = p.grantAll (w :: ws) := by
  rw [Progress.grantAll_cons]
  cases granted : p.grant w with
  | error usage => rfl
  | ok q => exact reads.idle ((Progress.pending_of_grant granted).trans idle)

theorem turned (reads : Reads args ws) (turns : Turns argument w) :
    Reads (argument :: args) (w :: ws) := by
  refine ⟨fun p => ?_, ?_⟩
  · rw [Progress.takeAll_cons (ne_of_mentioned turns.mentioned), turns.take, bind_assoc]
    cases settled : p.resolve with
    | error usage => rfl
    | ok q => exact reads.grant (Progress.pending_of_resolve settled) w
  · rw [List.flatMap_cons, turns.mentioned, reads.mentioned]
    rfl

theorem asked (reads : Reads args ws) (means : Means s value w)
    (asks : Asks argument s (some value)) : Reads (argument :: args) (w :: ws) := by
  refine ⟨fun p => ?_, ?_⟩
  · rw [Progress.takeAll_cons (ne_of_mentioned asks.mentioned), asks.take, Progress.setTo, bind_assoc]
    cases settled : p.resolve with
    | error usage => rfl
    | ok q =>
      show (q.assign s value >>= fun r => r.takeAll args) = _
      rw [Progress.assign_of_means means]
      exact reads.grant (Progress.pending_of_resolve settled) w
  · rw [List.flatMap_cons, asks.mentioned, reads.mentioned, List.map_cons, means.option_eq]
    rfl

theorem asked_apart (reads : Reads args ws) (means : Means s value w)
    (dashless : value.toList.head? ≠ some '-') (asks : Asks argument s none) :
    Reads (argument :: value :: args) (w :: ws) := by
  have alone := alone_of_dashless dashless
  have plain : value ≠ "--" := by
    rintro rfl
    exact dashless rfl
  refine ⟨fun p => ?_, ?_⟩
  · rw [Progress.takeAll_cons (ne_of_mentioned asks.mentioned), asks.take, Progress.setTo, bind_assoc]
    cases settled : p.resolve with
    | error usage => rfl
    | ok q =>
      have idle := Progress.pending_of_resolve settled
      show { q with pending := some (s, none) }.takeAll (value :: args) = _
      rw [Progress.takeAll_cons plain, Progress.take_of_other alone]
      show { q with pending := some (s, some value) }.takeAll args = _
      rw [reads.takeAll, Progress.resolve_of_waiting idle, Progress.assign_of_means means]
      rfl
  · rw [List.flatMap_cons, List.flatMap_cons, asks.mentioned, mentioned_of_other alone,
      reads.mentioned, List.map_cons, means.option_eq]
    rfl

/-- Joined letters are read one by one. -/
theorem joined (reads : Reads ("-v" :: ("-c" ++ t) :: args) ws) :
    Reads (("-vc" ++ t) :: args) ws := by
  have joint : ("-vc" ++ t).toList = '-' :: 'v' :: 'c' :: t.toList := by simp [String.toList_append]
  have single : ("-c" ++ t).toList = '-' :: 'c' :: t.toList := by simp [String.toList_append]
  have both := mentioned_of_letters joint (by decide)
  have one := mentioned_of_letters single (by decide)
  refine ⟨fun p => ?_, ?_⟩
  · rw [← reads.takeAll, Progress.takeAll_cons (ne_of_mentioned both), take_of_v joint,
      Progress.takeAll_cons (by decide), @take_of_v "-v" [] rfl, bind_assoc, bind_assoc]
    refine congrArg _ (funext fun q => ?_)
    show _ = q.takeAll (("-c" ++ t) :: args)
    rw [Progress.takeAll_cons (ne_of_mentioned one), Progress.take_of_letters single (by decide)]
  · rw [← reads.mentioned, List.flatMap_cons, List.flatMap_cons, List.flatMap_cons, both, one]
    rfl

end

end Reads

section

variable {args : List String} {ws : List Wish}

/-- A line that spells wishes reads as them. -/
theorem reads_of_spells (spells : Spells ws args) : Reads args ws := by
  induction spells with
  | none => exact .nil
  | named means named _ ih =>
    cases named with
    | apart dashless => exact ih.asked_apart means dashless (asks_name _)
    | joined => exact ih.asked means (asks_name_value _ _)
  | lettered means lettered _ ih =>
    cases lettered with
    | apart => exact ih.asked_apart means (dashless_of_means means) (@asks_letter "-c" [] rfl)
    | attached => exact ih.asked means (asks_letter_attached means)
    | joined => exact ih.asked means (asks_letter_joined _)
  | switched switched _ ih => exact ih.turned (turns_of_switched switched)
  | cluster _ ih => exact ih.joined

theorem parse_of_spells (spells : Spells ws args) :
    parse args = (Progress.grantAll {} ws).map Progress.finish := by
  unfold parse
  rw [(reads_of_spells spells).idle rfl]

end

/-! ## Any order -/

/-- Options in any order. A line that spells wishes, each option once at most, is accepted, in
whatever order and in whatever way they are spelled, and comes to their outcome: the values that were
asked for, and the defaults of the other options. With two wishes for one option it is refused for the
repetition; and any line at all is refused that mentions an option twice, as a line that spells wishes
mentions just theirs. -/
theorem options_in_any_order :
    (∀ (wishes : Wishes) (ws : List Wish) (args : List String), ws.Perm wishes.toList →
      Spells ws args → parse args = .ok wishes.outcome) ∧
    (∀ (ws : List Wish) (args : List String) (o : Setting ⊕ Switch), Spells ws args →
      2 ≤ ws.countP (·.option = o) → parse args = .error .repeated) ∧
    (∀ (ws : List Wish) (args : List String), Spells ws args →
      args.flatMap mentioned = ws.map Wish.option) ∧
    ∀ (args : List String) (o : Setting ⊕ Switch), 2 ≤ (args.flatMap mentioned).countP (· = o) →
      ∃ usage, parse args = .error usage := by
  refine ⟨fun wishes ws args order spells => ?_, fun ws args o spells twice => ?_,
    fun ws args spells => (reads_of_spells spells).mentioned, fun args o => refused_of_twice⟩
  · obtain ⟨p, granted, finished⟩ := Progress.grantAll_toList wishes
    rw [parse_of_spells spells, Progress.grantAll_perm order, granted, ← finished]
    rfl
  · rw [parse_of_spells spells, Progress.grantAll_of_twice twice]
    rfl

/-- The same options twice over, a line that sets the size of slices twice, and one that mentions `-v`
in the place of a value and in a cluster. -/
theorem options_in_any_order_mixed :
    (parse ["-vc=0100", "--no-progress", "--me-info", "=me"] =
        .ok ⟨⟨.ofText "transfer.info", .ofText "=me", ⟨100, false⟩⟩, true⟩ ∧
      parse ["--me-info==me", "-c", "100", "--verbose", "--no-progress"] =
        .ok ⟨⟨.ofText "transfer.info", .ofText "=me", ⟨100, false⟩⟩, true⟩) ∧
    parse ["-c7", "-v", "--chunk-size=7"] = .error .repeated ∧
    ["-c7", "-v", "--chunk-size=7"].flatMap mentioned =
      [.inl .sliceSize, .inr .verbose, .inl .sliceSize] ∧
    ∃ usage, parse ["--transfer-info", "-v", "job", "-vc7"] = .error usage := by
  obtain ⟨accepted, repeated, options, refused⟩ := options_in_any_order
  have digits {t : String} {n : Nat} (number : numberValue t = .ok n) : Decimal.Denotes t n :=
    (numberValue_eq_ok_iff.1 number).1
  let wishes : Wishes :=
    { identityPath := some "=me", sliceSize := some 100, noProgress := true, verbose := true }
  have first : Spells [.verbose, .sliceSize 100, .noProgress, .identityPath "=me"]
      ["-vc=0100", "--no-progress", "--me-info", "=me"] := by
    have size : Lettered "0100" ["-c=0100"] := .joined
    have path : Named .identityPath "=me" ["--me-info", "=me"] := .apart (by decide)
    exact @Spells.cluster "=0100" _ _ (.switched .letter (.lettered (.sliceSize (digits rfl)) size
      (.switched .noProgress (.named (.identityPath (by decide)) path .none))))
  have second : Spells [.identityPath "=me", .sliceSize 100, .verbose, .noProgress]
      ["--me-info==me", "-c", "100", "--verbose", "--no-progress"] := by
    have path : Named .identityPath "=me" ["--me-info==me"] := .joined
    exact .named (.identityPath (by decide)) path (.lettered (.sliceSize (digits rfl)) .apart
      (.switched .verbose (.switched .noProgress .none)))
  have twice : Spells [.sliceSize 7, .verbose, .sliceSize 7] ["-c7", "-v", "--chunk-size=7"] := by
    have size : Lettered "7" ["-c7"] := .attached
    have again : Named .sliceSize "7" ["--chunk-size=7"] := .joined
    exact .lettered (.sliceSize (digits rfl)) size (.switched .letter
      (.named (.sliceSize (digits rfl)) again .none))
  exact ⟨⟨accepted wishes _ _ (by decide) first, accepted wishes _ _ (by decide) second⟩,
    repeated _ _ (.inl .sliceSize) twice (by decide), options _ _ twice,
    refused _ (.inr .verbose) (by decide)⟩

end EncryptedBackup.CommandLine
