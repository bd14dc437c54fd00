/-
The options that a line mentions. What was read has each option once, and an argument that is accepted
adds just the options that it mentions (`tally_take`). So a line that mentions an option twice is
refused, whatever else stands in it (`refused_of_twice`).
-/
import EncryptedBackup.Proofs.CommandLine.Wishes
import EncryptedBackup.Proofs.Wire.Fields

namespace EncryptedBackup.CommandLine

/-! ## Mentioned options -/

/-- The options that letters stand for. Behind one that takes a value stands its value. -/
def lettered : List Char → List (Setting ⊕ Switch)
  | [] => []
  | c :: cs =>
    match short? c with
    | none => []
    | some (.inl s) => [.inl s]
    | some (.inr w) => .inr w :: lettered cs

/-- The options that an argument mentions: one by its name behind two dashes, any number by their
letters behind one. -/
def mentioned (argument : String) : List (Setting ⊕ Switch) :=
  match argument.toList with
  | '-' :: '-' :: cs => (long? (String.ofList (cs.takeWhile (· ≠ '=')))).toList
  | '-' :: cs => lettered cs
  | _ => []

section

variable {argument : String} {c : Char} {cs : List Char}

theorem argument_cases (argument : String) : (∃ cs, argument.toList = '-' :: '-' :: cs) ∨
    (∃ c cs, argument.toList = '-' :: c :: cs ∧ c ≠ '-') ∨
    ∀ c cs, argument.toList ≠ '-' :: c :: cs := by
  by_cases dashed : ∃ c cs, argument.toList = '-' :: c :: cs
  · obtain ⟨c, cs, chars⟩ := dashed
    by_cases dash : c = '-'
    · subst dash
      exact .inl ⟨cs, chars⟩
    · exact .inr (.inl ⟨c, cs, chars, dash⟩)
  · exact .inr (.inr fun c cs chars => dashed ⟨c, cs, chars⟩)

theorem mentioned_of_name (chars : argument.toList = '-' :: '-' :: cs) :
    mentioned argument = (long? (String.ofList (cs.takeWhile (· ≠ '=')))).toList := by
  unfold mentioned
  rw [chars]
  rfl

theorem mentioned_of_letters (chars : argument.toList = '-' :: c :: cs) (other : c ≠ '-') :
    mentioned argument = lettered (c :: cs) := by
  unfold mentioned
  rw [chars]
  split
  · rename_i same
    cases same
    exact absurd rfl other
  · rename_i same
    cases same
    rfl
  · rename_i never
    exact absurd rfl (never _)

theorem mentioned_of_other (alone : ∀ c cs, argument.toList ≠ '-' :: c :: cs) :
    mentioned argument = [] := by
  unfold mentioned
  split
  · rename_i chars
    exact absurd chars (alone _ _)
  · rename_i cs _ chars
    cases cs with
    | nil => rfl
    | cons c cs => exact absurd chars (alone _ _)
  · rfl

/-- The end of the options mentions none. -/
theorem ne_of_mentioned {o : Setting ⊕ Switch} {os : List (Setting ⊕ Switch)}
    (some : mentioned argument = o :: os) : argument ≠ "--" := by
  rintro rfl
  cases some

theorem Progress.take_of_name (chars : argument.toList = '-' :: '-' :: cs) (p : Progress) :
    p.take argument = p.named cs := by
  unfold take
  rw [chars]
  rfl

theorem Progress.take_of_letters (chars : argument.toList = '-' :: c :: cs) (other : c ≠ '-')
    (p : Progress) : p.take argument = p.letters (c :: cs) := by
  unfold take
  rw [chars]
  split
  · rename_i same
    cases same
    exact absurd rfl other
  · rename_i same
    cases same
    rfl
  · rename_i never
    exact absurd rfl (never _ _)

theorem Progress.take_of_other (alone : ∀ c cs, argument.toList ≠ '-' :: c :: cs) (p : Progress) :
    p.take argument = p.standalone argument := by
  unfold take
  split
  · rename_i chars
    exact absurd chars (alone _ _)
  · rename_i chars
    exact absurd chars (alone _ _)
  · rfl

/-- The letters behind one that takes no value are read when it has been turned on. -/
theorem Progress.letters_of_switch {x : Switch} (known : short? c = some (.inr x)) (cs : List Char)
    (p : Progress) : p.letters (c :: cs) = p.turnOn x >>= fun q => q.letters cs := by
  rw [letters, known]
  simp only
  cases p.turnOn x <;> rfl

theorem Progress.takeAll_cons (other : argument ≠ "--") (args : List String) (p : Progress) :
    p.takeAll (argument :: args) = p.take argument >>= fun q => q.takeAll args := by
  rw [takeAll]
  · cases p.take argument <;> rfl
  · exact other

end

namespace Progress

/-- How often an option was read, a time when its value is still to be settled included. -/
def tally (p : Progress) (o : Setting ⊕ Switch) : Nat :=
  (p.given o).toNat + p.pending.toList.countP fun waiting => .inl waiting.1 = o

section

variable {p q : Progress} {w : Wish} {o : Setting ⊕ Switch}

theorem tally_of_idle (idle : p.pending = none) : p.tally o = (p.given o).toNat := by
  unfold tally
  rw [idle]
  rfl

theorem tally_grant (granted : p.grant w = .ok q) :
    q.tally o = p.tally o + [w.option].countP (· = o) := by
  obtain ⟨new, rfl⟩ := grant_eq_ok_iff.1 granted
  unfold tally
  rw [given_note, pending_note]
  by_cases same : w.option = o
  · subst same
    simp [new]
    omega
  · simp [same]

theorem tally_resolve (settled : p.resolve = .ok q) : q.tally o = p.tally o := by
  rcases resolve_cases settled with ⟨-, rfl⟩ | ⟨s, value, w, waiting, means, granted⟩
  · rfl
  · rw [tally_grant granted, means.option_eq, tally_of_idle rfl]
    unfold tally
    rw [waiting]
    rfl

/-- A switch that was turned on has been granted. -/
theorem exists_wish_of_turnOn {x : Switch} (done : p.turnOn x = .ok q) :
    ∃ r w, p.resolve = .ok r ∧ w.option = .inr x ∧ r.grant w = .ok q := by
  unfold turnOn at done
  obtain ⟨r, settled, done⟩ := exists_of_bind_ok done
  cases x with
  | noProgress => exact ⟨r, .noProgress, settled, rfl, done⟩
  | verbose => exact ⟨r, .verbose, settled, rfl, done⟩
  | help => cases done
  | version => cases done

theorem tally_turnOn {x : Switch} (done : p.turnOn x = .ok q) :
    q.tally o = p.tally o + [.inr x].countP (· = o) := by
  obtain ⟨r, w, settled, same, granted⟩ := exists_wish_of_turnOn done
  rw [tally_grant granted, tally_resolve settled, same]

theorem tally_setTo {s : Setting} {value : Option String} (done : p.setTo s value = .ok q) :
    q.tally o = p.tally o + [.inl s].countP (· = o) := by
  unfold setTo at done
  obtain ⟨r, settled, done⟩ := exists_of_bind_ok done
  rw [← tally_resolve settled]
  cases value with
  | none =>
    cases done
    rw [tally_of_idle (pending_of_resolve settled)]
    rfl
  | some value =>
    obtain ⟨w, means, granted⟩ := exists_means_of_assign done
    rw [tally_grant granted, means.option_eq]

/-! ## Arguments -/

theorem tally_letters : ∀ {cs : List Char} {p : Progress}, p.letters cs = .ok q →
    q.tally o = p.tally o + (lettered cs).countP (· = o)
  | [], p, done => by
    cases done
    rfl
  | c :: cs, p, done => by
    unfold lettered
    cases known : short? c with
    | none =>
      rw [letters, known] at done
      cases done
    | some option =>
      cases option with
      | inl s =>
        rw [letters, known] at done
        exact tally_setTo done
      | inr x =>
        rw [letters_of_switch known] at done
        obtain ⟨r, turned, done⟩ := exists_of_bind_ok done
        rw [tally_letters done, tally_turnOn turned, Nat.add_assoc, ← List.countP_append]
        rfl

theorem tally_named {cs : List Char} (done : p.named cs = .ok q) : q.tally o =
    p.tally o + (long? (String.ofList (cs.takeWhile (· ≠ '=')))).toList.countP (· = o) := by
  unfold named at done
  simp only at done
  generalize (if cs.contains '=' then _ else none : Option String) = value at done
  cases known : long? (String.ofList (cs.takeWhile (· ≠ '='))) with
  | none =>
    rw [known] at done
    cases done
  | some option =>
    rw [known] at done
    cases option with
    | inl s => exact tally_setTo done
    | inr x =>
      cases value with
      | none => exact tally_turnOn done
      | some value => cases done

theorem tally_standalone {value : String} (done : p.standalone value = .ok q) :
    q.tally o = p.tally o := by
  unfold standalone at done
  split at done
  · rename_i s waiting
    cases done
    unfold tally
    rw [waiting]
    rfl
  · cases done

/-- An argument that is accepted adds the options that it mentions. -/
theorem tally_take {argument : String} (done : p.take argument = .ok q) :
    q.tally o = p.tally o + (mentioned argument).countP (· = o) := by
  rcases argument_cases argument with ⟨cs, chars⟩ | ⟨c, cs, chars, other⟩ | alone
  · rw [take_of_name chars] at done
    rw [mentioned_of_name chars]
    exact tally_named done
  · rw [take_of_letters chars other] at done
    rw [mentioned_of_letters chars other]
    exact tally_letters done
  · rw [take_of_other alone] at done
    rw [mentioned_of_other alone]
    exact tally_standalone done

/-- What is read of a line has each option as often as the line mentions it. -/
theorem tally_takeAll : ∀ {args : List String} {p : Progress}, p.takeAll args = .ok q →
    q.pending = none ∧ q.tally o = p.tally o + (args.flatMap mentioned).countP (· = o)
  | [], p, done => ⟨pending_of_resolve done, tally_resolve done⟩
  | arg :: args, p, done => by
    by_cases last : arg = "--"
    · subst last
      cases args with
      | nil => exact ⟨pending_of_resolve done, tally_resolve done⟩
      | cons => cases done
    · rw [takeAll_cons last] at done
      obtain ⟨r, taken, done⟩ := exists_of_bind_ok done
      obtain ⟨idle, tally⟩ := tally_takeAll done
      rw [tally_take taken, Nat.add_assoc, ← List.countP_append] at tally
      exact ⟨idle, tally⟩

end

end Progress

/-- A line that mentions an option twice is refused. -/
theorem refused_of_twice {args : List String} {o : Setting ⊕ Switch}
    (twice : 2 ≤ (args.flatMap mentioned).countP (· = o)) : ∃ usage, parse args = .error usage := by
  unfold parse
  cases done : Progress.takeAll {} args with
  | error usage => exact ⟨usage, rfl⟩
  | ok q =>
    obtain ⟨idle, tally⟩ := Progress.tally_takeAll (o := o) done
    rw [Progress.tally_of_idle idle] at tally
    have once := Bool.toNat_le (q.given o)
    omega

end EncryptedBackup.CommandLine
