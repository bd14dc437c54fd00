/-
The grammar of jobs. `Job.Tells` tells for every text which job it describes or, if it describes none,
the first thing that is wrong with it; parsing gives just that (`job_grammar`).
-/
import EncryptedBackup.Proofs.Text.Decimal
import EncryptedBackup.Proofs.Text.Entries

namespace EncryptedBackup

open Text

namespace Job

/-! ## What a text tells -/

/-- The job that a text describes, or why it describes none. The first three lines have entries: an
address, a name and a file. An address without a colon is a host; any other is cut at its last colon
into a host and the number of a port. What is missing is noticed in the order of the lines, then a bad
port, then a missing host. -/
inductive Tells (content : String) : Except JobDefect Job → Prop where
  | plain {host name file : String} (address : EntryAt content 0 host) (named : EntryAt content 1 name)
    (filed : EntryAt content 2 file) (bare : ':' ∉ host.toList) :
    Tells content (.ok { host, port := 1256, name, file := .ofText file })
  | ported {host port name file : String} {n : Nat} (address : EntryAt content 0 (host ++ ":" ++ port))
    (named : EntryAt content 1 name) (filed : EntryAt content 2 file) (last : ':' ∉ port.toList)
    (some : host ≠ "") (denoted : Decimal.Denotes port n) (fits : n ≤ 65535) :
    Tells content (.ok { host, port := .ofNat n, name, file := .ofText file })
  | noAddress (missing : ∀ t, ¬ EntryAt content 0 t) : Tells content (.error .noAddress)
  | noName {address : String} (addressed : EntryAt content 0 address)
    (missing : ∀ t, ¬ EntryAt content 1 t) : Tells content (.error .noName)
  | noFile {address name : String} (addressed : EntryAt content 0 address)
    (named : EntryAt content 1 name) (missing : ∀ t, ¬ EntryAt content 2 t) :
    Tells content (.error .noFile)
  | badPort {host port name file : String} {defect : Decimal.Defect}
    (address : EntryAt content 0 (host ++ ":" ++ port)) (named : EntryAt content 1 name)
    (filed : EntryAt content 2 file) (last : ':' ∉ port.toList)
    (wrong : Decimal.Wrong 65535 port defect) : Tells content (.error (.badPort port defect))
  | noHost {port name file : String} {n : Nat} (address : EntryAt content 0 (":" ++ port))
    (named : EntryAt content 1 name) (filed : EntryAt content 2 file) (last : ':' ∉ port.toList)
    (denoted : Decimal.Denotes port n) (fits : n ≤ 65535) : Tells content (.error .noHost)

/-! ## Addresses -/

theorem splitAddress_of_bare {address : String} (bare : ':' ∉ address.toList) :
    splitAddress address = none := by
  unfold splitAddress
  simp only
  rw [if_neg (by simpa using bare)]

theorem splitAddress_append {host port : String} (last : ':' ∉ port.toList) :
    splitAddress (host ++ ":" ++ port) = some (host, port) := by
  have backwards : (host ++ ":" ++ port).toList.reverse =
      port.toList.reverse ++ ':' :: host.toList.reverse := by
    simp [String.toList_append]
  have free : ∀ c ∈ port.toList.reverse, decide (c ≠ ':') = true := by
    intro c mem
    refine decide_eq_true ?_
    rintro rfl
    exact last (List.mem_reverse.1 mem)
  unfold splitAddress
  simp only [backwards]
  rw [if_pos (by simp), List.takeWhile_append_of_pos free, List.dropWhile_append_of_pos free]
  simp

/-- An address has no colon, or a last one. -/
theorem address_cases (address : String) : ':' ∉ address.toList ∨
    ∃ host port : String, address = host ++ ":" ++ port ∧ ':' ∉ port.toList := by
  by_cases colon : ':' ∈ address.toList.reverse
  · obtain ⟨port, host, split, last⟩ := List.eq_append_cons_of_mem colon
    refine .inr ⟨String.ofList host.reverse, String.ofList port.reverse, ?_, by simpa using last⟩
    have chars := congrArg List.reverse split
    rw [List.reverse_reverse] at chars
    rw [← String.toList_inj, chars]
    simp [String.toList_append]
  · exact .inl fun mem => colon (List.mem_reverse.2 mem)

/-! ## Parsing -/

section

variable {content address host port name file : String}

/-- With all its entries there, a text is as good as its address. -/
theorem parse_of_entries (addressed : EntryAt content 0 address) (named : EntryAt content 1 name)
    (filed : EntryAt content 2 file) : parse content =
      (parseAddress address).bind fun x =>
        if x.1 = "" then .error .noHost
        else .ok { host := x.1, port := x.2, name, file := .ofText file } := by
  unfold parse
  simp only [line?_eq_some_iff.2 addressed, line?_eq_some_iff.2 named, line?_eq_some_iff.2 filed]
  cases parseAddress address with
  | error defect => rfl
  | ok x =>
    by_cases empty : x.1 = ""
    · simp only [bind, Except.bind, if_pos empty]
      rfl
    · simp only [bind, Except.bind, if_neg empty]
      rfl

theorem parseAddress_of_bare (bare : ':' ∉ address.toList) :
    parseAddress address = .ok (address, 1256) := by
  unfold parseAddress
  rw [splitAddress_of_bare bare]
  rfl

theorem parseAddress_of_denotes {n : Nat} (last : ':' ∉ port.toList)
    (denoted : Decimal.Denotes port n) (fits : n ≤ 65535) :
    parseAddress (host ++ ":" ++ port) = .ok (host, .ofNat n) := by
  unfold parseAddress maxPort
  rw [splitAddress_append last]
  simp only [Decimal.parse_eq_ok_iff.2 ⟨denoted, fits⟩]

theorem parseAddress_of_wrong {defect : Decimal.Defect} (last : ':' ∉ port.toList)
    (wrong : Decimal.Wrong 65535 port defect) :
    parseAddress (host ++ ":" ++ port) = .error (.badPort port defect) := by
  unfold parseAddress maxPort
  rw [splitAddress_append last]
  simp only [Decimal.parse_eq_error_iff.2 wrong]

end

theorem Tells.parse_eq {content : String} {outcome : Except JobDefect Job}
    (tells : Tells content outcome) : parse content = outcome := by
  cases tells with
  | plain address named filed bare =>
    rw [parse_of_entries address named filed, parseAddress_of_bare bare]
    exact if_neg address.1
  | ported address named filed last some denoted fits =>
    rw [parse_of_entries address named filed, parseAddress_of_denotes last denoted fits]
    exact if_neg some
  | noAddress missing =>
    unfold parse
    simp only [line?_eq_none_iff.2 missing]
    rfl
  | noName addressed missing =>
    unfold parse
    simp only [line?_eq_some_iff.2 addressed, line?_eq_none_iff.2 missing]
    rfl
  | noFile addressed named missing =>
    unfold parse
    simp only [line?_eq_some_iff.2 addressed, line?_eq_some_iff.2 named,
      line?_eq_none_iff.2 missing]
    rfl
  | badPort address named filed last wrong =>
    rw [parse_of_entries address named filed, parseAddress_of_wrong last wrong]
    rfl
  | @noHost port name file n address named filed last denoted fits =>
    have address : EntryAt content 0 ("" ++ ":" ++ port) := address
    rw [parse_of_entries address named filed, parseAddress_of_denotes last denoted fits]
    rfl

/-- Every text tells something. -/
theorem exists_tells (content : String) : ∃ outcome, Tells content outcome := by
  have entry (i : Nat) : (∃ t, EntryAt content i t) ∨ ∀ t, ¬ EntryAt content i t :=
    (Classical.em _).imp_right not_exists.1
  rcases entry 0 with ⟨address, addressed⟩ | missing
  · rcases entry 1 with ⟨name, named⟩ | missing
    · rcases entry 2 with ⟨file, filed⟩ | missing
      · rcases address_cases address with bare | ⟨host, port, rfl, last⟩
        · exact ⟨_, .plain addressed named filed bare⟩
        · cases parsed : Decimal.parse 65535 port with
          | error defect =>
            exact ⟨_, .badPort addressed named filed last (Decimal.parse_eq_error_iff.1 parsed)⟩
          | ok n =>
            obtain ⟨denoted, fits⟩ := Decimal.parse_eq_ok_iff.1 parsed
            by_cases empty : host = ""
            · subst empty
              exact ⟨_, .noHost addressed named filed last denoted fits⟩
            · exact ⟨_, .ported addressed named filed last empty denoted fits⟩
      · exact ⟨_, .noFile addressed named missing⟩
    · exact ⟨_, .noName addressed missing⟩
  · exact ⟨_, .noAddress missing⟩

/-- Parsing a text gives what it tells. -/
theorem parse_eq_iff {content : String} {outcome : Except JobDefect Job} :
    parse content = outcome ↔ Tells content outcome := by
  constructor
  · rintro rfl
    obtain ⟨outcome, tells⟩ := exists_tells content
    rwa [tells.parse_eq]
  · exact Tells.parse_eq

/-! ## Layout -/

/-- A text is as good as its first three entries. -/
theorem parse_congr {content content' : String}
    (same : ∀ i < 3, line? (lines content) i = line? (lines content') i) :
    parse content = parse content' := by
  unfold parse
  simp only [same 0 (by decide), same 1 (by decide), same 2 (by decide)]

/-- White space at the edge of a line makes no difference. -/
theorem parse_insert {before blank behind : String} (edge : Edge before.toList behind.toList)
    (blanks : ∀ c ∈ blank.toList, isBlank c = true ∧ c ≠ '\n') :
    parse (before ++ blank ++ behind) = parse (before ++ behind) := by
  refine parse_congr fun i _ => ?_
  rw [line?_lines, line?_lines, String.toList_append, String.toList_append, String.toList_append,
    List.append_assoc]
  exact entry?_insert (fun c mem => (blanks c mem).1) (fun mem => (blanks _ mem).2 rfl) _ edge i

/-- A line may end in either way. -/
theorem parse_return (before behind : String) :
    parse (before ++ "\r\n" ++ behind) = parse (before ++ "\n" ++ behind) := by
  have inserted : parse (before ++ "\r" ++ ("\n" ++ behind)) =
      parse (before ++ ("\n" ++ behind)) := by
    refine parse_insert ?_ (by simp; decide)
    rw [String.toList_append]
    exact .ends
  have split : before ++ "\r\n" ++ behind = before ++ "\r" ++ ("\n" ++ behind) := by
    simp [← String.toList_inj]
  rw [split, inserted, String.append_assoc]

/-- What follows the third line makes no difference. -/
theorem parse_append {before : String} (third : 2 ≤ before.toList.count '\n') (behind : String) :
    parse (before ++ "\n" ++ behind) = parse before := by
  refine parse_congr fun i less => ?_
  rw [line?_lines, line?_lines, String.toList_append, String.toList_append, List.append_assoc]
  exact entry?_append behind.toList before.toList (by omega)

/-! ## Jobs as text -/

/-- A job as the text of a file. -/
def written (host : String) (port : UInt16) (name file : String) : String :=
  s!"{host}:{port}\n{name}\n{file}\n"

theorem isBlank_of_isDigit {c : Char} (digit : c.isDigit = true) : isBlank c = false := by
  simp only [Char.isDigit, Bool.and_eq_true, decide_eq_true_eq, UInt32.le_iff_toNat_le] at digit
  have low : 48 ≤ c.toNat := digit.1
  have high : c.toNat ≤ 57 := digit.2
  unfold isBlank
  simp
  omega

/-- The address of a host and a port stands on a line of its own. -/
theorem isLine_address {host : String} (some : host ≠ "") (single : '\n' ∉ host.toList)
    (solid : ∀ c ∈ host.toList.head?, isBlank c = false) (n : Nat) :
    IsLine (host ++ ":" ++ n.repr) := by
  have nonempty : host.toList ≠ [] := fun none => some (String.toList_eq_nil_iff.1 none)
  have chars : (host ++ ":" ++ n.repr).toList = host.toList ++ ':' :: Nat.toDigits 10 n := by
    simp [String.toList_append, Nat.repr_eq_ofList_toDigits]
  have digit {c : Char} (mem : c ∈ Nat.toDigits 10 n) : c.isDigit = true :=
    Nat.isDigit_of_mem_toDigits (by decide) (by decide) mem
  refine ⟨fun empty => ?_, trim_of_ends ?_ ?_, ?_⟩
  · rw [empty] at chars
    simp at chars
  · rw [chars, List.head?_append_of_ne_nil _ nonempty]
    exact solid
  · rw [chars, List.getLast?_append_of_ne_nil _ (List.cons_ne_nil _ _),
      List.getLast?_cons_of_ne_nil Nat.toDigits_ne_nil]
    exact fun c last => isBlank_of_isDigit (digit (List.mem_of_mem_getLast? last))
  · rw [chars, List.mem_append, List.mem_cons]
    rintro (mem | mem | mem)
    · exact single mem
    · cases mem
    · cases digit mem

/-- A job is read back from its text. -/
theorem parse_written {host name file : String} (some : host ≠ "") (single : '\n' ∉ host.toList)
    (solid : ∀ c ∈ host.toList.head?, isBlank c = false) (port : UInt16) (named : IsLine name)
    (filed : IsLine file) :
    parse (written host port name file) = .ok { host, port, name, file := .ofText file } := by
  have lines : Text.lines (written host port name file) =
      [host ++ ":" ++ port.toNat.repr, name, file] := by
    refine lines_written ?_ ?_
    · have text : written host port name file =
        host ++ ":" ++ port.toNat.repr ++ "\n" ++ name ++ "\n" ++ file ++ "\n" := rfl
      simp [text, String.toList_append]
    · simp [isLine_address some single solid, named, filed]
  have entry {i : Nat} {t : String} (line : IsLine t)
      (there : [host ++ ":" ++ port.toNat.repr, name, file][i]? = .some t) :
      EntryAt (written host port name file) i t := by
    rw [← lines] at there
    exact line?_eq_some_iff.1 (line?_of_isLine line there)
  have last : ':' ∉ port.toNat.repr.toList := by
    rw [Nat.repr_eq_ofList_toDigits, String.toList_ofList]
    intro mem
    cases Nat.isDigit_of_mem_toDigits (by decide) (by decide) mem
  have tells := Tells.ported (entry (isLine_address some single solid port.toNat) rfl)
    (entry named rfl) (entry filed rfl) last some (Decimal.denotes_repr port.toNat)
    (Nat.le_of_lt_succ port.toNat_lt)
  rw [UInt16.ofNat_toNat] at tells
  exact tells.parse_eq

end Job

/-- The grammar of jobs. Parsing gives, for every text, the job that it describes or the first thing
that is wrong with it. It makes no difference whether a line ends in a line feed alone or with a
carriage return before it, how much white space there is at the edges of lines, and what follows the
third line; and a job is read back from its text. -/
theorem job_grammar :
    (∀ content outcome, Job.parse content = outcome ↔ Job.Tells content outcome) ∧
    (∀ before behind : String,
      Job.parse (before ++ "\r\n" ++ behind) = Job.parse (before ++ "\n" ++ behind)) ∧
    (∀ before blank behind : String, Edge before.toList behind.toList →
      (∀ c ∈ blank.toList, isBlank c = true ∧ c ≠ '\n') →
        Job.parse (before ++ blank ++ behind) = Job.parse (before ++ behind)) ∧
    (∀ before behind : String, 2 ≤ before.toList.count '\n' →
      Job.parse (before ++ "\n" ++ behind) = Job.parse before) ∧
    ∀ (host : String) (port : UInt16) (name file : String), host ≠ "" → '\n' ∉ host.toList →
      (∀ c ∈ host.toList.head?, isBlank c = false) → IsLine name → IsLine file →
        Job.parse (Job.written host port name file) =
          .ok { host, port, name, file := .ofText file } :=
  ⟨fun _ _ => Job.parse_eq_iff, Job.parse_return, fun _ _ _ => Job.parse_insert,
    fun _ behind third => Job.parse_append third behind,
    fun _ port _ _ some single solid named filed =>
      Job.parse_written some single solid port named filed⟩

theorem job_grammar_localhost :
    (Job.Tells "localhost:+80\nalice\nnotes" (.ok ⟨"localhost", 80, "alice", .ofText "notes"⟩) ∧
      Job.Tells "localhost:65536\nalice\nnotes" (.error (.badPort "65536" .tooLarge))) ∧
    Job.parse ("localhost:+80" ++ "\r\n" ++ "alice\nnotes") =
      Job.parse ("localhost:+80" ++ "\n" ++ "alice\nnotes") ∧
    Job.parse ("localhost:+80\n" ++ "\t " ++ "alice\nnotes") =
      Job.parse ("localhost:+80\n" ++ "alice\nnotes") ∧
    Job.parse ("localhost:+80\nalice\nnotes" ++ "\n" ++ "letters") =
      Job.parse "localhost:+80\nalice\nnotes" ∧
    Job.parse (Job.written "localhost" 80 "alice" "notes") =
      .ok ⟨"localhost", 80, "alice", .ofText "notes"⟩ := by
  obtain ⟨parse_eq_iff, returned, inserted, followed, read⟩ := job_grammar
  refine ⟨⟨(parse_eq_iff _ _).1 ?_, (parse_eq_iff _ _).1 ?_⟩, returned _ _, inserted _ _ _ ?_ ?_,
    followed _ _ ?_, read _ _ _ _ ?_ ?_ ?_ ?_ ?_⟩
  · rfl
  · rfl
  · show Edge ("localhost:+80".toList ++ ['\n']) _
    exact .begins
  · simp
    decide
  · decide
  · decide
  · decide
  · simp
    decide
  · exact .of_solid (by decide) (by simp; decide)
  · exact .of_solid (by decide) (by simp; decide)

end EncryptedBackup
