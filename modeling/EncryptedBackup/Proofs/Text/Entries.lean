/-
The lines of a text, told apart by where they end (`LineAt`), and the entries that are read from them,
which are free of white space at their ends (`EntryAt`). White space at the edge of a line is no part of
its entry (`line?_insert`), and neither is anything of the lines that follow (`line?_append`).
-/
import EncryptedBackup.Proofs.Text.Lines

namespace EncryptedBackup

namespace Text

/-! ## Lines and entries -/

/-- The lines of a text, by their numbers. A line ends at a line feed or at a carriage return followed
by one; the last line may be ended by the end of the text instead. -/
inductive LineAt : List Char → Nat → List Char → Prop where
  | last {l : List Char} (some : l ≠ []) (single : '\n' ∉ l) : LineAt l 0 l
  | fed {l rest : List Char} (single : '\n' ∉ l) (plain : l.getLast? ≠ some '\r') :
    LineAt (l ++ '\n' :: rest) 0 l
  | returned {l rest : List Char} (single : '\n' ∉ l) : LineAt (l ++ '\r' :: '\n' :: rest) 0 l
  | later {l rest line : List Char} {i : Nat} (single : '\n' ∉ l) (behind : LineAt rest i line) :
    LineAt (l ++ '\n' :: rest) (i + 1) line

/-- A text has an entry: a line that is not blank, without the white space at its ends. -/
def EntryAt (content : String) (i : Nat) (t : String) : Prop :=
  t ≠ "" ∧ ∃ l, LineAt content.toList i l ∧ trim (String.ofList l) = t

/-- A text is free of line feeds, or begins with a piece that is and goes on behind a line feed. -/
theorem pieces_induction {P : List Char → Prop} (last : ∀ l, '\n' ∉ l → P l)
    (more : ∀ l rest, '\n' ∉ l → P rest → P (l ++ '\n' :: rest)) (cs : List Char) : P cs := by
  by_cases fed : '\n' ∈ cs
  · obtain ⟨l, rest, split, single⟩ := List.eq_append_cons_of_mem fed
    rw [split]
    exact more l rest single (pieces_induction last more rest)
  · exact last cs fed
termination_by cs.length
decreasing_by
  rw [split]
  simp
  omega

theorem linesFrom_last {cs : List Char} (single : '\n' ∉ cs) (current : List Char) :
    linesFrom current cs =
      if current = [] ∧ cs = [] then [] else [current.reverse ++ cs] := by
  induction cs generalizing current with
  | nil =>
    unfold linesFrom
    cases current with
    | nil => rfl
    | cons c current => simp
  | cons c cs ih =>
    rw [List.mem_cons, not_or] at single
    rw [linesFrom, ih single.2, if_neg (by simp), if_neg (by simp), List.reverse_cons,
      List.append_assoc, List.singleton_append]
    exact fun same => single.1 same.symm

theorem dropReturn_of_plain {l : List Char} (plain : l.getLast? ≠ some '\r') :
    (dropReturn l.reverse).reverse = l := by
  unfold dropReturn
  split
  · rename_i cs backwards
    rw [List.getLast?_eq_head?_reverse, backwards] at plain
    exact absurd rfl plain
  · exact List.reverse_reverse l

theorem dropReturn_of_return (l : List Char) : (dropReturn (l ++ ['\r']).reverse).reverse = l := by
  rw [List.reverse_append]
  exact List.reverse_reverse l

theorem linesFrom_getElem?_of_lineAt {cs l : List Char} {i : Nat} (line : LineAt cs i l) :
    (linesFrom [] cs)[i]? = some l := by
  induction line with
  | last some single =>
    rw [linesFrom_last single [], if_neg fun none => some none.2]
    rfl
  | fed single plain =>
    rw [linesFrom_append _ _ _ single, List.append_nil, dropReturn_of_plain plain]
    rfl
  | @returned l rest single =>
    have single' : '\n' ∉ l ++ ['\r'] := by simpa using single
    rw [List.append_cons, linesFrom_append _ _ _ single', List.append_nil, dropReturn_of_return]
    rfl
  | later single behind ih =>
    rw [linesFrom_append _ _ _ single, List.getElem?_cons_succ, ih]

theorem lineAt_of_linesFrom_getElem? (cs : List Char) : ∀ {l : List Char} {i : Nat},
    (linesFrom [] cs)[i]? = some l → LineAt cs i l := by
  induction cs using pieces_induction with
  | last cs single =>
    intro l i line
    rw [linesFrom_last single []] at line
    split at line
    · cases line
    · rename_i some
      cases i with
      | succ i => cases line
      | zero =>
        cases line
        exact .last (fun none => some ⟨rfl, none⟩) single
  | more piece rest single ih =>
    intro l i line
    rw [linesFrom_append _ _ _ single, List.append_nil] at line
    cases i with
    | succ i => exact .later single (ih line)
    | zero =>
      cases line
      by_cases returned : piece.getLast? = some '\r'
      · obtain ⟨before, rfl⟩ := List.getLast?_eq_some_iff.1 returned
        rw [dropReturn_of_return, ← List.append_cons]
        exact .returned fun fed => single (List.mem_append_left _ fed)
      · rw [dropReturn_of_plain returned]
        exact .fed single returned

/-- The lines that are read are the lines of the text. -/
theorem lineAt_iff {cs l : List Char} {i : Nat} :
    LineAt cs i l ↔ (linesFrom [] cs)[i]? = some l :=
  ⟨linesFrom_getElem?_of_lineAt, lineAt_of_linesFrom_getElem? cs⟩

/-! ## White space at the edges -/

theorem trimChars_dropReturn (l : List Char) :
    trimChars (dropReturn l.reverse).reverse = trimChars l := by
  by_cases returned : l.getLast? = some '\r'
  · obtain ⟨before, rfl⟩ := List.getLast?_eq_some_iff.1 returned
    rw [dropReturn_of_return, trimChars_append]
    intro c mem
    rw [List.mem_singleton.1 mem]
    rfl
  · rw [dropReturn_of_plain returned]

/-- The entry on a line, if it is not blank. -/
def entryOf (l : List Char) : Option String :=
  if trimChars l = [] then none else some (String.ofList (trimChars l))

/-- The entry on the `i`-th line of a text. -/
def entry? (cs : List Char) (i : Nat) : Option String :=
  Job.line? ((linesFrom [] cs).map String.ofList) i

theorem line?_lines (content : String) (i : Nat) :
    Job.line? (lines content) i = entry? content.toList i := rfl

theorem entry?_eq (cs : List Char) (i : Nat) :
    entry? cs i = (linesFrom [] cs)[i]?.bind entryOf := by
  unfold entry? Job.line?
  rw [List.getElem?_map]
  cases (linesFrom [] cs)[i]? with
  | none => rfl
  | some l =>
    show (if trim (String.ofList l) = "" then none else some (trim (String.ofList l))) = entryOf l
    unfold trim entryOf
    rw [String.toList_ofList]
    by_cases none : trimChars l = []
    · rw [none, if_pos rfl, if_pos rfl]
    · rw [if_neg none, if_neg fun empty => none (String.ofList_eq_empty_iff.1 empty)]

theorem entry?_single {l : List Char} (single : '\n' ∉ l) (i : Nat) :
    entry? l i = if i = 0 then entryOf l else none := by
  rw [entry?_eq, linesFrom_last single []]
  cases l with
  | nil => cases i <;> rfl
  | cons c l => cases i <;> rfl

theorem entry?_zero {l : List Char} (single : '\n' ∉ l) (rest : List Char) :
    entry? (l ++ '\n' :: rest) 0 = entryOf l := by
  rw [entry?_eq, linesFrom_append _ _ _ single, List.append_nil]
  show entryOf _ = _
  unfold entryOf
  rw [trimChars_dropReturn]

theorem entry?_succ {l : List Char} (single : '\n' ∉ l) (rest : List Char) (i : Nat) :
    entry? (l ++ '\n' :: rest) (i + 1) = entry? rest i := by
  rw [entry?_eq, entry?_eq, linesFrom_append _ _ _ single, List.getElem?_cons_succ]

/-- A place in a text where a line begins or ends. -/
inductive Edge : List Char → List Char → Prop where
  | first {behind : List Char} : Edge [] behind
  | begins {before behind : List Char} : Edge (before ++ ['\n']) behind
  | ends {before behind : List Char} : Edge before ('\n' :: behind)
  | returns {before behind : List Char} : Edge before ('\r' :: '\n' :: behind)
  | last {before : List Char} : Edge before []

theorem Edge.of_append {l before behind : List Char} (edge : Edge (l ++ '\n' :: before) behind) :
    Edge before behind := by
  generalize whole : l ++ '\n' :: before = cs at edge
  cases edge with
  | first => simp at whole
  | begins =>
    rcases List.eq_nil_or_concat before with rfl | ⟨start, c, rfl⟩
    · exact .first
    · rw [List.concat_eq_append, ← List.cons_append, ← List.append_assoc] at whole
      rw [List.concat_eq_append]
      cases (List.append_inj' whole rfl).2
      exact .begins
  | ends => exact .ends
  | returns => exact .returns
  | last => exact .last

/-- Between an edge and the nearer end of its line there is nothing but white space. -/
theorem Edge.blank {l r behind : List Char} (edge : Edge l behind) (single : '\n' ∉ l)
    (free : '\n' ∉ r) (piece : behind = r ∨ ∃ rest, behind = r ++ '\n' :: rest) :
    l = [] ∨ ∀ c ∈ r, isBlank c = true := by
  cases edge with
  | first => exact .inl rfl
  | begins => exact absurd (List.mem_append_right _ List.mem_cons_self) single
  | ends =>
    rcases piece with rfl | ⟨rest, split⟩
    · exact absurd List.mem_cons_self free
    · cases r with
      | nil => exact .inr nofun
      | cons d r =>
        cases split
        exact absurd List.mem_cons_self free
  | returns =>
    rcases piece with rfl | ⟨rest, split⟩
    · exact absurd (List.mem_cons_of_mem _ List.mem_cons_self) free
    · rcases r with _ | ⟨d, _ | ⟨e, r⟩⟩
      · cases split
      · cases split
        exact .inr (by simp; rfl)
      · cases split
        exact absurd (List.mem_cons_of_mem _ List.mem_cons_self) free
  | last =>
    rcases piece with rfl | ⟨rest, split⟩
    · exact .inr nofun
    · simp at split

theorem entryOf_insert {l r blank : List Char} (blanks : ∀ c ∈ blank, isBlank c = true)
    (edge : l = [] ∨ ∀ c ∈ r, isBlank c = true) :
    entryOf (l ++ (blank ++ r)) = entryOf (l ++ r) := by
  unfold entryOf
  rw [trimChars_insert blanks edge]

/-- White space at the edge of a line is no part of its entry. -/
theorem entry?_insert {blank : List Char} (blanks : ∀ c ∈ blank, isBlank c = true)
    (inside : '\n' ∉ blank) (before : List Char) : ∀ {behind : List Char}, Edge before behind →
      ∀ i, entry? (before ++ (blank ++ behind)) i = entry? (before ++ behind) i := by
  induction before using pieces_induction with
  | last l single =>
    intro behind edge i
    by_cases fed : '\n' ∈ behind
    · obtain ⟨r, rest, rfl, free⟩ := List.eq_append_cons_of_mem fed
      have around := entryOf_insert blanks (edge.blank single free (.inr ⟨rest, rfl⟩))
      have free₁ : '\n' ∉ l ++ (blank ++ r) := by simp [single, inside, free]
      have free₂ : '\n' ∉ l ++ r := by simp [single, free]
      have split₁ : l ++ (blank ++ (r ++ '\n' :: rest)) = l ++ (blank ++ r) ++ '\n' :: rest := by simp
      have split₂ : l ++ (r ++ '\n' :: rest) = l ++ r ++ '\n' :: rest := by simp
      rw [split₁, split₂]
      cases i with
      | zero => rw [entry?_zero free₁, entry?_zero free₂, around]
      | succ i => rw [entry?_succ free₁, entry?_succ free₂]
    · have around := entryOf_insert blanks (edge.blank single fed (.inl rfl))
      have free₁ : '\n' ∉ l ++ (blank ++ behind) := by simp [single, inside, fed]
      have free₂ : '\n' ∉ l ++ behind := by simp [single, fed]
      rw [entry?_single free₁, entry?_single free₂, around]
  | more l rest single ih =>
    intro behind edge i
    rw [List.append_assoc, List.append_assoc, List.cons_append, List.cons_append]
    cases i with
    | zero => rw [entry?_zero single, entry?_zero single]
    | succ i =>
      rw [entry?_succ single, entry?_succ single]
      exact ih edge.of_append i

/-- What follows the end of a line is no part of it. -/
theorem entry?_append (behind before : List Char) : ∀ {i : Nat}, i ≤ before.count '\n' →
    entry? (before ++ '\n' :: behind) i = entry? before i := by
  induction before using pieces_induction with
  | last l single =>
    intro i above
    rw [List.count_eq_zero_of_not_mem single] at above
    cases Nat.le_zero.1 above
    rw [entry?_zero single, entry?_single single, if_pos rfl]
  | more l rest single ih =>
    intro i above
    rw [List.append_assoc, List.cons_append]
    cases i with
    | zero => rw [entry?_zero single, entry?_zero single]
    | succ i =>
      rw [List.count_append, List.count_cons_self] at above
      rw [entry?_succ single, entry?_succ single]
      rw [List.count_eq_zero_of_not_mem single] at above
      exact ih (by omega)

end Text

namespace Job

open Text

/-- What is read from a line is its entry. -/
theorem line?_eq_some_iff {content t : String} {i : Nat} :
    line? (lines content) i = some t ↔ EntryAt content i t := by
  rw [line?_lines, entry?_eq, Option.bind_eq_some_iff]
  unfold EntryAt entryOf trim
  constructor
  · rintro ⟨l, line, entry⟩
    split at entry
    · cases entry
    · rename_i some
      cases entry
      refine ⟨fun empty => some (String.ofList_eq_empty_iff.1 empty), l, lineAt_iff.2 line, ?_⟩
      rw [String.toList_ofList]
  · rintro ⟨some, l, line, rfl⟩
    rw [String.toList_ofList] at some ⊢
    refine ⟨l, lineAt_iff.1 line, if_neg fun none => some ?_⟩
    rw [none]

theorem line?_eq_none_iff {content : String} {i : Nat} :
    line? (lines content) i = none ↔ ∀ t, ¬ EntryAt content i t := by
  rw [Option.eq_none_iff_forall_ne_some]
  exact forall_congr' fun t => not_congr line?_eq_some_iff

end Job

end EncryptedBackup
