/-
Texts that stand on lines of their own (`IsLine`). Written one below the other they are read back line
by line, so an identity is read back from its text (`Identity.parse_render`). What is read from a
line is such a text, and so is every text without white space.
-/
import Mathlib.Data.List.DropRight
import EncryptedBackup.Identity
import EncryptedBackup.Proofs.Text.Hex
import EncryptedBackup.Proofs.Wire.Fields

namespace EncryptedBackup

namespace Text

/-! ## White space at the ends -/

theorem trimChars_eq (cs : List Char) :
    trimChars cs = List.rdropWhile isBlank (cs.dropWhile isBlank) := rfl

theorem trim_toList (s : String) : (trim s).toList = trimChars s.toList :=
  String.toList_ofList

theorem mem_of_mem_trim {s : String} {c : Char} (h : c ∈ (trim s).toList) : c ∈ s.toList := by
  rw [trim_toList, trimChars_eq] at h
  exact (List.dropWhile_sublist _).subset ((List.rdropWhile_prefix isBlank _).subset h)

theorem trim_length_le (s : String) : (trim s).toList.length ≤ s.toList.length := by
  rw [trim_toList, trimChars_eq]
  exact (List.rdropWhile_prefix isBlank _).length_le.trans (List.dropWhile_sublist _).length_le

/-- The first character that is left is none that would be dropped. -/
theorem dropWhile_rdropWhile (p : Char → Bool) (cs : List Char) :
    ((cs.dropWhile p).rdropWhile p).dropWhile p = (cs.dropWhile p).rdropWhile p := by
  rw [List.dropWhile_eq_self_iff]
  intro nonempty
  obtain ⟨rest, split⟩ := List.rdropWhile_prefix p (cs.dropWhile p)
  have first : (cs.dropWhile p).head? = some (((cs.dropWhile p).rdropWhile p)[0]) := by
    have start : (_ ++ rest).head? = _ :=
      List.head?_append_of_ne_nil _ (List.length_pos_iff.1 nonempty)
    rw [split] at start
    rw [start, List.head?_eq_getElem?, List.getElem?_eq_getElem nonempty]
  have kept := List.head?_dropWhile_not p cs
  rw [first] at kept
  simpa using kept

/-- White space is trimmed once and for all. -/
theorem trim_trim (s : String) : trim (trim s) = trim s := by
  have chars : trimChars (trimChars s.toList) = trimChars s.toList := by
    rw [trimChars_eq (trimChars s.toList), trimChars_eq, dropWhile_rdropWhile,
      List.rdropWhile_idempotent]
  unfold trim
  rw [String.toList_ofList, chars]

/-- Text with white space at neither end stays as it is. -/
theorem trim_of_ends {s : String} (start : ∀ c ∈ s.toList.head?, isBlank c = false)
    (ending : ∀ c ∈ s.toList.getLast?, isBlank c = false) : trim s = s := by
  have kept : s.toList.dropWhile isBlank = s.toList := by
    rw [List.dropWhile_eq_self_iff]
    intro some
    rw [start _ (List.head?_eq_getElem? ▸ List.getElem?_eq_getElem some)]
    exact Bool.false_ne_true
  have kept' : s.toList.rdropWhile isBlank = s.toList := by
    rw [List.rdropWhile_eq_self_iff]
    intro some
    rw [ending _ (List.getLast?_eq_getLast_of_ne_nil some)]
    exact Bool.false_ne_true
  unfold trim
  rw [trimChars_eq, kept, kept', String.ofList_toList]

/-- Text without white space stays as it is. -/
theorem trim_of_solid {s : String} (solid : ∀ c ∈ s.toList, isBlank c = false) : trim s = s :=
  trim_of_ends (fun c first => solid c (List.mem_of_mem_head? first))
    fun c last => solid c (List.mem_of_mem_getLast? last)

/-- White space at the end is taken away. -/
theorem trimChars_append {cs blank : List Char} (blanks : ∀ c ∈ blank, isBlank c = true) :
    trimChars (cs ++ blank) = trimChars cs := by
  rw [trimChars_eq, trimChars_eq, List.dropWhile_append]
  split
  · rename_i none
    rw [List.isEmpty_iff.1 none, List.dropWhile_eq_nil_iff.2 blanks]
  · unfold List.rdropWhile
    rw [List.reverse_append, List.dropWhile_append_of_pos]
    intro c mem
    exact blanks c (List.mem_reverse.1 mem)

/-- White space is taken away where nothing else, or nothing but white space, stands beside it. -/
theorem trimChars_insert {l r blank : List Char} (blanks : ∀ c ∈ blank, isBlank c = true)
    (edge : l = [] ∨ ∀ c ∈ r, isBlank c = true) :
    trimChars (l ++ (blank ++ r)) = trimChars (l ++ r) := by
  rcases edge with rfl | bare
  · rw [trimChars_eq, List.nil_append, List.dropWhile_append_of_pos blanks]
    rfl
  · have both : ∀ c ∈ blank ++ r, isBlank c = true := by
      intro c mem
      rcases List.mem_append.1 mem with mem | mem
      · exact blanks c mem
      · exact bare c mem
    rw [trimChars_append both, trimChars_append bare]

/-- White space around a text without any is taken away, and nothing else. -/
theorem trim_between {s : String} {before after : List Char}
    (solid : ∀ c ∈ s.toList, isBlank c = false) (front : ∀ c ∈ before, isBlank c = true)
    (back : ∀ c ∈ after, isBlank c = true) :
    trim (String.ofList (before ++ (s.toList ++ after))) = s := by
  have inner : trimChars (before ++ (s.toList ++ after)) = trimChars s.toList := by
    have dropped := trimChars_insert front (.inl rfl : [] = [] ∨ ∀ c ∈ s.toList ++ after, _)
    rw [List.nil_append, List.nil_append] at dropped
    rw [dropped, trimChars_append back]
  have kept := trim_of_solid solid
  unfold trim at kept ⊢
  rw [String.toList_ofList, inner, kept]

/-! ## Lines -/

/-- A text that stands on a line of its own. -/
structure IsLine (t : String) : Prop where
  some : t ≠ ""
  trimmed : trim t = t
  single : '\n' ∉ t.toList

theorem IsLine.of_solid {t : String} (some : t ≠ "") (solid : ∀ c ∈ t.toList, isBlank c = false) :
    IsLine t :=
  ⟨some, trim_of_solid solid, fun h => absurd (solid _ h) (by decide)⟩

theorem dropReturn_dropWhile : ∀ cs : List Char,
    dropReturn (cs.dropWhile isBlank) = cs.dropWhile isBlank
  | [] => rfl
  | c :: cs => by
    by_cases blank : isBlank c = true
    · rw [List.dropWhile_cons_of_pos blank]
      exact dropReturn_dropWhile cs
    · rw [List.dropWhile_cons_of_neg blank]
      unfold dropReturn
      split
      · rename_i same
        cases same
        exact absurd rfl blank
      · rfl

theorem linesFrom_append : ∀ (cs current rest : List Char), '\n' ∉ cs →
    linesFrom current (cs ++ '\n' :: rest) =
      (dropReturn (cs.reverse ++ current)).reverse :: linesFrom [] rest
  | [], _, _, _ => rfl
  | c :: cs, current, rest, single => by
    rw [List.mem_cons, not_or] at single
    rw [List.cons_append, linesFrom, linesFrom_append cs (c :: current) rest single.2,
      List.reverse_cons, List.append_assoc, List.singleton_append]
    exact fun same => single.1 same.symm

/-- A line is read as it was written, and what stands below it follows. -/
theorem linesFrom_line {t : String} (line : IsLine t) (rest : List Char) :
    linesFrom [] (t.toList ++ '\n' :: rest) = t.toList :: linesFrom [] rest := by
  have trimmed : t.toList.reverse = ((t.toList.dropWhile isBlank).reverse).dropWhile isBlank := by
    have chars := trim_toList t
    rw [line.trimmed] at chars
    have backwards := congrArg List.reverse chars
    unfold trimChars trimEnd at backwards
    rwa [List.reverse_reverse] at backwards
  rw [linesFrom_append _ _ _ line.single, List.append_nil, trimmed, dropReturn_dropWhile, ← trimmed,
    List.reverse_reverse]

/-- Lines that are written one below the other are read as they were written. -/
theorem lines_written {s : String} {ts : List String}
    (written : s.toList = ts.flatMap fun t => t.toList ++ ['\n']) (all : ∀ t ∈ ts, IsLine t) :
    lines s = ts := by
  unfold lines
  rw [written]
  clear written
  induction ts with
  | nil => rfl
  | cons t ts ih =>
    rw [List.forall_mem_cons] at all
    rw [List.flatMap_cons, List.append_assoc, List.singleton_append, linesFrom_line all.1,
      List.map_cons, String.ofList_toList, ih all.2]

theorem newline_notMem_linesFrom : ∀ (cs current : List Char), '\n' ∉ current →
    ∀ l ∈ linesFrom current cs, '\n' ∉ l
  | [], current, before, l, mem => by
    unfold linesFrom at mem
    split at mem
    · cases mem
    · rw [List.mem_singleton.1 mem]
      simpa using before
  | c :: cs, current, before, l, mem => by
    by_cases ended : c = '\n'
    · subst ended
      rw [linesFrom, List.mem_cons] at mem
      rcases mem with rfl | mem
      · intro newline
        rw [List.mem_reverse] at newline
        unfold dropReturn at newline
        split at newline
        · exact before (List.mem_cons_of_mem _ newline)
        · exact before newline
      · exact newline_notMem_linesFrom cs [] nofun l mem
    · rw [linesFrom] at mem
      · refine newline_notMem_linesFrom cs (c :: current) (fun newline => ?_) l mem
        rcases List.mem_cons.1 newline with same | newline
        · exact ended same.symm
        · exact before newline
      · exact ended

end Text

/-! ## Entries -/

namespace Job

open Text

theorem line?_of_isLine {lines : List String} {i : Nat} {t : String} (line : IsLine t)
    (there : lines[i]? = some t) : line? lines i = some t := by
  unfold line?
  rw [there]
  simp only [line.trimmed, if_neg line.some]

/-- What is read from a file of lines stands on a line of its own. -/
theorem isLine_of_line? {content t : String} {i : Nat} (h : line? (lines content) i = some t) :
    IsLine t := by
  unfold line? at h
  split at h
  · cases h
  rename_i l there
  simp only at h
  split at h
  · cases h
  rename_i kept
  cases h
  obtain ⟨cs, mem, rfl⟩ := List.mem_map.1 (List.mem_of_getElem? there)
  refine ⟨kept, trim_trim _, fun newline => ?_⟩
  have inside := mem_of_mem_trim newline
  rw [String.toList_ofList] at inside
  exact newline_notMem_linesFrom content.toList [] nofun cs mem inside

/-- The name of a job stands on a line of its own. -/
theorem isLine_name {content : String} {job : Job} (h : parse content = .ok job) :
    IsLine job.name := by
  unfold parse at h
  cases addressed : line? (lines content) 0 with
  | none => simp [addressed] at h
  | some address =>
    cases named : line? (lines content) 1 with
    | none => simp [addressed, named] at h
    | some name =>
      cases filed : line? (lines content) 2 with
      | none => simp [addressed, named, filed] at h
      | some file =>
        simp only [addressed, named, filed] at h
        obtain ⟨⟨host, port⟩, -, h⟩ := exists_of_bind_ok h
        by_cases empty : host = ""
        · simp only [if_pos empty] at h
          cases h
        · simp only [if_neg empty] at h
          cases h
          exact isLine_of_line? named

end Job

/-! ## Client ids and identities -/

theorem Text.Hex.solid_digit : ∀ v : UInt8, v < 16 → isBlank (digit v) = false :=
  forall_byte (by decide +kernel)

theorem ClientId.solid_text (id : ClientId) : ∀ c ∈ id.text.toList, Text.isBlank c = false := by
  intro c mem
  unfold text Text.Hex.encode at mem
  rw [String.toList_ofList] at mem
  obtain ⟨b, -, mem⟩ := List.mem_flatMap.1 mem
  obtain ⟨high, low, -⟩ := Text.Hex.halves b
  rcases List.mem_cons.1 mem with rfl | mem
  · exact Text.Hex.solid_digit _ high
  · rw [List.mem_singleton.1 mem]
    exact Text.Hex.solid_digit _ low

theorem ClientId.isLine_text (id : ClientId) : Text.IsLine id.text := by
  refine .of_solid (fun empty => ?_) id.solid_text
  have length := id.text_length
  rw [empty] at length
  cases length

/-- An id is read back from its text. -/
theorem ClientId.ofText_text (id : ClientId) : ofText id.text = .ok id := by
  unfold ofText
  rw [Text.trim_of_solid id.solid_text]
  unfold text
  simp only [Text.Hex.decode_encode]
  rw [dif_pos id.length_eq]

/-- The name, the client id and the private key stand on lines of their own. -/
theorem Identity.render_eq (i : Identity) :
    i.render = i.name ++ "\n" ++ i.clientId.text ++ "\n" ++ i.privateKey ++ "\n" := rfl

/-- An identity is read back from its text, if its name and its key stand on lines of their own. -/
theorem Identity.parse_render {i : Identity} (shownPath : String) (name : Text.IsLine i.name)
    (privateKey : Text.IsLine i.privateKey) : parse shownPath i.render = .ok i := by
  have lines : Text.lines i.render = [i.name, i.clientId.text, i.privateKey] := by
    refine Text.lines_written (by simp [render_eq, String.toList_append]) ?_
    simp [name, privateKey, i.clientId.isLine_text]
  have first : Job.line? [i.name, i.clientId.text, i.privateKey] 0 = some i.name :=
    Job.line?_of_isLine name rfl
  have second : Job.line? [i.name, i.clientId.text, i.privateKey] 1 = some i.clientId.text :=
    Job.line?_of_isLine i.clientId.isLine_text rfl
  have third : Job.line? [i.name, i.clientId.text, i.privateKey] 2 = some i.privateKey :=
    Job.line?_of_isLine privateKey rfl
  unfold parse
  simp only [lines, first, second, third, ClientId.ofText_text]
  rfl

end EncryptedBackup
