/-
Decimal numbers are parsed exactly. A text is accepted if it denotes a number of at most the greatest
value (`parse_eq_ok_iff`), and any other has the one defect that is reported (`parse_eq_error_iff`).
-/
import EncryptedBackup.Text.Decimal

namespace EncryptedBackup.Text.Decimal

/-! ## Numbers and defects -/

/-- ASCII digits and nothing else. -/
def Digits (cs : List Char) : Prop := ∀ c ∈ cs, c.isDigit = true

/-- The characters of a text behind its sign, or all of them if it has none. -/
def Behind (s : String) (cs : List Char) : Prop :=
  s.toList = '+' :: cs ∨ s.toList = cs ∧ cs.head? ≠ some '+'

/-- A text denotes a number: one digit at least, behind a sign or without. -/
def Denotes (s : String) (n : Nat) : Prop :=
  ∃ ds, Behind s ds ∧ ds ≠ [] ∧ Digits ds ∧ Nat.ofDigitChars 10 ds 0 = n

/-- What is wrong with a text that denotes no number of at most `max`. The number of the digits before
a bad one must not be too large already. -/
inductive Wrong (max : Nat) (s : String) : Defect → Prop where
  | empty (nothing : s = "") : Wrong max s .empty
  | sign (only : s = "+") : Wrong max s .badDigit
  | badDigit {ds rest : List Char} {c : Char} (behind : Behind s (ds ++ c :: rest))
    (digits : Digits ds) (fits : Nat.ofDigitChars 10 ds 0 ≤ max) (bad : c.isDigit = false) :
    Wrong max s .badDigit
  | tooLarge {ds rest : List Char} (behind : Behind s (ds ++ rest)) (digits : Digits ds)
    (large : max < Nat.ofDigitChars 10 ds 0) : Wrong max s .tooLarge

/-! ## Digits -/

section

variable {max v : Nat} {ds : List Char}

theorem Digits.of_cons {c : Char} (digits : Digits (c :: ds)) : c.isDigit = true ∧ Digits ds :=
  ⟨digits c List.mem_cons_self, fun d mem => digits d (List.mem_cons_of_mem c mem)⟩

/-- More digits make no smaller number. -/
theorem le_ofDigitChars : ∀ (ds : List Char) (v : Nat), v ≤ Nat.ofDigitChars 10 ds v
  | [], _ => Nat.le_refl _
  | c :: ds, v => by
    have rest := le_ofDigitChars ds (10 * v + (c.toNat - '0'.toNat))
    rw [Nat.ofDigitChars_cons]
    omega

theorem digitsFrom_cons {c : Char} (digit : c.isDigit = true)
    (fits : 10 * v + (c.toNat - '0'.toNat) ≤ max) (cs : List Char) :
    digitsFrom max v (c :: cs) = digitsFrom max (10 * v + (c.toNat - '0'.toNat)) cs := by
  rw [digitsFrom, if_pos digit]
  exact if_pos fits

/-- Digits whose number fits are read. -/
theorem digitsFrom_append : ∀ {ds : List Char} {v : Nat} (rest : List Char), Digits ds →
    Nat.ofDigitChars 10 ds v ≤ max →
      digitsFrom max v (ds ++ rest) = digitsFrom max (Nat.ofDigitChars 10 ds v) rest
  | [], _, _, _, _ => rfl
  | c :: ds, v, rest, digits, fits => by
    obtain ⟨digit, digits⟩ := digits.of_cons
    rw [Nat.ofDigitChars_cons] at fits ⊢
    rw [List.cons_append, digitsFrom_cons digit (Nat.le_trans (le_ofDigitChars ds _) fits),
      digitsFrom_append rest digits fits]

/-- A number that does not fit is noticed, whatever follows. -/
theorem digitsFrom_of_large : ∀ {ds : List Char} {v : Nat} (rest : List Char), Digits ds →
    v ≤ max → max < Nat.ofDigitChars 10 ds v →
      digitsFrom max v (ds ++ rest) = .error .tooLarge
  | [], v, _, _, before, large => absurd large (Nat.not_lt.2 before)
  | c :: ds, v, rest, digits, _, large => by
    obtain ⟨digit, digits⟩ := digits.of_cons
    rw [Nat.ofDigitChars_cons] at large
    by_cases fits : 10 * v + (c.toNat - '0'.toNat) ≤ max
    · rw [List.cons_append, digitsFrom_cons digit fits]
      exact digitsFrom_of_large rest digits fits large
    · rw [List.cons_append, digitsFrom, if_pos digit]
      exact if_neg fits

/-- Characters are digits of a number that fits, or there is a first one that is no digit, or the
number of the first of them is too large. -/
theorem digits_cases : ∀ (cs : List Char) {v : Nat}, v ≤ max →
    (Digits cs ∧ Nat.ofDigitChars 10 cs v ≤ max) ∨
    (∃ ds c rest, cs = ds ++ c :: rest ∧ Digits ds ∧ Nat.ofDigitChars 10 ds v ≤ max ∧
      c.isDigit = false) ∨
    ∃ ds rest, cs = ds ++ rest ∧ Digits ds ∧ max < Nat.ofDigitChars 10 ds v
  | [], _, before => .inl ⟨nofun, before⟩
  | c :: cs, v, before => by
    cases digit : c.isDigit with
    | false => exact .inr (.inl ⟨[], c, cs, rfl, nofun, before, digit⟩)
    | true =>
      have one {ds : List Char} (digits : Digits ds) : Digits (c :: ds) :=
        List.forall_mem_cons.2 ⟨digit, digits⟩
      by_cases fits : 10 * v + (c.toNat - '0'.toNat) ≤ max
      · rcases digits_cases cs fits with ⟨digits, fits⟩ | ⟨ds, d, rest, rfl, digits, fits, bad⟩ |
          ⟨ds, rest, rfl, digits, large⟩
        · refine .inl ⟨one digits, ?_⟩
          rwa [Nat.ofDigitChars_cons]
        · refine .inr (.inl ⟨c :: ds, d, rest, rfl, one digits, ?_, bad⟩)
          rwa [Nat.ofDigitChars_cons]
        · refine .inr (.inr ⟨c :: ds, rest, rfl, one digits, ?_⟩)
          rwa [Nat.ofDigitChars_cons]
      · refine .inr (.inr ⟨[c], cs, rfl, one nofun, ?_⟩)
        rw [Nat.ofDigitChars_cons]
        exact Nat.lt_of_not_le fits

end

/-! ## Signs -/

variable {max : Nat} {s : String}

theorem parse_of_behind {cs : List Char} (behind : Behind s cs) (some : cs ≠ []) :
    parse max s = digitsFrom max 0 cs := by
  unfold parse
  rcases behind with signed | ⟨rfl, unsigned⟩
  · rw [signed]
    cases cs with
    | nil => exact absurd rfl some
    | cons c cs => rfl
  · unfold parseChars
    split
    · exact absurd (by assumption) some
    · exact absurd (by simp [*]) unsigned
    · exact absurd (by simp [*]) unsigned
    · rfl

theorem cases_behind (s : String) : s = "" ∨ s = "+" ∨ ∃ cs, cs ≠ [] ∧ Behind s cs := by
  cases chars : s.toList with
  | nil => exact .inl (String.toList_inj.1 chars)
  | cons c cs =>
    by_cases sign : c = '+'
    · subst sign
      cases cs with
      | nil => exact .inr (.inl (String.toList_inj.1 chars))
      | cons d cs => exact .inr (.inr ⟨d :: cs, nofun, .inl chars⟩)
    · refine .inr (.inr ⟨c :: cs, nofun, .inr ⟨chars, ?_⟩⟩)
      simpa using sign

/-! ## Parsing -/

/-- A text is accepted as a number if it denotes that number and the number is not too large. -/
theorem parse_eq_ok_iff {n : Nat} : parse max s = .ok n ↔ Denotes s n ∧ n ≤ max := by
  constructor
  · intro parsed
    rcases cases_behind s with rfl | rfl | ⟨cs, some, behind⟩
    · cases parsed
    · cases parsed
    · rw [parse_of_behind behind some] at parsed
      rcases digits_cases cs (Nat.zero_le max) with ⟨digits, fits⟩ |
        ⟨ds, c, rest, rfl, digits, fits, bad⟩ | ⟨ds, rest, rfl, digits, large⟩
      · have read := digitsFrom_append [] digits fits
        rw [List.append_nil, parsed] at read
        cases read
        exact ⟨⟨cs, behind, some, digits, rfl⟩, fits⟩
      · rw [digitsFrom_append _ digits fits, digitsFrom, bad] at parsed
        cases parsed
      · rw [digitsFrom_of_large rest digits (Nat.zero_le max) large] at parsed
        cases parsed
  · rintro ⟨⟨ds, behind, some, digits, rfl⟩, fits⟩
    have read := digitsFrom_append [] digits fits
    rw [List.append_nil] at read
    rw [parse_of_behind behind some, read]
    rfl

/-- A text is refused for what is wrong with it. -/
theorem parse_eq_error_iff {defect : Defect} : parse max s = .error defect ↔ Wrong max s defect := by
  constructor
  · intro parsed
    rcases cases_behind s with rfl | rfl | ⟨cs, some, behind⟩
    · cases parsed
      exact .empty rfl
    · cases parsed
      exact .sign rfl
    · rw [parse_of_behind behind some] at parsed
      rcases digits_cases cs (Nat.zero_le max) with ⟨digits, fits⟩ |
        ⟨ds, c, rest, rfl, digits, fits, bad⟩ | ⟨ds, rest, rfl, digits, large⟩
      · have read := digitsFrom_append [] digits fits
        rw [List.append_nil, parsed] at read
        cases read
      · rw [digitsFrom_append _ digits fits, digitsFrom, bad] at parsed
        cases parsed
        exact .badDigit behind digits fits bad
      · rw [digitsFrom_of_large rest digits (Nat.zero_le max) large] at parsed
        cases parsed
        exact .tooLarge behind digits large
  · rintro (rfl | rfl | ⟨behind, digits, fits, bad⟩ | @⟨ds, rest, behind, digits, large⟩)
    · rfl
    · rfl
    · rw [parse_of_behind behind (by simp), digitsFrom_append _ digits fits, digitsFrom, bad]
      rfl
    · have some : ds ++ rest ≠ [] := by
        intro none
        rw [(List.append_eq_nil_iff.1 none).1] at large
        exact Nat.not_lt_zero _ large
      rw [parse_of_behind behind some, digitsFrom_of_large rest digits (Nat.zero_le max) large]

/-- The digits of a number denote it. -/
theorem denotes_repr (n : Nat) : Denotes n.repr n := by
  have digits : Digits (Nat.toDigits 10 n) :=
    fun c mem => Nat.isDigit_of_mem_toDigits (by decide) (by decide) mem
  refine ⟨Nat.toDigits 10 n, .inr ⟨?_, ?_⟩, Nat.toDigits_ne_nil, digits,
    Nat.ofDigitChars_toDigits (by decide) (by decide)⟩
  · rw [Nat.repr_eq_ofList_toDigits, String.toList_ofList]
  · intro sign
    cases digits '+' (List.mem_of_mem_head? sign)

end EncryptedBackup.Text.Decimal
