/-
Decimal numbers with a greatest value. Digits are read from the left and the first problem met is
the one reported, so a bad digit behind an overflow goes unnoticed.
-/

namespace EncryptedBackup.Text.Decimal

/-- Why a text is no number in range. -/
inductive Defect where
  | empty
  | badDigit
  | tooLarge
  deriving DecidableEq

/-- The words for it. -/
def Defect.message : Defect → String
  | .empty => "cannot parse integer from empty string"
  | .badDigit => "invalid digit found in string"
  | .tooLarge => "number too large to fit in target type"

/-- Go on from the value `v` of the digits read. -/
def digitsFrom (max v : Nat) : List Char → Except Defect Nat
  | [] => .ok v
  | c :: cs =>
    if c.isDigit then
      let v := 10 * v + (c.toNat - '0'.toNat)
      if v ≤ max then digitsFrom max v cs else .error .tooLarge
    else .error .badDigit

/-- A number of at most `max`: ASCII digits, one `+` allowed in front. -/
def parseChars (max : Nat) : List Char → Except Defect Nat
  | [] => .error .empty
  | ['+'] => .error .badDigit
  | '+' :: cs => digitsFrom max 0 cs
  | cs => digitsFrom max 0 cs

/-- A number of at most `max`: ASCII digits, one `+` allowed in front. -/
def parse (max : Nat) (s : String) : Except Defect Nat :=
  parseChars max s.toList

end EncryptedBackup.Text.Decimal
