/-
Text in quotes, as messages show it. Tab, carriage return, line feed, NUL, the backslash and the
quote in use are written with a backslash, other code points without a shape of their own by their
number.
-/
import EncryptedBackup.Text.Unprintable

namespace EncryptedBackup.Text.Quoted

/-- The number of a code point in lower case hexadecimal digits. -/
def number (c : Char) : List Char :=
  Nat.toDigits 16 c.toNat

/-- One character inside quotes of the given kind. -/
def escape (quote c : Char) : List Char :=
  if c = '\t' then ['\\', 't']
  else if c = '\r' then ['\\', 'r']
  else if c = '\n' then ['\\', 'n']
  else if c = '\x00' then ['\\', '0']
  else if c = '\\' ∨ c = quote then ['\\', c]
  else if isUnprintable c then ['\\', 'u', '\x7b'] ++ number c ++ ['\x7d']
  else [c]

/-- A text in double quotes. -/
def text (s : String) : String :=
  String.ofList ('\x22' :: s.toList.flatMap (escape '\x22') ++ ['\x22'])

/-- A character in single quotes. -/
def char (c : Char) : String :=
  String.ofList ('\x27' :: escape '\x27' c ++ ['\x27'])

end EncryptedBackup.Text.Quoted
