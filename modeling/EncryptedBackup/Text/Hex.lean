/-
Byte strings as hexadecimal digits. Writing uses lower case, reading takes either case and names
the first thing wrong: an odd number of bytes before any bad digit.
-/
import EncryptedBackup.Text.Utf8

namespace EncryptedBackup.Text.Hex

/-- The digit for a value below sixteen. -/
def digit (v : UInt8) : Char :=
  Char.ofNat (if v < 10 then 48 + v.toNat else 87 + v.toNat)

/-- The digits of one byte. -/
def byteDigits (b : UInt8) : List Char :=
  [digit (b >>> 4), digit (b &&& 0xF)]

/-- The digits of a byte string. -/
def encode (bs : Bytes) : String :=
  String.ofList (bs.flatMap byteDigits)

/-- Why a text is no byte string. A bad digit is the byte found there. -/
inductive Defect where
  | oddLength
  | badDigit (found : UInt8) (position : Nat)
  deriving DecidableEq

/-- The value of a digit. -/
def value? (b : UInt8) : Option UInt8 :=
  if 48 ≤ b ∧ b ≤ 57 then some (b - 48)
  else if 65 ≤ b ∧ b ≤ 70 then some (b - 55)
  else if 97 ≤ b ∧ b ≤ 102 then some (b - 87)
  else none

/-- Read pairs of digits, the first of them at `position`. -/
def decodeFrom (position : Nat) : Bytes → Except Defect Bytes
  | [] => .ok []
  | [_] => .error .oddLength
  | hi :: lo :: bs =>
    match value? hi, value? lo with
    | none, _ => .error (.badDigit hi position)
    | some _, none => .error (.badDigit lo (position + 1))
    | some h, some l =>
      match decodeFrom (position + 2) bs with
      | .ok rest => .ok ((h <<< 4 ||| l) :: rest)
      | .error e => .error e

/-- The byte string that a text of hexadecimal digits denotes. -/
def decode (s : String) : Except Defect Bytes :=
  let bs := Utf8.encode s
  if bs.length % 2 = 1 then .error .oddLength else decodeFrom 0 bs

end EncryptedBackup.Text.Hex
