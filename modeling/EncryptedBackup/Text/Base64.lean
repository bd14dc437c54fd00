/-
Base64 with the standard alphabet. Reading is strict: padding is required and exact, bits that
stand for no byte are zero, and nothing but digits and padding is allowed.
-/
import EncryptedBackup.Bytes

namespace EncryptedBackup.Text.Base64

/-- The digit for a value below 64. -/
def digit (v : Nat) : Char :=
  if v < 26 then Char.ofNat (65 + v)
  else if v < 52 then Char.ofNat (71 + v)
  else if v < 62 then Char.ofNat (v - 4)
  else if v = 62 then '+' else '/'

/-- The value of a digit. -/
def value? (c : Char) : Option Nat :=
  if 'A' ≤ c ∧ c ≤ 'Z' then some (c.toNat - 65)
  else if 'a' ≤ c ∧ c ≤ 'z' then some (c.toNat - 71)
  else if '0' ≤ c ∧ c ≤ '9' then some (c.toNat + 4)
  else if c = '+' then some 62
  else if c = '/' then some 63
  else none

/-- The digits of a byte string, three bytes to four digits. -/
def encodeChars : Bytes → List Char
  | [] => []
  | [a] => [digit (a.toNat / 4), digit (a.toNat % 4 * 16), '=', '=']
  | [a, b] =>
    [digit (a.toNat / 4), digit (a.toNat % 4 * 16 + b.toNat / 16), digit (b.toNat % 16 * 4), '=']
  | a :: b :: c :: bs =>
    digit (a.toNat / 4) :: digit (a.toNat % 4 * 16 + b.toNat / 16) ::
      digit (b.toNat % 16 * 4 + c.toNat / 64) :: digit (c.toNat % 64) :: encodeChars bs

/-- The text of a byte string. -/
def encode (bs : Bytes) : String :=
  String.ofList (encodeChars bs)

/-- The one byte of a group that ends in two pads. -/
def oneByte? (w x : Char) : Option Bytes := do
  let w ← value? w
  let x ← value? x
  if x % 16 = 0 then some [.ofNat (w * 4 + x / 16)] else none

/-- The two bytes of a group that ends in one pad. -/
def twoBytes? (w x y : Char) : Option Bytes := do
  let w ← value? w
  let x ← value? x
  let y ← value? y
  if y % 4 = 0 then some [.ofNat (w * 4 + x / 16), .ofNat (x % 16 * 16 + y / 4)] else none

/-- The three bytes of a full group. -/
def threeBytes? (w x y z : Char) : Option Bytes := do
  let w ← value? w
  let x ← value? x
  let y ← value? y
  let z ← value? z
  some [.ofNat (w * 4 + x / 16), .ofNat (x % 16 * 16 + y / 4), .ofNat (y % 4 * 64 + z)]

/-- The byte string that these digits denote. -/
def decodeChars? : List Char → Option Bytes
  | [] => some []
  | [w, x, '=', '='] => oneByte? w x
  | [w, x, y, '='] => twoBytes? w x y
  | w :: x :: y :: z :: cs => do
    let head ← threeBytes? w x y z
    let rest ← decodeChars? cs
    some (head ++ rest)
  | _ => none

/-- The byte string that a text denotes. -/
def decode? (s : String) : Option Bytes :=
  decodeChars? s.toList

end EncryptedBackup.Text.Base64
