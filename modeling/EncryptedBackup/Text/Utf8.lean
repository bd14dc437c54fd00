/-
UTF-8. `encode` writes text; one scan of a byte string serves both readers: `decode?` refuses a
string with any defect, `lossy` puts U+FFFD in the place of each. A defect is a longest prefix of a
valid sequence that does not go on, or else a single byte that can start none.
-/
import EncryptedBackup.Bytes

namespace EncryptedBackup.Utf8

/-- The bytes of a text. -/
def encode (s : String) : Bytes :=
  s.toList.flatMap String.utf8EncodeChar

/-! ## The scan -/

/-- A sequence of two to four bytes that is not finished: the value of its bits so far, how many
continuation bytes it still owes, and the range in which the next one must lie. -/
structure Begun where
  bits : Nat
  owed : Nat
  low : UInt8 := 0x80
  high : UInt8 := 0xBF
  deriving DecidableEq

/-- Where a scan stands: the sequence it is in, if any, and what it has read, newest first; `none`
is a defect. -/
structure Scan where
  begun : Option Begun := none
  read : List (Option Char) := []

namespace Scan

/-- Read `b` between two sequences. -/
def start (read : List (Option Char)) (b : UInt8) : Scan :=
  if b < 0x80 then ⟨none, some (Char.ofNat b.toNat) :: read⟩
  else if b < 0xC2 then ⟨none, none :: read⟩
  else if b < 0xE0 then ⟨some { bits := b.toNat - 0xC0, owed := 1 }, read⟩
  else if b = 0xE0 then ⟨some { bits := 0, owed := 2, low := 0xA0 }, read⟩
  else if b = 0xED then ⟨some { bits := 0xD, owed := 2, high := 0x9F }, read⟩
  else if b < 0xF0 then ⟨some { bits := b.toNat - 0xE0, owed := 2 }, read⟩
  else if b = 0xF0 then ⟨some { bits := 0, owed := 3, low := 0x90 }, read⟩
  else if b < 0xF4 then ⟨some { bits := b.toNat - 0xF0, owed := 3 }, read⟩
  else if b = 0xF4 then ⟨some { bits := 4, owed := 3, high := 0x8F }, read⟩
  else ⟨none, none :: read⟩

/-- Read one more byte. One that does not continue a sequence ends it as a defect and is then read
on its own. -/
def feed (s : Scan) (b : UInt8) : Scan :=
  match s.begun with
  | none => start s.read b
  | some p =>
    if p.low ≤ b ∧ b ≤ p.high then
      let bits := 64 * p.bits + (b.toNat - 0x80)
      if p.owed ≤ 1 then ⟨none, some (Char.ofNat bits) :: s.read⟩
      else ⟨some { bits, owed := p.owed - 1 }, s.read⟩
    else start (none :: s.read) b

/-- What was read, in order; a sequence that the end cuts off is a defect. -/
def finish (s : Scan) : List (Option Char) :=
  match s.begun with
  | none => s.read.reverse
  | some _ => (none :: s.read).reverse

end Scan

/-- The characters and defects of a byte string, in order. -/
def scan (bs : Bytes) : List (Option Char) :=
  (bs.foldl Scan.feed {}).finish

/-! ## The two readers -/

/-- The text with these bytes, if they are valid UTF-8. -/
def decode? (bs : Bytes) : Option String :=
  let cs := scan bs
  if cs.all Option.isSome then some (String.ofList (cs.filterMap id)) else none

/-- What stands for a defect. -/
def replacement : Char := Char.ofNat 0xFFFD

/-- The text with these bytes, each defect replaced. -/
def lossy (bs : Bytes) : String :=
  String.ofList ((scan bs).map (·.getD replacement))

end EncryptedBackup.Utf8
