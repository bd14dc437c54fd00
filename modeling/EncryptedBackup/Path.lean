/-
Paths of files: byte strings cut at slashes. A path names the file of its last component, if that
is neither the start of the path, nor the directory it is in, nor the one above.
-/
import EncryptedBackup.Text.Utf8

namespace EncryptedBackup

/-- A path, in the bytes that the file system takes. -/
structure Path where
  bytes : Bytes
  deriving DecidableEq

namespace Path

/-- The byte between two components. -/
def slash : UInt8 := 0x2F

/-- The component for the directory itself. -/
def dot : Bytes := [0x2E]

/-- The component for the directory above. -/
def dotDot : Bytes := [0x2E, 0x2E]

/-- The path with this text. -/
def ofText (s : String) : Path := ⟨Utf8.encode s⟩

/-- A path as messages show it. -/
def text (p : Path) : String := Utf8.lossy p.bytes

/-- Cut at each slash; `current` is what was read of the present component, newest first. -/
def cut (current : Bytes) : Bytes → List Bytes
  | [] => [current.reverse]
  | b :: bs => if b = slash then current.reverse :: cut [] bs else cut (b :: current) bs

/-- What stands between the slashes of a path, empty pieces included. -/
def components (p : Path) : List Bytes := cut [] p.bytes

/-- Components without those at the end that lead nowhere: slashes there, and, unless `dots` is
false, the directory itself. -/
def dropEnd (dots : Bool) (components : List Bytes) : List Bytes :=
  (components.reverse.dropWhile fun c => c = [] || dots && c = dot).reverse

/-- The components of the paths above a path, the longest first and all of them shorter. -/
def above (components : List Bytes) : List (List Bytes) :=
  go components.length components
where
  /-- The first argument bounds the number of paths. -/
  go : Nat → List Bytes → List (List Bytes)
    | 0, _ => []
    | fuel + 1, components =>
      match dropEnd true (dropEnd true components).dropLast with
      | [] => []
      | shorter => shorter :: go fuel shorter

/-- Does a path start from the root? -/
def isAbsolute (p : Path) : Bool := p.bytes.head? == some slash

/-- The name of the file that a path leads to, if it names one. -/
def fileName? (p : Path) : Option Bytes :=
  match (p.components.filter fun c => c ≠ [] ∧ c ≠ dot).getLast? with
  | some c => if c = dotDot then none else some c
  | none => none

end Path

end EncryptedBackup
