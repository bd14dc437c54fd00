/-
Lengths of time in words. A length of time is kept in whole milliseconds and written as its
non-zero parts, from years down.
-/

namespace EncryptedBackup

/-- A length of time in whole milliseconds. -/
structure Duration where
  millis : Nat
  deriving DecidableEq

namespace Duration

/-- Cut a count of nanoseconds to whole milliseconds, of which 64 bits are kept. -/
def ofNanos (nanos : Nat) : Duration :=
  ⟨nanos / 1000000 % UInt64.size⟩

/-- Whole seconds. -/
def seconds (d : Duration) : Nat := d.millis / 1000

/-- The nanoseconds beyond the whole seconds. -/
def subsecNanos (d : Duration) : Nat := d.millis % 1000 * 1000000

/-- `n` of a unit that takes a plural, or nothing for zero. -/
def plural (n : Nat) (unit : String) : List String :=
  if n = 0 then [] else if n = 1 then [s!"{n}{unit}"] else [s!"{n}{unit}s"]

/-- `n` of a unit that takes none, or nothing for zero. -/
def plain (n : Nat) (unit : String) : List String :=
  if n = 0 then [] else [s!"{n}{unit}"]

/-- A mean year of the Julian calendar, in seconds. -/
def year : Nat := 31557600

/-- A month of 30.44 days, in seconds. -/
def month : Nat := 2630016

/-- The non-zero parts, joined by spaces; `0s` if there are none. -/
def text (d : Duration) : String :=
  let inYear := d.seconds % year
  let inMonth := inYear % month
  let inDay := inMonth % 86400
  let parts :=
    plural (d.seconds / year) "year" ++ plural (inYear / month) "month" ++
    plural (inMonth / 86400) "day" ++ plain (inDay / 3600) "h" ++ plain (inDay % 3600 / 60) "m" ++
    plain (inDay % 60) "s" ++ plain (d.millis % 1000) "ms"
  if parts.isEmpty then "0s" else " ".intercalate parts

end Duration

end EncryptedBackup
