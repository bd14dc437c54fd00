/-
The lines of a text. A line ends at a line feed, or at a carriage return followed by one; the last
line may be ended by the end of the text, and a final line end makes no further line.
-/

namespace EncryptedBackup.Text

/-- Drop a carriage return that stands first: here the lines are read backwards. -/
def dropReturn : List Char → List Char
  | '\r' :: cs => cs
  | cs => cs

/-- The lines from here on, when `current` was read of the present one, newest first. -/
def linesFrom (current : List Char) : List Char → List (List Char)
  | [] => if current.isEmpty then [] else [current.reverse]
  | '\n' :: cs => (dropReturn current).reverse :: linesFrom [] cs
  | c :: cs => linesFrom (c :: current) cs

/-- The lines of a text, without their ends. -/
def lines (s : String) : List String :=
  (linesFrom [] s.toList).map String.ofList

end EncryptedBackup.Text
