/-! # Delimited text

A text between delimiters, in which the delimiter itself is written twice.  This is how statements
hold identifiers and text literals. -/

namespace RecordStore.Text

/-- One character inside delimiters. -/
def doubled (delimiter c : Char) : List Char := if c = delimiter then [c, c] else [c]

/-- A text between delimiters, each one inside it written twice. -/
def delimited (delimiter : Char) (s : List Char) : List Char :=
  delimiter :: s.flatMap (doubled delimiter) ++ [delimiter]

end RecordStore.Text
