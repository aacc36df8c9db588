import RecordStore.Text.Reader

/-! # Blanks, comments and line ends of a document

Only spaces and tabs separate words; a line ends at a line feed, which a carriage return may
precede.  A comment reaches to the end of its line and holds no control characters but tabs. -/

namespace RecordStore.Toml

open Text (Reader)

/-- A character that may stand in a comment or in a text as it is. -/
def isPlain (c : Char) : Bool := c = '\t' || (decide (0x20 ≤ c.toNat) && c != '\x7f')

/-- A space or a tab. -/
def isSpace (c : Char) : Bool := c = ' ' || c = '\t'

/-- A text without the spaces and tabs at its front. -/
def skipSpaces (s : List Char) : List Char := s.dropWhile isSpace

/-- The end of a line. -/
def readNewline : Reader Unit
  | '\n' :: s => some ((), s)
  | '\r' :: '\n' :: s => some ((), s)
  | _ => none

/-- A comment, without the end of its line. -/
def readComment : Reader Unit
  | '#' :: s => some ((), s.dropWhile isPlain)
  | _ => none

/-- What may follow a statement: a comment, and the end of the line or of the document. -/
def readLineEnd : Reader Unit := fun s => do
  let (_, s) ← Reader.optional readComment (skipSpaces s)
  if s.isEmpty then some ((), []) else readNewline s

/-- A line with nothing on it but a comment. -/
def readBlankLine : Reader Unit := fun s => do
  let (_, s) ← Reader.optional readComment (skipSpaces s)
  readNewline s

/-- A text without the spaces, tabs and blank lines at its front. -/
def skipLines (s : List Char) : List Char := skipSpaces (Reader.many readBlankLine s).2

end RecordStore.Toml
