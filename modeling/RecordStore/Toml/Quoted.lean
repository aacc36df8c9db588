import RecordStore.Toml.Layout

/-! # Quoted texts of a document

Double quotes surround texts with escapes, single quotes texts without.  Three quotes surround texts
of several lines: a line end right after the opening quotes does not count, every other is a line
feed, a backslash before a line end takes all blanks and line ends after it, and up to two quotes
may stand right before the closing ones. -/

namespace RecordStore.Toml

open Text (Reader)

/-! ### Characters -/

/-- The character with a code point of so many hexadecimal digits. -/
def readCodePoint (width : Nat) : Reader Char := fun s =>
  let ds := s.take width
  let n := Text.digitsValue 16 ds
  if ds.length = width ∧ ds.all Text.isHexDigit ∧ n.isValidChar then
    some (Char.ofNat n, s.drop width)
  else none

/-- An escape. -/
def readEscape : Reader Char
  | '\\' :: 'b' :: s => some ('\x08', s)
  | '\\' :: 't' :: s => some ('\t', s)
  | '\\' :: 'n' :: s => some ('\n', s)
  | '\\' :: 'f' :: s => some ('\x0c', s)
  | '\\' :: 'r' :: s => some ('\r', s)
  | '\\' :: '"' :: s => some ('"', s)
  | '\\' :: '\\' :: s => some ('\\', s)
  | '\\' :: 'u' :: s => readCodePoint 4 s
  | '\\' :: 'U' :: s => readCodePoint 8 s
  | _ => none

/-- A backslash at the end of a line, with the blanks and line ends up to the next word. -/
def readContinuation : Reader Unit
  | '\\' :: s => do
    let ((), s) ← readNewline (skipSpaces s)
    some ((), skipSpaces (Reader.many (fun s => readNewline (skipSpaces s)) s).2)
  | _ => none

/-- A character that stands for itself between such quotes. -/
def readPlain (quote : Char) : Reader Char
  | c :: s => if isPlain c ∧ c ≠ quote then some (c, s) else none
  | [] => none

/-- A character between such quotes. -/
def readCharacter (quote : Char) : Reader Char
  | '\\' :: s => if quote = '"' then readEscape ('\\' :: s) else some ('\\', s)
  | s => readPlain quote s

/-- What stands for itself between three such quotes, or for nothing: one or two quotes, a line end,
a continuation, a character. -/
def readPiece (quote : Char) : Reader (List Char) := fun s =>
  if s.take 3 = [quote, quote, quote] then none
  else if s.head? = some quote then some ([quote], s.drop 1)
  else match readNewline s with
    | some ((), rest) => some (['\n'], rest)
    | none => match if quote = '"' then readContinuation s else none with
      | some ((), rest) => some ([], rest)
      | none => (readCharacter quote s).map fun (c, rest) => ([c], rest)

/-! ### Texts -/

/-- A text on one line. -/
def readLineText (quote : Char) : Reader String := fun s => do
  let ((), s) ← Reader.char quote s
  let (cs, s) := Reader.many (readCharacter quote) s
  let ((), s) ← Reader.char quote s
  some (String.ofList cs, s)

/-- A text of several lines. -/
def readBlockText (quote : Char) : Reader String := fun s => do
  let ((), s) ← Reader.word [quote, quote, quote] s
  let (_, s) ← Reader.optional readNewline s
  let (pieces, s) := Reader.many (readPiece quote) s
  let quotes := min (s.takeWhile (· = quote)).length 5
  if quotes < 3 then none
  else some (String.ofList (pieces.flatten ++ List.replicate (quotes - 3) quote), s.drop quotes)

/-- A text between quotes of either kind. -/
def readText : Reader String := fun s =>
  match s with
  | '"' :: '"' :: '"' :: _ => readBlockText '"' s
  | '"' :: _ => readLineText '"' s
  | '\'' :: '\'' :: '\'' :: _ => readBlockText '\'' s
  | _ => readLineText '\'' s

end RecordStore.Toml
