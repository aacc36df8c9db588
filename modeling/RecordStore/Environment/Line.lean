import RecordStore.Text.Blank

/-! # Lines of an environment file

A definition ends with its line, unless a quote is open: then it goes on over as many lines as it
takes to close the quote.  A comment begins at a number sign right after a blank outside of quotes,
the second of two blanks not counting as one, or at the front of a line.  A file that ends within a
definition, which may be right after a blank or a backslash, leaves that definition out. -/

namespace RecordStore.Environment

/-- Where in a definition a reader stands. -/
inductive LineState where
  | plain
  /-- After a blank, where a comment may begin. -/
  | afterBlank
  | escaped
  | single
  | singleEscaped
  | double
  | doubleEscaped
deriving DecidableEq

/-- Outside of quotes, where no blank counts. -/
def LineState.enter (c : Char) : LineState :=
  if c = '\\' then .escaped else if c = '"' then .double else if c = '\'' then .single else .plain

/-- The state after a character. -/
def LineState.next : LineState → Char → LineState
  | plain, c => if Text.isBlank c ∧ c ≠ '\n' ∧ c ≠ '\r' then afterBlank else enter c
  | afterBlank, c => enter c
  | escaped, _ => plain
  | single, c => if c = '\\' then singleEscaped else if c = '\'' then plain else single
  | singleEscaped, _ => single
  | double, c => if c = '\\' then doubleEscaped else if c = '"' then plain else double
  | doubleEscaped, _ => double

/-- The part of a line before its comment, and the state at its end; a comment ends the
definition. -/
def scanLine : LineState → List Char → List Char × LineState
  | state, [] => ([], state)
  | .afterBlank, '#' :: _ => ([], .plain)
  | state, c :: rest =>
    let (kept, final) := scanLine (state.next c) rest
    (c :: kept, final)

/-- The lines of a text, each with its end. -/
def splitLines : List Char → List (List Char)
  | [] => []
  | '\n' :: rest => ['\n'] :: splitLines rest
  | c :: rest =>
    match splitLines rest with
    | [] => [[c]]
    | line :: lines => (c :: line) :: lines

/-- The definitions that lines hold, the first being in the given state after what was read
before. -/
def joinLines (before : List Char) (state : LineState) : List (List Char) → List (List Char)
  | [] => []
  | line :: lines =>
    if (Text.skipBlank (before ++ line)).head? = some '#' then joinLines [] .plain lines
    else
      let (kept, final) := scanLine state line
      if final = .plain then (before ++ kept) :: joinLines [] .plain lines
      else joinLines (before ++ kept) final lines

/-- The definitions of a file, blank ones among them. -/
def definitionLines (text : String) : List (List Char) :=
  joinLines [] .plain (splitLines text.toList)

end RecordStore.Environment
