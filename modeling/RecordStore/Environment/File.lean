import RecordStore.Environment
import RecordStore.Environment.Line
import RecordStore.Text.Alphanumeric
import RecordStore.Text.Reader

/-! # Environment files

A file defines variables, one a line: `NAME=value`, after the word `export` or not.  A value may be
quoted in parts.  Outside of single quotes a backslash takes the special meaning from the next
character, and a dollar sign brings in the value of a variable: `$NAME` or `${NAME}`, where the
character after a name without braces always stands for itself.  A blank ends a value; after it
there may only be a comment.

`Environment.load` adds what a file defines to the variables that are there already, which are never
changed.  It stops at the first definition that is malformed. -/

namespace RecordStore.Environment

open Text (Reader skipBlank)

/-! ### Values -/

/-- What the next character of a value is read as. -/
inductive ValueState where
  | text
  | escaped
  | single
  /-- The name of a variable without braces, in part. -/
  | name (cs : List Char)
  | bracedName (cs : List Char)
  | finished

/-- The value of a variable, nothing if there is none. -/
def expand (env : Environment) (name : List Char) : List Char :=
  match env.get? (String.ofList name) with
  | some value => value.toList
  | none => []

/-- The character that a backslash and this character stand for. -/
def escape? (c : Char) : Option Char :=
  if c = '\\' ∨ c = '\'' ∨ c = '"' ∨ c = '$' ∨ c = ' ' then some c
  else if c = 'n' then some '\n'
  else none

/-- The rest of a value, within double quotes or not. -/
def readValue (env : Environment) : Bool → ValueState → List Char → Option (List Char)
  | quoted, .text, [] => if quoted then none else some []
  | quoted, .escaped, [] => if quoted then none else some []
  | _, .single, [] => none
  | quoted, .name cs, [] => if quoted then none else some (expand env cs)
  | _, .bracedName _, [] => none
  | _, .finished, [] => some []
  | quoted, .text, c :: rest =>
    if c = '$' then readValue env quoted (.name []) rest
    else if c = '\\' then readValue env quoted .escaped rest
    else if c = '"' then readValue env (!quoted) .text rest
    else if !quoted && c = '\'' then readValue env quoted .single rest
    else if !quoted && (c = ' ' || c = '\t') then readValue env quoted .finished rest
    else (readValue env quoted .text rest).map (c :: ·)
  | quoted, .escaped, c :: rest => do
    let plain ← escape? c
    (readValue env quoted .text rest).map (plain :: ·)
  | quoted, .single, c :: rest =>
    if c = '\'' then readValue env quoted .text rest
    else (readValue env quoted .single rest).map (c :: ·)
  | quoted, .name cs, c :: rest =>
    if Text.isAlphanumeric c then readValue env quoted (.name (cs ++ [c])) rest
    else if c = '\x7b' ∧ cs = [] then readValue env quoted (.bracedName []) rest
    else if c = '$' then (readValue env quoted (.name []) rest).map (expand env cs ++ ·)
    else (readValue env quoted .text rest).map (expand env cs ++ c :: ·)
  | quoted, .bracedName cs, c :: rest =>
    if c = '\x7d' then (readValue env quoted .text rest).map (expand env cs ++ ·)
    else readValue env quoted (.bracedName (cs ++ [c])) rest
  | quoted, .finished, c :: rest =>
    if c = ' ' ∨ c = '\t' then readValue env quoted .finished rest
    else if c = '#' then some []
    else none

/-! ### Definitions -/

/-- The name of a variable, and the blanks after it. -/
def readName : Reader String
  | c :: s =>
    if c.isAlpha ∨ c = '_' then
      let cs := (c :: s).takeWhile fun c => c.isAlphanum || c = '_' || c = '.'
      some (String.ofList cs, skipBlank ((c :: s).drop cs.length))
    else none
  | [] => none

/-- A name and an equals sign; a name that is the word `export` may stand before another. -/
def readDefinedName : Reader String := fun s => do
  let (name, s) ← readName s
  match s with
  | '=' :: rest => some (name, rest)
  | _ =>
    if name = "export" then
      let (name, s) ← readName s
      let ((), s) ← Reader.char '=' s
      some (name, s)
    else none

/-- A text without white space at its end. -/
def dropTrailingBlank (s : List Char) : List Char := (skipBlank s.reverse).reverse

/-- A definition: nothing on a blank line, and no result if it is malformed. -/
def readDefinition (env : Environment) (line : List Char) : Option (Option (String × String)) := do
  let s := skipBlank (dropTrailingBlank line)
  if s.isEmpty ∨ s.head? = some '#' then some none
  else
    let (name, s) ← readDefinedName s
    let s := skipBlank s
    if s.isEmpty ∨ s.head? = some '#' then some (some (name, ""))
    else
      let value ← readValue env false .text s
      some (some (name, String.ofList value))

/-- The variables after so many definitions. -/
def addDefinitions (env : Environment) : List (List Char) → Environment
  | [] => env
  | line :: lines =>
    match readDefinition env line with
    | none => env
    | some none => addDefinitions env lines
    | some (some (name, value)) => addDefinitions (env.define name value) lines

/-- The variables after a file, which may begin with a byte order mark. -/
def load (env : Environment) (text : String) : Environment :=
  let text := if text.startsWith "\ufeff" then (text.drop 1).toString else text
  addDefinitions env (definitionLines text)

end RecordStore.Environment
