import RecordStore.Toml.Moment
import RecordStore.Toml.Number
import RecordStore.Toml.Quoted

/-! # Documents

A document is a list of statements, one a line: headings, each of which says where the keys after it
belong, and keys with their values.  `Table.ofStatements` gives the table that they define together
and `Table.parse?` reads the text of a document; arrays and tables in braces nest at most 79 deep,
and a key has at most 79 parts. -/

namespace RecordStore.Toml

open Text (Reader)

/-- One line of a document. -/
inductive Statement where
  /-- The heading of a table. -/
  | heading (k : DottedKey)
  /-- The heading of one more table of an array. -/
  | element (k : DottedKey)
  | pair (k : DottedKey) (v : Value)

/-! ### Keys and values -/

/-- The nesting of values and the parts of a key are bounded by this number. -/
def depthLimit : Nat := 79

/-- A letter, digit, underscore or hyphen, as in keys without quotes. -/
def isBareKeyChar (c : Char) : Bool := c.isAlphanum || c = '_' || c = '-'

/-- A key without dots. -/
def readSimpleKey : Reader String := fun s =>
  match s with
  | '"' :: _ => readLineText '"' s
  | '\'' :: _ => readLineText '\'' s
  | _ =>
    let cs := s.takeWhile isBareKeyChar
    if cs.isEmpty then none else some (String.ofList cs, s.drop cs.length)

/-- A key, and the spaces around its parts. -/
def readKey : Reader DottedKey := fun s => do
  let (parts, s) ← Reader.separated (fun s => do
    let (part, s) ← readSimpleKey (skipSpaces s)
    some (part, skipSpaces s)) '.' s
  let key ← parts.getLast?
  if parts.length ≤ depthLimit then some (⟨parts.dropLast, key⟩, s) else none

/-- A key, an equals sign and a value. -/
def readPair (value : Reader Value) : Reader (DottedKey × Value) := fun s => do
  let (k, s) ← readKey s
  let ((), s) ← Reader.char '=' s
  let (v, s) ← value (skipSpaces s)
  some ((k, v), s)

/-- The rest of an array after its opening bracket; a comma may follow the last value. -/
def readArray (value : Reader Value) : Reader Value := fun s => do
  let (items, s) ← Reader.optional (Reader.separated (fun s => do
    let (v, s) ← value (skipLines s)
    some (v, skipLines s)) ',') s
  let (_, s) ← if items.isSome then Reader.optional (Reader.char ',') s else some (none, s)
  let ((), s) ← Reader.char ']' (skipLines s)
  some (.array (items.getD []), s)

/-- The rest of a table after its opening brace. -/
def readInlineTable (value : Reader Value) : Reader Value := fun s => do
  let (pairs, s) ← Reader.optional (Reader.separated (fun s => do
    let (p, s) ← readPair value s
    some (p, skipSpaces s)) ',') s
  let ((), s) ← Reader.char '\x7d' (skipSpaces s)
  let t ← Table.ofPairs (pairs.getD [])
  some (.table .inline t, s)

/-- A truth value. -/
def readBoolean : Reader Value := fun s =>
  ((Reader.word ['t', 'r', 'u', 'e'] s).map fun ((), s) => (.boolean true, s)).or
    ((Reader.word ['f', 'a', 'l', 's', 'e'] s).map fun ((), s) => (.boolean false, s))

/-- A value without parts.  What begins like a number may also be a moment. -/
def readScalar : Reader Value := fun s =>
  ((((readText s).map fun (t, s) => (.string t, s)).or (readBoolean s)).or (readMoment s)).or
    (readNumber s)

/-- A value whose arrays and tables nest at most so deep. -/
def readValue : Nat → Reader Value
  | 0 => readScalar
  | depth + 1 => fun s => match s with
    | '[' :: rest => readArray (readValue depth) rest
    | '\x7b' :: rest => readInlineTable (readValue depth) rest
    | _ => readScalar s

/-! ### Statements -/

/-- The rest of a heading after its opening brackets. -/
def readHeading (close : List Char) (f : DottedKey → Statement) : Reader Statement := fun s => do
  let (k, s) ← readKey s
  let ((), s) ← Reader.word close s
  some (f k, s)

/-- A statement. -/
def readStatement : Reader Statement
  | '[' :: '[' :: s => readHeading [']', ']'] .element s
  | '[' :: s => readHeading [']'] .heading s
  | s => (readPair (readValue depthLimit) s).map fun ((k, v), s) => (.pair k v, s)

/-- A line with at most one statement. -/
def readLine : Reader (Option Statement) := fun s =>
  match readLineEnd s with
  | some ((), rest) => some (none, rest)
  | none => do
    let (statement, s) ← readStatement (skipSpaces s)
    let ((), s) ← readLineEnd s
    some (some statement, s)

/-- The statements of a text, which may begin with a byte order mark. -/
def readStatements (s : List Char) : Option (List Statement) :=
  let s := if s.head? = some '\ufeff' then s.drop 1 else s
  let (lines, rest) := Reader.many readLine s
  if rest.isEmpty then some (lines.filterMap id) else none

/-! ### The table of a document -/

/-- The table under construction, and the keys that lead to the table of the last heading. -/
structure Draft where
  root : Table := []
  current : List String := []

/-- What a statement adds. -/
def Draft.add (d : Draft) : Statement → Option Draft
  | .heading k => (d.root.openHeading k).map fun root => ⟨root, k.toList⟩
  | .element k => (d.root.addElement k).map fun root => ⟨root, k.toList⟩
  | .pair k v => (Table.within (Table.insert k.key v k.tables) d.current d.root).map fun root =>
      { d with root }

/-- The table that statements define together; nothing is defined twice. -/
def Table.ofStatements (statements : List Statement) : Option Table :=
  (statements.foldlM Draft.add {}).map Draft.root

/-- The table of a document, if it is well-formed. -/
def Table.parse? (text : String) : Option Table :=
  (readStatements text.toList).bind Table.ofStatements

end RecordStore.Toml
