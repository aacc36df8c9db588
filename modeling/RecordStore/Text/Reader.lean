/-! # Readers

A reader takes a value off the front of a text, or refuses.  `Reader.many` repeats a reader for as
long as it takes something, so that it needs no bound of its own: what is left gets shorter with
every round. -/

namespace RecordStore.Text

/-- A reader takes a value off the front of a text, or refuses. -/
abbrev Reader (α : Type) := List Char → Option (α × List Char)

/-- The value of a list of digits, which may be hexadecimal. -/
def digitsValue (base : Nat) (ds : List Char) : Nat :=
  ds.foldl (fun n c => base * n + if c.isDigit then c.toNat - 48 else c.toLower.toNat - 87) 0

/-- A hexadecimal digit in either case. -/
def isHexDigit (c : Char) : Bool :=
  c.isDigit || ('a' ≤ c && c ≤ 'f') || ('A' ≤ c && c ≤ 'F')

namespace Reader

variable {α : Type}

/-- At least `least` and at most `most` decimal digits, as many as there are. -/
def number (least most : Nat) : Reader Nat := fun s =>
  let ds := (s.take most).takeWhile Char.isDigit
  if ds.length < least then none else some (digitsValue 10 ds, s.drop ds.length)

/-- Exactly this character. -/
def char (c : Char) : Reader Unit
  | d :: rest => if d = c then some ((), rest) else none
  | [] => none

/-- Exactly these characters. -/
def word : List Char → Reader Unit
  | [], s => some ((), s)
  | c :: cs, s => do
    let ((), s) ← char c s
    word cs s

/-- A value that may be missing. -/
def optional (item : Reader α) : Reader (Option α) := fun s =>
  match item s with
  | some (a, rest) => some (some a, rest)
  | none => some (none, s)

/-- As many values as can be read one after the other, each of at least one character. -/
def many (item : Reader α) (s : List Char) : List α × List Char :=
  match item s with
  | none => ([], s)
  | some (a, rest) =>
    if rest.length < s.length then
      let (more, rest) := many item rest
      (a :: more, rest)
    else ([], s)
termination_by s.length

/-- Values with a separator between them, at least one. -/
def separated (item : Reader α) (separator : Char) : Reader (List α) := fun s => do
  let (first, s) ← item s
  let (more, s) := many (fun s => do
    let ((), s) ← char separator s
    item s) s
  some (first :: more, s)

end Reader

end RecordStore.Text
