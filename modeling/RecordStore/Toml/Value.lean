/-! # Values and tables of a TOML document

A document is a table.  Its statements build it up, and each says where in the table it belongs:
`Table.insert` puts a value under a dotted key, `Table.openHeading` and `Table.addElement` enter the
table of a heading.  All three refuse to define anything twice, so they keep with every table how it
came to be. Reals and moments in time are recognised, but what they stand for is not kept. -/

namespace RecordStore.Toml

/-- How a table came to be, which decides what may still be put into it. -/
inductive TableOrigin where
  /-- It stands between braces and is complete. -/
  | inline
  /-- It has a heading of its own. -/
  | heading
  /-- It is only named in the heading of a table within it, and may get a heading of its own. -/
  | implied
  /-- It is only named in dotted keys. -/
  | dotted
deriving DecidableEq

/-- A value of a document. -/
inductive Value where
  | string (s : String)
  | integer (n : Int)
  | real
  | boolean (b : Bool)
  | moment
  | array (items : List Value)
  | table (origin : TableOrigin) (entries : List (String × Value))
  /-- An array whose elements are tables with headings, of which the last may still grow. -/
  | tables (before : List (List (String × Value))) (last : List (String × Value))

/-- The entries of a table, in the order in which they were defined. -/
abbrev Table := List (String × Value)

/-- A key with the keys of the tables that it is to be found in. -/
structure DottedKey where
  tables : List String
  key : String
deriving DecidableEq

/-- Every table on the way and the entry itself. -/
def DottedKey.toList (k : DottedKey) : List String := k.tables ++ [k.key]

namespace Table

/-! ### Building a table -/

/-- Change the value of a key, or define it; `f` is given the value so far and may refuse. -/
def alter (key : String) (f : Option Value → Option Value) : Table → Option Table
  | [] => (f none).map fun v => [(key, v)]
  | (k, v) :: rest =>
    if k = key then (f (some v)).map fun w => (k, w) :: rest
    else (alter key f rest).map ((k, v) :: ·)

/-- Define a key.  The tables of a dotted key are made on the way; one that has a heading or braces
is closed to dotted keys, and the innermost must owe its existence to dotted keys alone. -/
def insert (key : String) (v : Value) : List String → Table → Option Table
  | [] => alter key fun
    | none => some v
    | some _ => none
  | t :: ts => alter t fun
    | none => (insert key v ts []).map (.table .dotted)
    | some (.table .dotted entries) => (insert key v ts entries).map (.table .dotted)
    | some (.table .implied entries) =>
      if ts.isEmpty then none else (insert key v ts entries).map (.table .implied)
    | some (.tables before last) =>
      if ts.isEmpty then none else (insert key v ts last).map (.tables before)
    | some _ => none

/-- Change the table that a list of keys leads to.  Tables that are missing on the way are implied,
and an array of tables leads to its last element. -/
def within (f : Table → Option Table) : List String → Table → Option Table
  | [] => f
  | t :: ts => alter t fun
    | none => (within f ts []).map (.table .implied)
    | some (.table .inline _) => none
    | some (.table origin entries) => (within f ts entries).map (.table origin)
    | some (.tables before last) => (within f ts last).map (.tables before)
    | some _ => none

/-- Start the table of a heading, which may have been implied before. -/
def openHeading (k : DottedKey) : Table → Option Table :=
  within (alter k.key fun
    | none => some (.table .heading [])
    | some (.table .implied entries) => some (.table .heading entries)
    | some _ => none) k.tables

/-- Start one more element of an array of tables. -/
def addElement (k : DottedKey) : Table → Option Table :=
  within (alter k.key fun
    | none => some (.tables [] [])
    | some (.tables before last) => some (.tables (before ++ [last]) [])
    | some _ => none) k.tables

/-- The table of these keys and values, between braces. -/
def ofPairs (pairs : List (DottedKey × Value)) : Option Table :=
  pairs.foldlM (fun t (k, v) => t.insert k.key v k.tables) []

end Table

end RecordStore.Toml
