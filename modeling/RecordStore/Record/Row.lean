import RecordStore.Record.Basic
import RecordStore.Value.Conversion

/-! # Rows of typed columns

A schema gives every field of a record type a scalar type and says whether it may be null.  A row
holds one value for each column, always of the column's type: writing converts, so a row reads back
what was converted. -/

namespace RecordStore

/-- A field with the type of its values. -/
structure Column where
  field : Field
  scalar : Scalar
  nullable : Bool
deriving DecidableEq

/-- A record type with typed columns. -/
structure Schema where
  name : String
  table : Option String
  columns : List Column
  primaryKey : List String
deriving DecidableEq

/-- The value of a column that nobody has written: null where allowed, else zero, empty or the
beginning of 1970. -/
def Column.blank (c : Column) : Value :=
  if c.nullable then .null
  else match c.scalar with
    | .integer => .integer 0
    | .real => .real (.ofInt 0)
    | .bool => .bool false
    | .text => .text ""
    | .blob => .blob []
    | .timestamp => .timestamp .epoch

/-- The value as the column keeps it. -/
def Column.convert (c : Column) (v : Value) : Except StatementError Value :=
  if c.nullable then c.scalar.convertNullable v else c.scalar.convert v

/-- The record type of the rows. -/
def Schema.type (s : Schema) : RecordType where
  name := s.name
  table := s.table
  fields := s.columns.map (·.field)
  primaryKey := s.primaryKey

/-- One value for each column of a schema. -/
structure Row (s : Schema) where
  values : List Value
deriving DecidableEq

namespace Row

variable {s : Schema}

/-- The row of blank columns. -/
def blank : Row s := ⟨s.columns.map Column.blank⟩

/-- The value in the first column of a name. -/
def readColumn (field : String) : List Column → List Value → Option Value
  | c :: cs, v :: vs => if c.field.name = field then some v else readColumn field cs vs
  | _, _ => none

/-- The values with a converted value in the first column of a name; without such a column the given
error. -/
def writeColumn (unknown : StatementError) (field : String) (v : Value) :
    List Column → List Value → Except StatementError (List Value)
  | c :: cs, w :: ws =>
    if c.field.name = field then (c.convert v).map (· :: ws)
    else (writeColumn unknown field v cs ws).map (w :: ·)
  | _, _ => .error unknown

/-- The value of a field. -/
def get (row : Row s) (field : String) : Except StatementError Value :=
  match readColumn field s.columns row.values with
  | some v => .ok v
  | none => .error (.unknownField s.name field)

/-- The row with a field set to a converted value. -/
def set (row : Row s) (field : String) (v : Value) : Except StatementError (Row s) :=
  (writeColumn (.unknownField s.name field) field v s.columns row.values).map (⟨·⟩)

instance : Record (Row s) where
  type := s.type
  blank := blank
  get := get
  set := set

end Row

end RecordStore
