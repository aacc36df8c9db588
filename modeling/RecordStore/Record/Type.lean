import RecordStore.Error

/-! # Record types

A record type names the fields of a record and says where its rows come from: a table, or nothing,
in which case every field is computed.  Record types are told apart by their names alone. -/

namespace RecordStore

/-- How a field gets its value. -/
inductive FieldKind where
  /-- Written and read through a column. -/
  | stored
  /-- Kept in a column whose value the database chooses when a row is inserted. -/
  | generated
  /-- Read from an SQL definition, or supplied by each query. -/
  | computed (definition : Option String) (required : Bool)
deriving DecidableEq

/-- A field of a record type. -/
structure Field where
  name : String
  column : String
  kind : FieldKind
deriving DecidableEq

namespace Field

/-- A field kept in a column. -/
def stored (name column : String) : Field := ⟨name, column, .stored⟩

/-- A field kept in a column that the database fills. -/
def generated (name column : String) : Field := ⟨name, column, .generated⟩

/-- A field without a column. -/
def computed (name : String) (definition : Option String) (required : Bool) : Field :=
  ⟨name, name, .computed definition required⟩

/-- The field has no column. -/
def isComputed (f : Field) : Bool :=
  match f.kind with
  | .computed .. => true
  | _ => false

/-- The database chooses the value. -/
def isGenerated (f : Field) : Bool :=
  match f.kind with
  | .generated => true
  | _ => false

end Field

/-- The description of a type of records. -/
structure RecordType where
  name : String
  /-- The table with the rows; a computed record type has none. -/
  table : Option String
  fields : List Field
  /-- The names of the fields that identify a record. -/
  primaryKey : List String
deriving DecidableEq, Inhabited

namespace RecordType

variable (r : RecordType)

/-- Record types of one name are one type. -/
def sameAs (other : RecordType) : Bool := r.name == other.name

/-- The rows come from no table. -/
def isComputed : Bool := r.table.isNone

/-- Records of the type can be told apart. -/
def hasKey : Bool := !r.primaryKey.isEmpty

/-- The names of all fields in order. -/
def fieldNames : List String := r.fields.map (·.name)

/-- The fields kept in columns. -/
def storedFields : List Field := r.fields.filter (!·.isComputed)

/-- The field of a name. -/
def field? (name : String) : Option Field := r.fields.find? (·.name == name)

/-- The field of a name; an unknown name is an error. -/
def field (name : String) : Except StatementError Field :=
  match r.field? name with
  | some f => .ok f
  | none => .error (.unknownField r.name name)

/-- The fields of the primary key in its order. -/
def keyFields : Except StatementError (List Field) := r.primaryKey.mapM r.field

/-- The table of the type; a computed type has none to name. -/
def tableName : Except StatementError String :=
  match r.table with
  | some table => .ok table
  | none => .error (.invalidClause (.withoutTable r.name))

/-- The column that a write to a field goes to. -/
def writableColumn (name : String) : Except StatementError String := do
  let f ← r.field name
  if f.isComputed then throw (.invalidClause (.unwritableField r.name name))
  return f.column

end RecordType

/-- The types without those that an earlier one of the list equals. -/
def addRecord (seen : List RecordType) (r : RecordType) : List RecordType :=
  if seen.any (·.sameAs r) then seen else seen ++ [r]

end RecordStore
