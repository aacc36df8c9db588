import RecordStore.Record.Type

/-! # Records

A record is anything with a record type whose fields can be read and written by name.  Reading and
writing may refuse: a name may be unknown, a value of the wrong type. -/

namespace RecordStore

/-- Types of records: a description, a blank record, and access to fields by name. -/
class Record (α : Type) where
  type : RecordType
  blank : α
  get : α → String → Except StatementError Value
  set : α → String → Value → Except StatementError α

namespace Record

variable {α : Type} [Record α]

/-- Writes values to fields from left to right. -/
def setAll (record : α) : List (String × Value) → Except StatementError α
  | [] => .ok record
  | (field, v) :: rest => do setAll (← set record field v) rest

/-- A blank record with these fields set to these values. -/
def ofValues (fields : List String) (values : List Value) : Except StatementError α :=
  if fields.length = values.length then setAll blank (fields.zip values)
  else .error (.invalidClause (.valueCount (type α).name fields.length values.length))

/-- The values of the named fields. -/
def getAll (record : α) (fields : List String) : Except StatementError (List Value) :=
  fields.mapM (get record)

/-- The values of all fields in order. -/
def toValues (record : α) : Except StatementError (List Value) :=
  getAll record (type α).fieldNames

end Record

end RecordStore
