import RecordStore.Record.Basic
import RecordStore.Select
import RecordStore.StoreError

/-! # Primary keys

The key of a record type is the list of values of its key fields, one for each.  A key is absent
when it cannot be the key of a row yet: some value is null, or every value is unset. -/

namespace RecordStore

/-- The values of a key that no row has yet. -/
def isAbsentKey (values : List Value) : Bool := values.any Value.isNull || values.all Value.isUnset

/-- A primary key of a record type. -/
structure Key (r : RecordType) where
  values : List Value
  hasKey : r.hasKey = true
  width : values.length = r.primaryKey.length
deriving DecidableEq

/-- Refuses a record type without primary key. -/
def RecordType.requireKey (r : RecordType) : Except StoreError Unit :=
  if r.hasKey then .ok () else .error (.configuration (.noPrimaryKey r.name))

/-- The condition that the key fields have these values. -/
def RecordType.keyCondition (r : RecordType) (values : List Value) : Expr :=
  .all ((r.primaryKey.zip values).map fun (field, v) => (Expr.col r field).eqBound v)

namespace Key

variable {r : RecordType}

/-- The key with these values; there must be one value for each key field. -/
def ofValues (r : RecordType) (values : List Value) : Except StoreError (Key r) :=
  if hasKey : r.hasKey = true then
    if width : values.length = r.primaryKey.length then .ok ⟨values, hasKey, width⟩
    else .error (.configuration (.keyWidth r.name r.primaryKey.length values.length))
  else .error (.configuration (.noPrimaryKey r.name))

/-- No row can have the key yet. -/
def isAbsent (k : Key r) : Bool := isAbsentKey k.values

/-- The condition that a row has the key. -/
def condition (k : Key r) : Expr := r.keyCondition k.values

/-- The query of the row with the key. -/
def select (k : Key r) : Select := { record := r, filter := some k.condition }

/-- A key to look at. -/
def inspect (k : Key r) : String :=
  "Key<" ++ r.name ++ ">" ++ Value.bracketed (Value.inspectAll k.values)

end Key

/-! ### Keys of records -/

namespace Record

variable {α : Type} [Record α]

/-- The values of the key fields of a record. -/
def keyValues (record : α) : Except StoreError (List Value) := do
  (type α).requireKey
  StoreError.lift (getAll record (type α).primaryKey)

/-- The key of a record, none while it is absent. -/
def key (record : α) : Except StoreError (Option (Key (type α))) := do
  let values ← keyValues record
  if isAbsentKey values then return none
  return some (← Key.ofValues (type α) values)

/-- Key values from a database, in the form in which records give them back. -/
def normalizeKey (α : Type) [Record α] (values : List Value) : Except StoreError (List Value) := do
  let probe ← StoreError.lift (setAll (blank : α) ((type α).primaryKey.zip values))
  keyValues probe

end Record

end RecordStore
