import RecordStore.Record.Basic
import RecordStore.Select

/-! # Statements

A statement queries, inserts, updates or deletes records of one type, or creates or drops an index
on its table.  `Insert.ofRecord` and `Update.ofRecord` write a whole record. -/

namespace RecordStore

/-- Inserts one row. -/
structure Insert where
  record : RecordType
  values : List FieldExpr

/-- Changes the rows that meet a condition, or all. -/
structure Update where
  record : RecordType
  assignments : List FieldExpr
  filter : Option Expr

/-- Removes the rows that meet a condition, or all. -/
structure Delete where
  record : RecordType
  filter : Option Expr

/-- Creates an index over fields. -/
structure CreateIndex where
  record : RecordType
  name : String
  fields : List String
  unique : Bool := false
  ifMissing : Bool := false

/-- Drops an index. -/
structure DropIndex where
  record : RecordType
  name : String

/-- A complete statement. -/
inductive Statement where
  | select (s : Select)
  | insert (i : Insert)
  | update (u : Update)
  | delete (d : Delete)
  | createIndex (i : CreateIndex)
  | dropIndex (i : DropIndex)

/-! ### Whole records -/

section

variable {α : Type} [Record α]

/-- The assignment of a field's own value. -/
def Record.assignment (record : α) (field : Field) : Except StatementError FieldExpr := do
  return ⟨field.name, .fieldValue field.name (← Record.get record field.name)⟩

/-- The assignments of stored fields, in order.  A generated field that is unset is left to the
database. -/
def Insert.assignments (record : α) : List Field → Except StatementError (List FieldExpr)
  | [] => .ok []
  | field :: rest => do
    let v ← Record.get record field.name
    let more ← assignments record rest
    if field.isGenerated && v.isUnset then return more
    return ⟨field.name, .fieldValue field.name v⟩ :: more

/-- The insertion of a record. -/
def Insert.ofRecord (record : α) : Except StatementError Insert := do
  let type := Record.type α
  return { record := type, values := ← Insert.assignments record type.storedFields }

/-- The condition that a key field has the record's value. -/
def Record.keyCondition (record : α) (field : Field) : Except StatementError Expr := do
  return (Expr.col (Record.type α) field.name).eqBound (← Record.get record field.name)

/-- The update of every stored field of a record outside its key, in the row with its key. -/
def Update.ofRecord (record : α) : Except StatementError Update := do
  let type := Record.type α
  if !type.hasKey then throw (.invalidClause (.noKeyToUpdateBy type.name))
  let written := type.storedFields.filter (!type.primaryKey.contains ·.name)
  let assignments ← written.mapM (Record.assignment record)
  let conditions ← (← type.keyFields).mapM (Record.keyCondition record)
  return { record := type, assignments, filter := some (.all conditions) }

end

namespace Statement

/-- The record type that the statement is about. -/
def record : Statement → RecordType
  | select s => s.record
  | insert i => i.record
  | update u => u.record
  | delete d => d.record
  | createIndex i => i.record
  | dropIndex i => i.record

/-- Every record type that the statement touches, its own first. -/
def referencedRecords (s : Statement) : List RecordType :=
  let seen := [s.record]
  match s with
  | select s => s.referencedRecords.foldl addRecord ((s.joins.map (·.record)).foldl addRecord seen)
  | update u => Expr.collectOptional (Expr.collectAll seen (u.assignments.map (·.expr))) u.filter
  | delete d => Expr.collectOptional seen d.filter
  | insert _ | createIndex _ | dropIndex _ => seen

end Statement

end RecordStore
