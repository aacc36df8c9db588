import RecordStore.Select
import RecordStore.Sql.Term

/-! # Scopes

While a statement is resolved, each query around the current place has a scope: the record types it
lists, with their aliases.  A record type belongs to the innermost scope that lists it. -/

namespace RecordStore

/-- The record types that one query, or one change, can speak of. -/
structure Scope where
  entries : List (RecordType × Alias)
  /-- The record type that the query selects or the change is about. -/
  selected : RecordType
  overrides : List FieldExpr
  /-- Columns are called by the alias of their table. -/
  qualified : Bool

/-- The scopes around a place, the innermost first. -/
abbrev Scopes := List Scope

namespace Scope

/-- The alias of a record type in the scope. -/
def aliasOf? (s : Scope) (record : RecordType) : Option Alias :=
  (s.entries.find? (·.1.sameAs record)).map (·.2)

/-- The innermost scope that lists a record type, and the alias there. -/
def owner? : Scopes → RecordType → Option (Scope × Alias)
  | [], _ => none
  | s :: outer, record =>
    match s.aliasOf? record with
    | some a => some (s, a)
    | none => owner? outer record

/-- Some scope lists the record type. -/
def lists (scopes : Scopes) (record : RecordType) : Bool :=
  scopes.any fun s => (s.aliasOf? record).isSome

/-- The expression that stands for a field of the scope's own record type. -/
def overrideOf? (s : Scope) (c : ColumnRef) : Option Expr :=
  if s.selected.sameAs c.record then
    (s.overrides.find? (·.field == c.field)).map (·.expr)
  else none

end Scope

namespace Select

variable (s : Select)

/-- The record types that the query lists: its own, the joined ones, and what else it mentions
unless a query around it lists that already. -/
def scopeRecords (outer : Scopes) : List RecordType :=
  let own := (s.joins.map (·.record)).foldl addRecord [s.record]
  let mentioned := Expr.collectAll s.referencedRecords (s.joins.map (·.on))
  (mentioned.filter (!Scope.lists outer ·)).foldl addRecord own

/-- The fields in the list of results; none if the number of rows is the result.  Where rows are
merged they are counted around the query for all fields. -/
def resultFields? : Option (List String) :=
  match s.selection with
  | .fields => some s.record.fieldNames
  | .keys => some s.record.primaryKey
  | .count => if s.mergesRows then some s.record.fieldNames else none

/-- The rows are counted around the query. -/
def countsAround : Bool := s.selection == .count && s.mergesRows

/-- The tables of the scope that no join brings in. -/
def tableItems (entries : List (RecordType × Alias)) : List TableItem :=
  entries.filterMap fun (record, label) =>
    match record.table with
    | some table =>
      if s.joins.any (·.record.sameAs record) then none else some ⟨record, table, label⟩
    | none => none

end Select

end RecordStore
