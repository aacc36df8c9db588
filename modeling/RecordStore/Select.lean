import RecordStore.Expr

/-! # Building queries

A query is built from parts (`Select.ofParts`).  Each singular clause may be added once and each
field overridden once; joins and definitions accumulate.  `Select.keysOnly` and `Select.count` are
the two other queries over the same rows. -/

namespace RecordStore

/-- A part of a query. -/
inductive SelectPart where
  | filter (condition : Expr)
  | join (j : Join)
  | grouping (exprs : List Expr)
  | ordering (keys : List SortKey)
  | limit (l : Limit)
  | locking
  | distinct
  | override (o : FieldExpr)
  | definition (d : FieldExpr)

namespace Select

/-- The error of adding a clause for the second time. -/
def repeated (clause : SingularClause) : StatementError := .invalidClause (.repeated clause)

/-- A query with one more part. -/
def add (s : Select) : SelectPart → Except StatementError Select
  | .filter condition =>
    if s.filter.isSome then .error (repeated .filter) else .ok { s with filter := some condition }
  | .join j => .ok { s with joins := s.joins ++ [j] }
  | .grouping exprs =>
    if s.grouping.isSome then .error (repeated .grouping) else .ok { s with grouping := some exprs }
  | .ordering keys =>
    if s.ordering.isSome then .error (repeated .ordering) else .ok { s with ordering := some keys }
  | .limit l =>
    if s.limit.isSome then .error (repeated .limit) else .ok { s with limit := some l }
  | .locking => if s.locking then .error (repeated .locking) else .ok { s with locking := true }
  | .distinct => if s.distinct then .error (repeated .distinct) else .ok { s with distinct := true }
  | .override o =>
    if s.overrides.any (·.field == o.field) then .error (.invalidClause (.overriddenTwice o.field))
    else .ok { s with overrides := s.overrides ++ [o] }
  | .definition d => .ok { s with definitions := s.definitions ++ [d] }

/-- The query for records of a type with these parts; the first part that is refused is the
error. -/
def ofParts (record : RecordType) (parts : List SelectPart) : Except StatementError Select :=
  parts.foldlM add { record }

variable (s : Select)

/-- Some field is not read from its own column or definition. -/
def usesOverrides : Bool := !s.overrides.isEmpty || !s.definitions.isEmpty

/-- The names of the result columns. -/
def outputFields : List String :=
  match s.selection with
  | .fields => s.record.fieldNames
  | .keys => s.record.primaryKey
  | .count => ["count"]

/-- The query for the keys of the same rows. -/
def keysOnly : Select := { s with selection := .keys }

/-- Rows are merged, so that the number of rows is known only after grouping. -/
def mergesRows : Bool := s.grouping.isSome || s.distinct

/-- The query for the number of rows.  Order and window are dropped unless rows are merged. -/
def count : Select :=
  { s with
    selection := .count
    ordering := if s.mergesRows then s.ordering else none
    limit := if s.mergesRows then s.limit else none
    locking := false }

/-- The expression that stands for a field everywhere in the query. -/
def overrideFor? (field : String) : Option FieldExpr := s.overrides.find? (·.field == field)

/-- The expression that stands for a field in the list of results. -/
def definitionFor? (field : String) : Option FieldExpr := s.definitions.find? (·.field == field)

/-- The record types mentioned outside the joins. -/
def referencedRecords : List RecordType :=
  let seen := Expr.collectAll [] (s.overrides.map (·.expr))
  let seen := Expr.collectAll seen (s.definitions.map (·.expr))
  let seen := Expr.collectOptional seen s.filter
  let seen := Expr.collectAll seen (s.grouping.getD [])
  Expr.collectAll seen ((s.ordering.getD []).map (·.expr))

end Select

end RecordStore
