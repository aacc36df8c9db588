import RecordStore.Sql.Term

/-! # The columns of a query

`Query.uses` lists the columns in a query, nested queries included, each with the queries around it.
A column is declared (`ColumnUse.Declared`) when its qualifier is the alias of the record type it is
read for, one of the queries around it names the table of that record type by this alias, and none
of them names another one so. -/

namespace RecordStore

/-- What a query declares. -/
structure Declaration where
  /-- The record types that were given an alias. -/
  assigned : List (RecordType × Alias)
  /-- The tables after `FROM` and `JOIN`. -/
  items : List TableItem

/-- A query without tables has no `FROM`. -/
def Query.declaration (q : Query) : Declaration where
  assigned := q.scope
  items := if q.tables.isEmpty then [] else q.tables ++ q.joins.map (·.item)

/-- A column in print. -/
structure ColumnUse where
  /-- The field that the column is read for. -/
  source : ColumnRef
  qualifier : Option Alias
  /-- What the queries around it declare, the innermost first. -/
  around : List Declaration

/-- The qualifier names the table of the field's record type. -/
def ColumnUse.Declared (u : ColumnUse) : Prop :=
  ∃ label table, u.qualifier = some label ∧ u.source.record.table = some table ∧
    (∃ d ∈ u.around, (u.source.record, label) ∈ d.assigned ∧
      ⟨u.source.record, table, label⟩ ∈ d.items) ∧
    ∀ d ∈ u.around, ∀ item ∈ d.items, item.label = label → item.record = u.source.record

mutual

/-- The columns in a term inside these declarations. -/
def Term.uses (around : List Declaration) : Term → List ColumnUse
  | .column source qualifier _ => [⟨source, qualifier, around⟩]
  | .definition .. | .missing _ | .literal _ | .param _ | .interval .. | .wildcard
  | .inNothing _ => []
  | .override _ _ body => body.uses around
  | .call _ args => usesAll around args
  | .binary _ left right => left.uses around ++ right.uses around
  | .logical _ operands => usesAll around operands
  | .not operand => operand.uses around
  | .isNull _ operand => operand.uses around
  | .inChunks _ chunks => usesChunks around chunks
  | .inArray _ operand _ => operand.uses around
  | .inTerms _ operand items => operand.uses around ++ usesAll around items
  | .inQuery _ operand query => operand.uses around ++ usesQuery around query
  | .caseWhen operand branches otherwise =>
    usesOptional around operand ++ usesBranches around branches ++ usesOptional around otherwise
  | .search _ columns _ => usesAll around columns
  | .temporal _ operand => operand.uses around
  | .subquery query => usesQuery around query
  | .existsRow query => usesQuery around query

/-- The columns in a list of terms. -/
def usesAll (around : List Declaration) : List Term → List ColumnUse
  | [] => []
  | t :: ts => t.uses around ++ usesAll around ts

/-- The columns in a term that may be missing. -/
def usesOptional (around : List Declaration) : Option Term → List ColumnUse
  | none => []
  | some t => t.uses around

/-- The columns in the branches of a case distinction. -/
def usesBranches (around : List Declaration) : List (Term × Term) → List ColumnUse
  | [] => []
  | (condition, result) :: rest =>
    condition.uses around ++ result.uses around ++ usesBranches around rest

/-- The columns in chunks of a list. -/
def usesChunks (around : List Declaration) : List (Term × List Value) → List ColumnUse
  | [] => []
  | (operand, _) :: rest => operand.uses around ++ usesChunks around rest

/-- The columns in a list of results. -/
def usesOutput (around : List Declaration) : List (FieldExprOf Term) → List ColumnUse
  | [] => []
  | { expr, .. } :: rest => expr.uses around ++ usesOutput around rest

/-- The columns in the conditions of joins. -/
def usesJoins (around : List Declaration) : List (JoinedTableOf Term) → List ColumnUse
  | [] => []
  | { on, .. } :: rest => on.uses around ++ usesJoins around rest

/-- The columns in sort keys. -/
def usesSortKeys (around : List Declaration) : List (SortKeyOf Term) → List ColumnUse
  | [] => []
  | { expr, .. } :: rest => expr.uses around ++ usesSortKeys around rest

/-- The columns in a list of results that may be missing. -/
def usesColumns (around : List Declaration) : Option (List (FieldExprOf Term)) → List ColumnUse
  | none => []
  | some columns => usesOutput around columns

/-- The columns in the groups of a query. -/
def usesGrouping (around : List Declaration) : Option (List Term) → List ColumnUse
  | none => []
  | some ts => usesAll around ts

/-- The columns in the order of a query. -/
def usesOrdering (around : List Declaration) : Option (List (SortKeyOf Term)) → List ColumnUse
  | none => []
  | some keys => usesSortKeys around keys

/-- The columns in a query, which declares its own tables first. -/
def usesQuery (around : List Declaration) : QueryOf Term → List ColumnUse
  | { record, scope, counted, labelled, distinct, output, tables, joins, filter, grouping, ordering,
      limit, locking } =>
    let q : Query := { record, scope, counted, labelled, distinct, output, tables, joins, filter,
                       grouping, ordering, limit, locking }
    let around := q.declaration :: around
    usesColumns around output ++ usesJoins around joins ++ usesOptional around filter ++
      usesGrouping around grouping ++ usesOrdering around ordering

end

/-- The columns in a query that no other query is around. -/
def Query.uses (q : Query) : List ColumnUse := usesQuery [] q

end RecordStore
