import RecordStore.Proofs.Sql.Declared

/-! # Columns at their places

`Term.columns` lists the columns in a term with their names and with the queries around each of
them.  It tells of the same columns as `Term.uses`, which leaves the names out
(`Term.uses_eq`). -/

namespace RecordStore

/-- A column in print, with its name and its place. -/
structure PlacedColumn where
  /-- The field that the column is read for. -/
  source : ColumnRef
  qualifier : Option Alias
  name : String
  /-- What the queries around it declare, the innermost first. -/
  around : List Declaration

/-- The column without its name. -/
def PlacedColumn.use (u : PlacedColumn) : ColumnUse := ⟨u.source, u.qualifier, u.around⟩

mutual

/-- The columns in a term inside these declarations. -/
def Term.columns (around : List Declaration) : Term → List PlacedColumn
  | .column source qualifier name => [⟨source, qualifier, name, around⟩]
  | .definition .. | .missing _ | .literal _ | .param _ | .interval .. | .wildcard
  | .inNothing _ => []
  | .override _ _ body => body.columns around
  | .call _ args => columnsAll around args
  | .binary _ left right => left.columns around ++ right.columns around
  | .logical _ operands => columnsAll around operands
  | .not operand => operand.columns around
  | .isNull _ operand => operand.columns around
  | .inChunks _ chunks => columnsChunks around chunks
  | .inArray _ operand _ => operand.columns around
  | .inTerms _ operand items => operand.columns around ++ columnsAll around items
  | .inQuery _ operand query => operand.columns around ++ columnsQuery around query
  | .caseWhen operand branches otherwise =>
    columnsOptional around operand ++ columnsBranches around branches ++
      columnsOptional around otherwise
  | .search _ columns _ => columnsAll around columns
  | .temporal _ operand => operand.columns around
  | .subquery query => columnsQuery around query
  | .existsRow query => columnsQuery around query

/-- The columns in a list of terms. -/
def columnsAll (around : List Declaration) : List Term → List PlacedColumn
  | [] => []
  | t :: ts => t.columns around ++ columnsAll around ts

/-- The columns in a term that may be missing. -/
def columnsOptional (around : List Declaration) : Option Term → List PlacedColumn
  | none => []
  | some t => t.columns around

/-- The columns in the branches of a case distinction. -/
def columnsBranches (around : List Declaration) : List (Term × Term) → List PlacedColumn
  | [] => []
  | (condition, result) :: rest =>
    condition.columns around ++ result.columns around ++ columnsBranches around rest

/-- The columns in chunks of a list. -/
def columnsChunks (around : List Declaration) : List (Term × List Value) → List PlacedColumn
  | [] => []
  | (operand, _) :: rest => operand.columns around ++ columnsChunks around rest

/-- The columns in a list of results. -/
def columnsOutput (around : List Declaration) : List (FieldExprOf Term) → List PlacedColumn
  | [] => []
  | { expr, .. } :: rest => expr.columns around ++ columnsOutput around rest

/-- The columns in the conditions of joins. -/
def columnsJoins (around : List Declaration) : List (JoinedTableOf Term) → List PlacedColumn
  | [] => []
  | { on, .. } :: rest => on.columns around ++ columnsJoins around rest

/-- The columns in sort keys. -/
def columnsSortKeys (around : List Declaration) : List (SortKeyOf Term) → List PlacedColumn
  | [] => []
  | { expr, .. } :: rest => expr.columns around ++ columnsSortKeys around rest

/-- The columns in a list of results that may be missing. -/
def columnsResults (around : List Declaration) :
    Option (List (FieldExprOf Term)) → List PlacedColumn
  | none => []
  | some columns => columnsOutput around columns

/-- The columns in the groups of a query. -/
def columnsGrouping (around : List Declaration) : Option (List Term) → List PlacedColumn
  | none => []
  | some ts => columnsAll around ts

/-- The columns in the order of a query. -/
def columnsOrdering (around : List Declaration) : Option (List (SortKeyOf Term)) → List PlacedColumn
  | none => []
  | some keys => columnsSortKeys around keys

/-- The columns in a query, which declares its own tables first. -/
def columnsQuery (around : List Declaration) : QueryOf Term → List PlacedColumn
  | { record, scope, counted, labelled, distinct, output, tables, joins, filter, grouping, ordering,
      limit, locking } =>
    let q : Query := { record, scope, counted, labelled, distinct, output, tables, joins, filter,
                       grouping, ordering, limit, locking }
    let around := q.declaration :: around
    columnsResults around output ++ columnsJoins around joins ++ columnsOptional around filter ++
      columnsGrouping around grouping ++ columnsOrdering around ordering

end

/-! ### The columns without their names -/

theorem uses_append {us us' : List ColumnUse} {cs cs' : List PlacedColumn}
    (h : us = cs.map PlacedColumn.use) (h' : us' = cs'.map PlacedColumn.use) :
    us ++ us' = (cs ++ cs').map PlacedColumn.use := by
  rw [h, h', List.map_append]

mutual

/-- With and without names, the same columns are in a term. -/
theorem Term.uses_eq (around : List Declaration) :
    ∀ t : Term, t.uses around = (t.columns around).map PlacedColumn.use
  | .column .. | .definition .. | .missing _ | .literal _ | .param _ | .interval .. | .wildcard
  | .inNothing _ => rfl
  | .override _ _ body => body.uses_eq around
  | .call _ args => usesAll_eq around args
  | .binary _ left right => uses_append (left.uses_eq around) (right.uses_eq around)
  | .logical _ operands => usesAll_eq around operands
  | .not operand => operand.uses_eq around
  | .isNull _ operand => operand.uses_eq around
  | .inChunks _ chunks => usesChunks_eq around chunks
  | .inArray _ operand _ => operand.uses_eq around
  | .inTerms _ operand items => uses_append (operand.uses_eq around) (usesAll_eq around items)
  | .inQuery _ operand query => uses_append (operand.uses_eq around) (usesQuery_eq around query)
  | .caseWhen operand branches otherwise =>
    uses_append (uses_append (usesOptional_eq around operand) (usesBranches_eq around branches))
      (usesOptional_eq around otherwise)
  | .search _ columns _ => usesAll_eq around columns
  | .temporal _ operand => operand.uses_eq around
  | .subquery query => usesQuery_eq around query
  | .existsRow query => usesQuery_eq around query

theorem usesAll_eq (around : List Declaration) :
    ∀ ts : List Term, usesAll around ts = (columnsAll around ts).map PlacedColumn.use
  | [] => rfl
  | t :: ts => uses_append (t.uses_eq around) (usesAll_eq around ts)

theorem usesOptional_eq (around : List Declaration) :
    ∀ t? : Option Term, usesOptional around t? = (columnsOptional around t?).map PlacedColumn.use
  | none => rfl
  | some t => t.uses_eq around

theorem usesBranches_eq (around : List Declaration) : ∀ branches : List (Term × Term),
    usesBranches around branches = (columnsBranches around branches).map PlacedColumn.use
  | [] => rfl
  | (condition, result) :: rest =>
    uses_append (uses_append (condition.uses_eq around) (result.uses_eq around))
      (usesBranches_eq around rest)

theorem usesChunks_eq (around : List Declaration) : ∀ chunks : List (Term × List Value),
    usesChunks around chunks = (columnsChunks around chunks).map PlacedColumn.use
  | [] => rfl
  | (operand, _) :: rest => uses_append (operand.uses_eq around) (usesChunks_eq around rest)

theorem usesOutput_eq (around : List Declaration) : ∀ columns : List (FieldExprOf Term),
    usesOutput around columns = (columnsOutput around columns).map PlacedColumn.use
  | [] => rfl
  | { expr, .. } :: rest => uses_append (expr.uses_eq around) (usesOutput_eq around rest)

theorem usesJoins_eq (around : List Declaration) : ∀ joins : List (JoinedTableOf Term),
    usesJoins around joins = (columnsJoins around joins).map PlacedColumn.use
  | [] => rfl
  | { on, .. } :: rest => uses_append (on.uses_eq around) (usesJoins_eq around rest)

theorem usesSortKeys_eq (around : List Declaration) : ∀ keys : List (SortKeyOf Term),
    usesSortKeys around keys = (columnsSortKeys around keys).map PlacedColumn.use
  | [] => rfl
  | { expr, .. } :: rest => uses_append (expr.uses_eq around) (usesSortKeys_eq around rest)

theorem usesColumns_eq (around : List Declaration) : ∀ output : Option (List (FieldExprOf Term)),
    usesColumns around output = (columnsResults around output).map PlacedColumn.use
  | none => rfl
  | some columns => usesOutput_eq around columns

theorem usesGrouping_eq (around : List Declaration) : ∀ grouping : Option (List Term),
    usesGrouping around grouping = (columnsGrouping around grouping).map PlacedColumn.use
  | none => rfl
  | some ts => usesAll_eq around ts

theorem usesOrdering_eq (around : List Declaration) :
    ∀ ordering : Option (List (SortKeyOf Term)),
    usesOrdering around ordering = (columnsOrdering around ordering).map PlacedColumn.use
  | none => rfl
  | some keys => usesSortKeys_eq around keys

theorem usesQuery_eq (around : List Declaration) :
    ∀ q : QueryOf Term, usesQuery around q = (columnsQuery around q).map PlacedColumn.use
  | { output, joins, filter, grouping, ordering, .. } =>
    uses_append (uses_append (uses_append (uses_append (usesColumns_eq _ output)
      (usesJoins_eq _ joins)) (usesOptional_eq _ filter)) (usesGrouping_eq _ grouping))
      (usesOrdering_eq _ ordering)

end

end RecordStore
