import RecordStore.Proofs.Sql.Declared

/-! # The parts of a term

`Term.parts` lists the columns and the queries in a term, at any depth and each with the
declarations around it, and the expressions in it that stand for fields.  The columns among them are
those that `Term.uses` lists.  Queries introduce aliases, one for each table after `FROM` and
`JOIN`. -/

namespace RecordStore

/-- A column or a query inside a term, or an expression in it that stands for a field. -/
inductive Part where
  | column (u : ColumnUse)
  /-- A query inside these declarations. -/
  | query (q : Query) (around : List Declaration)
  | override (source : ColumnRef) (owner : Alias) (body : Term)

/-- The aliases that a query introduces, those of queries inside it left out. -/
def Query.aliases (q : Query) : List Alias := q.declaration.items.map (·.label)

namespace Part

/-- The column that a part is. -/
def use? : Part → Option ColumnUse
  | column u => some u
  | query .. | override .. => none

/-- The aliases that a part introduces itself. -/
def aliases : Part → List Alias
  | query q _ => q.aliases
  | column _ | override .. => []

/-- A query whose joins have a table to join against. -/
def Joinable : Part → Prop
  | query q _ => q.tables = [] → q.joins = []
  | column _ | override .. => True

end Part

mutual

/-- The parts of a term inside these declarations, the outer ones first. -/
def Term.parts (around : List Declaration) : Term → List Part
  | .column source qualifier _ => [.column ⟨source, qualifier, around⟩]
  | .definition .. | .missing _ | .literal _ | .param _ | .interval .. | .wildcard
  | .inNothing _ => []
  | .override source owner body => .override source owner body :: body.parts around
  | .call _ args => partsAll around args
  | .binary _ left right => left.parts around ++ right.parts around
  | .logical _ operands => partsAll around operands
  | .not operand => operand.parts around
  | .isNull _ operand => operand.parts around
  | .inChunks _ chunks => partsChunks around chunks
  | .inArray _ operand _ => operand.parts around
  | .inTerms _ operand items => operand.parts around ++ partsAll around items
  | .inQuery _ operand query => operand.parts around ++ partsQuery around query
  | .caseWhen operand branches otherwise =>
    partsOptional around operand ++ partsBranches around branches ++ partsOptional around otherwise
  | .search _ columns _ => partsAll around columns
  | .temporal _ operand => operand.parts around
  | .subquery query => partsQuery around query
  | .existsRow query => partsQuery around query

/-- The parts of a list of terms. -/
def partsAll (around : List Declaration) : List Term → List Part
  | [] => []
  | t :: ts => t.parts around ++ partsAll around ts

/-- The parts of a term that may be missing. -/
def partsOptional (around : List Declaration) : Option Term → List Part
  | none => []
  | some t => t.parts around

/-- The parts of the branches of a case distinction. -/
def partsBranches (around : List Declaration) : List (Term × Term) → List Part
  | [] => []
  | (condition, result) :: rest =>
    condition.parts around ++ result.parts around ++ partsBranches around rest

/-- The parts of chunks of a list. -/
def partsChunks (around : List Declaration) : List (Term × List Value) → List Part
  | [] => []
  | (operand, _) :: rest => operand.parts around ++ partsChunks around rest

/-- The parts of a list of results. -/
def partsOutput (around : List Declaration) : List (FieldExprOf Term) → List Part
  | [] => []
  | { expr, .. } :: rest => expr.parts around ++ partsOutput around rest

/-- The parts of the conditions of joins. -/
def partsJoins (around : List Declaration) : List (JoinedTableOf Term) → List Part
  | [] => []
  | { on, .. } :: rest => on.parts around ++ partsJoins around rest

/-- The parts of sort keys. -/
def partsSortKeys (around : List Declaration) : List (SortKeyOf Term) → List Part
  | [] => []
  | { expr, .. } :: rest => expr.parts around ++ partsSortKeys around rest

/-- The parts of a list of results that may be missing. -/
def partsResults (around : List Declaration) : Option (List (FieldExprOf Term)) → List Part
  | none => []
  | some columns => partsOutput around columns

/-- The parts of the groups of a query. -/
def partsGrouping (around : List Declaration) : Option (List Term) → List Part
  | none => []
  | some ts => partsAll around ts

/-- The parts of the order of a query. -/
def partsOrdering (around : List Declaration) : Option (List (SortKeyOf Term)) → List Part
  | none => []
  | some keys => partsSortKeys around keys

/-- A query with its parts, which are inside its own declaration too. -/
def partsQuery (around : List Declaration) : QueryOf Term → List Part
  | { record, scope, counted, labelled, distinct, output, tables, joins, filter, grouping, ordering,
      limit, locking } =>
    let q : Query := { record, scope, counted, labelled, distinct, output, tables, joins, filter,
                       grouping, ordering, limit, locking }
    let inside := q.declaration :: around
    .query q around :: (partsResults inside output ++ partsJoins inside joins ++
      partsOptional inside filter ++ partsGrouping inside grouping ++ partsOrdering inside ordering)

end

/-- The parts of a query that no other query is around, the query itself first. -/
def Query.parts (q : Query) : List Part := partsQuery [] q

/-! ### Columns -/

theorem uses_append_of_parts {ps ps' : List Part} {us us' : List ColumnUse}
    (h : ps.filterMap Part.use? = us) (h' : ps'.filterMap Part.use? = us') :
    (ps ++ ps').filterMap Part.use? = us ++ us' := by
  rw [List.filterMap_append, h, h']

mutual

/-- The columns among the parts of a term are the columns in it. -/
theorem Term.uses_of_parts (around : List Declaration) :
    ∀ t : Term, (t.parts around).filterMap Part.use? = t.uses around
  | .column .. | .definition .. | .missing _ | .literal _ | .param _ | .interval .. | .wildcard
  | .inNothing _ => rfl
  | .override _ _ body => body.uses_of_parts around
  | .call _ args => uses_of_partsAll around args
  | .binary _ left right =>
    uses_append_of_parts (left.uses_of_parts around) (right.uses_of_parts around)
  | .logical _ operands => uses_of_partsAll around operands
  | .not operand => operand.uses_of_parts around
  | .isNull _ operand => operand.uses_of_parts around
  | .inChunks _ chunks => uses_of_partsChunks around chunks
  | .inArray _ operand _ => operand.uses_of_parts around
  | .inTerms _ operand items =>
    uses_append_of_parts (operand.uses_of_parts around) (uses_of_partsAll around items)
  | .inQuery _ operand query =>
    uses_append_of_parts (operand.uses_of_parts around) (uses_of_partsQuery around query)
  | .caseWhen operand branches otherwise =>
    uses_append_of_parts (uses_append_of_parts (uses_of_partsOptional around operand)
      (uses_of_partsBranches around branches)) (uses_of_partsOptional around otherwise)
  | .search _ columns _ => uses_of_partsAll around columns
  | .temporal _ operand => operand.uses_of_parts around
  | .subquery query => uses_of_partsQuery around query
  | .existsRow query => uses_of_partsQuery around query

theorem uses_of_partsAll (around : List Declaration) :
    ∀ ts : List Term, (partsAll around ts).filterMap Part.use? = usesAll around ts
  | [] => rfl
  | t :: ts => uses_append_of_parts (t.uses_of_parts around) (uses_of_partsAll around ts)

theorem uses_of_partsOptional (around : List Declaration) :
    ∀ t? : Option Term, (partsOptional around t?).filterMap Part.use? = usesOptional around t?
  | none => rfl
  | some t => t.uses_of_parts around

theorem uses_of_partsBranches (around : List Declaration) : ∀ branches : List (Term × Term),
    (partsBranches around branches).filterMap Part.use? = usesBranches around branches
  | [] => rfl
  | (condition, result) :: rest =>
    uses_append_of_parts (uses_append_of_parts (condition.uses_of_parts around)
      (result.uses_of_parts around)) (uses_of_partsBranches around rest)

theorem uses_of_partsChunks (around : List Declaration) : ∀ chunks : List (Term × List Value),
    (partsChunks around chunks).filterMap Part.use? = usesChunks around chunks
  | [] => rfl
  | (operand, _) :: rest =>
    uses_append_of_parts (operand.uses_of_parts around) (uses_of_partsChunks around rest)

theorem uses_of_partsOutput (around : List Declaration) : ∀ columns : List (FieldExprOf Term),
    (partsOutput around columns).filterMap Part.use? = usesOutput around columns
  | [] => rfl
  | { expr, .. } :: rest =>
    uses_append_of_parts (expr.uses_of_parts around) (uses_of_partsOutput around rest)

theorem uses_of_partsJoins (around : List Declaration) : ∀ joins : List (JoinedTableOf Term),
    (partsJoins around joins).filterMap Part.use? = usesJoins around joins
  | [] => rfl
  | { on, .. } :: rest =>
    uses_append_of_parts (on.uses_of_parts around) (uses_of_partsJoins around rest)

theorem uses_of_partsSortKeys (around : List Declaration) : ∀ keys : List (SortKeyOf Term),
    (partsSortKeys around keys).filterMap Part.use? = usesSortKeys around keys
  | [] => rfl
  | { expr, .. } :: rest =>
    uses_append_of_parts (expr.uses_of_parts around) (uses_of_partsSortKeys around rest)

theorem uses_of_partsResults (around : List Declaration) :
    ∀ columns? : Option (List (FieldExprOf Term)),
    (partsResults around columns?).filterMap Part.use? = usesColumns around columns?
  | none => rfl
  | some columns => uses_of_partsOutput around columns

theorem uses_of_partsGrouping (around : List Declaration) : ∀ ts? : Option (List Term),
    (partsGrouping around ts?).filterMap Part.use? = usesGrouping around ts?
  | none => rfl
  | some ts => uses_of_partsAll around ts

theorem uses_of_partsOrdering (around : List Declaration) :
    ∀ keys? : Option (List (SortKeyOf Term)),
    (partsOrdering around keys?).filterMap Part.use? = usesOrdering around keys?
  | none => rfl
  | some keys => uses_of_partsSortKeys around keys

/-- The columns among the parts of a query are the columns in it. -/
theorem uses_of_partsQuery (around : List Declaration) :
    ∀ q : QueryOf Term, (partsQuery around q).filterMap Part.use? = usesQuery around q
  | { output, joins, filter, grouping, ordering, .. } =>
    uses_append_of_parts (uses_append_of_parts (uses_append_of_parts (uses_append_of_parts
      (uses_of_partsResults _ output) (uses_of_partsJoins _ joins))
      (uses_of_partsOptional _ filter)) (uses_of_partsGrouping _ grouping))
      (uses_of_partsOrdering _ ordering)

end

end RecordStore
