import RecordStore.Proofs.Sql.Mentions

/-! # Nested queries

`Expr.queries` lists the queries inside an expression at any depth, the outer ones first.  What
overrides a field of a nested query is left out: where overrides are not applied, it is not
resolved.  The record types of these queries are among those of the expression
(`Expr.queries_within`). -/

namespace RecordStore

namespace Expr

mutual

/-- The queries nested in an expression. -/
def queries : Expr → List Select
  | column _ | literal _ | bound _ | fieldValue .. | interval .. | wildcard => []
  | call _ args => queriesAll args
  | binary _ left right => left.queries ++ right.queries
  | logical _ operands => queriesAll operands
  | not operand => operand.queries
  | isNull _ operand => operand.queries
  | inValues _ operand _ => operand.queries
  | inExprs _ operand items => operand.queries ++ queriesAll items
  | inSelect _ operand select => operand.queries ++ queriesSelect select
  | caseWhen operand branches otherwise =>
    queriesOptional operand ++ queriesBranches branches ++ queriesOptional otherwise
  | search _ columns _ => queriesAll columns
  | temporal _ operand => operand.queries
  | subquery select => queriesSelect select
  | existsRow select => queriesSelect select

/-- The queries nested in a list of expressions. -/
def queriesAll : List Expr → List Select
  | [] => []
  | e :: es => e.queries ++ queriesAll es

/-- The queries nested in an expression that may be missing. -/
def queriesOptional : Option Expr → List Select
  | none => []
  | some e => e.queries

/-- The queries nested in the branches of a case distinction. -/
def queriesBranches : List (Expr × Expr) → List Select
  | [] => []
  | (condition, result) :: rest => condition.queries ++ result.queries ++ queriesBranches rest

/-- The queries nested in the conditions of joins. -/
def queriesJoins : List (JoinOf Expr) → List Select
  | [] => []
  | { on, .. } :: rest => on.queries ++ queriesJoins rest

/-- The queries nested in sort keys. -/
def queriesSortKeys : List (SortKeyOf Expr) → List Select
  | [] => []
  | { expr, .. } :: rest => expr.queries ++ queriesSortKeys rest

/-- The queries nested in expressions for fields. -/
def queriesFields : List (FieldExprOf Expr) → List Select
  | [] => []
  | { expr, .. } :: rest => expr.queries ++ queriesFields rest

/-- The queries nested in the groups of a query. -/
def queriesGrouping : Option (List Expr) → List Select
  | none => []
  | some es => queriesAll es

/-- The queries nested in the order of a query. -/
def queriesOrdering : Option (List (SortKeyOf Expr)) → List Select
  | none => []
  | some keys => queriesSortKeys keys

/-- A query and the queries nested in it. -/
def queriesSelect : SelectOf Expr → List Select
  | { record, selection, filter, joins, grouping, ordering, limit, locking, distinct, overrides,
      definitions } =>
    { record, selection, filter, joins, grouping, ordering, limit, locking, distinct, overrides,
      definitions } :: (queriesFields definitions ++ queriesJoins joins ++ queriesOptional filter ++
      queriesGrouping grouping ++ queriesOrdering ordering)

end

/-! ### Their record types -/

/-- The queries have no record types but these. -/
def Within (ss : List Select) (rs : List RecordType) : Prop := ∀ s ∈ ss, s.records ⊆ rs

theorem Within.append {ss ss' : List Select} {rs rs' : List RecordType} (h : Within ss rs)
    (h' : Within ss' rs') : Within (ss ++ ss') (rs ++ rs') :=
  List.forall_mem_append.mpr ⟨fun s hs => List.subset_append_of_subset_left _ (h s hs),
    fun s hs => List.subset_append_of_subset_right _ (h' s hs)⟩

theorem Within.mono {ss : List Select} {rs rs' : List RecordType} (h : Within ss rs)
    (hsub : rs ⊆ rs') : Within ss rs' := fun s hs _ hr => hsub (h s hs hr)

theorem within_nil (rs : List RecordType) : Within [] rs := fun _ hs => by cases hs

mutual

/-- The queries nested in an expression have record types of the expression only. -/
theorem queries_within : ∀ e : Expr, Within e.queries e.records
  | column _ | literal _ | bound _ | fieldValue .. | interval .. | wildcard => within_nil _
  | call _ args => queriesAll_within args
  | binary _ left right => left.queries_within.append right.queries_within
  | logical _ operands => queriesAll_within operands
  | not operand => operand.queries_within
  | isNull _ operand => operand.queries_within
  | inValues _ operand _ => operand.queries_within
  | inExprs _ operand items => operand.queries_within.append (queriesAll_within items)
  | inSelect _ operand select => operand.queries_within.append (queriesSelect_within select)
  | caseWhen operand branches otherwise =>
    ((queriesOptional_within operand).append (queriesBranches_within branches)).append
      (queriesOptional_within otherwise)
  | search _ columns _ => queriesAll_within columns
  | temporal _ operand => operand.queries_within
  | subquery select => queriesSelect_within select
  | existsRow select => queriesSelect_within select

theorem queriesAll_within : ∀ es : List Expr, Within (queriesAll es) (recordsAll es)
  | [] => within_nil _
  | e :: es => e.queries_within.append (queriesAll_within es)

theorem queriesOptional_within :
    ∀ e? : Option Expr, Within (queriesOptional e?) (recordsOptional e?)
  | none => within_nil _
  | some e => e.queries_within

theorem queriesBranches_within :
    ∀ branches : List (Expr × Expr), Within (queriesBranches branches) (recordsBranches branches)
  | [] => within_nil _
  | (condition, result) :: rest =>
    (condition.queries_within.append result.queries_within).append (queriesBranches_within rest)

theorem queriesJoins_within :
    ∀ joins : List (JoinOf Expr), Within (queriesJoins joins) (recordsJoins joins)
  | [] => within_nil _
  | { record, on, .. } :: rest =>
    (on.queries_within.append (queriesJoins_within rest)).mono (List.subset_cons_self record _)

theorem queriesSortKeys_within :
    ∀ keys : List (SortKeyOf Expr), Within (queriesSortKeys keys) (recordsSortKeys keys)
  | [] => within_nil _
  | { expr, .. } :: rest => expr.queries_within.append (queriesSortKeys_within rest)

theorem queriesFields_within :
    ∀ fields : List (FieldExprOf Expr), Within (queriesFields fields) (recordsFields fields)
  | [] => within_nil _
  | { expr, .. } :: rest => expr.queries_within.append (queriesFields_within rest)

theorem queriesGrouping_within :
    ∀ grouping : Option (List Expr), Within (queriesGrouping grouping) (recordsGrouping grouping)
  | none => within_nil _
  | some es => queriesAll_within es

theorem queriesOrdering_within : ∀ ordering : Option (List (SortKeyOf Expr)),
    Within (queriesOrdering ordering) (recordsOrdering ordering)
  | none => within_nil _
  | some keys => queriesSortKeys_within keys

theorem queriesSelect_within :
    ∀ s : SelectOf Expr, Within (queriesSelect s) (recordsSelect s)
  | { definitions, joins, filter, grouping, ordering, .. } => by
    refine List.forall_mem_cons.mpr ⟨List.Subset.refl _, ?_⟩
    have hclauses := queriesFields_within definitions |>.append (queriesJoins_within joins)
      |>.append (queriesOptional_within filter) |>.append (queriesGrouping_within grouping)
      |>.append (queriesOrdering_within ordering)
    refine hclauses.mono fun r hr => ?_
    simp only [List.mem_append] at hr
    rcases hr with (((h | h) | h) | h) | h <;> simp [recordsSelect, h]

end

end Expr

end RecordStore
