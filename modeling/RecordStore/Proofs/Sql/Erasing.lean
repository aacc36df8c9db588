import RecordStore.Proofs.Sql.Listing

/-! # Statements without their data

The data of a statement are the values that it binds and the lists of values that it tests against.
`Statement.erase` puts `NULL` in the place of the values and other lists in the place of the lists.
Two statements that differ in their data only have the same `Statement.shape`; if besides the same
of their lists are empty, they have the same `Statement.outline`.

What a query mentions and lists is not data and stays as it is. -/

namespace RecordStore

/-! ### Erasing -/

namespace Expr

section

variable (lists : List Value → List Value)

mutual

/-- The expression with `NULL` for every bound value and every list of values replaced. -/
def erase : Expr → Expr
  | column c => column c
  | literal v => literal v
  | bound _ => bound .null
  | fieldValue field _ => fieldValue field .null
  | interval amount unit => interval amount unit
  | wildcard => wildcard
  | call function args => call function (eraseAll args)
  | binary op left right => binary op left.erase right.erase
  | logical op operands => logical op (eraseAll operands)
  | not operand => not operand.erase
  | isNull negated operand => isNull negated operand.erase
  | inValues negated operand values => inValues negated operand.erase (lists values)
  | inExprs negated operand items => inExprs negated operand.erase (eraseAll items)
  | inSelect negated operand select => inSelect negated operand.erase (eraseSelect select)
  | caseWhen operand branches otherwise =>
    caseWhen (eraseOptional operand) (eraseBranches branches) (eraseOptional otherwise)
  | search mode columns query => search mode (eraseAll columns) query
  | temporal op operand => temporal op operand.erase
  | subquery select => subquery (eraseSelect select)
  | existsRow select => existsRow (eraseSelect select)

/-- A list of expressions without data. -/
def eraseAll : List Expr → List Expr
  | [] => []
  | e :: es => e.erase :: eraseAll es

/-- An expression that may be missing, without data. -/
def eraseOptional : Option Expr → Option Expr
  | none => none
  | some e => some e.erase

/-- The branches of a case distinction without data. -/
def eraseBranches : List (Expr × Expr) → List (Expr × Expr)
  | [] => []
  | (condition, result) :: rest => (condition.erase, result.erase) :: eraseBranches rest

/-- Joins without data. -/
def eraseJoins : List (JoinOf Expr) → List (JoinOf Expr)
  | [] => []
  | { kind, record, on } :: rest => { kind, record, on := on.erase } :: eraseJoins rest

/-- Sort keys without data. -/
def eraseSortKeys : List (SortKeyOf Expr) → List (SortKeyOf Expr)
  | [] => []
  | { expr, descending } :: rest => { expr := expr.erase, descending } :: eraseSortKeys rest

/-- Expressions for fields without data. -/
def eraseFields : List (FieldExprOf Expr) → List (FieldExprOf Expr)
  | [] => []
  | { field, expr } :: rest => { field, expr := expr.erase } :: eraseFields rest

/-- The groups of a query without data. -/
def eraseGrouping : Option (List Expr) → Option (List Expr)
  | none => none
  | some es => some (eraseAll es)

/-- The order of a query without data. -/
def eraseOrdering : Option (List (SortKeyOf Expr)) → Option (List (SortKeyOf Expr))
  | none => none
  | some keys => some (eraseSortKeys keys)

/-- A query without data. -/
def eraseSelect : SelectOf Expr → SelectOf Expr
  | { record, selection, filter, joins, grouping, ordering, limit, locking, distinct, overrides,
      definitions } =>
    { record, selection, filter := eraseOptional filter, joins := eraseJoins joins,
      grouping := eraseGrouping grouping, ordering := eraseOrdering ordering, limit, locking,
      distinct, overrides := eraseFields overrides, definitions := eraseFields definitions }

end

end

end Expr

namespace Statement

/-- The statement with `NULL` for every bound value and every list of values replaced. -/
def erase (lists : List Value → List Value) : Statement → Statement
  | select s => select (Expr.eraseSelect lists s)
  | insert i => insert { i with values := Expr.eraseFields lists i.values }
  | update u =>
    update { u with
      assignments := Expr.eraseFields lists u.assignments
      filter := Expr.eraseOptional lists u.filter }
  | delete d => delete { d with filter := Expr.eraseOptional lists d.filter }
  | createIndex i => createIndex i
  | dropIndex i => dropIndex i

/-- What two statements share that differ in their data only.  No list in it is empty. -/
def shape : Statement → Statement := erase fun _ => [.null]

/-- The statement without its data except for which lists are empty. -/
def outline : Statement → Statement := erase fun values => if values.isEmpty then [] else [.null]

end Statement

/-! ### What is not data -/

namespace Expr

variable {lists : List Value → List Value}

mutual

theorem mentions_erase : ∀ e : Expr, (e.erase lists).mentions = e.mentions
  | column _ | literal _ | bound _ | fieldValue .. | interval .. | wildcard | subquery _
  | existsRow _ => rfl
  | call _ args => mentionsAll_erase args
  | binary _ left right => by
    rw [erase, mentions, mentions_erase left, mentions_erase right, mentions]
  | logical _ operands => mentionsAll_erase operands
  | not operand => mentions_erase operand
  | isNull _ operand => mentions_erase operand
  | inValues _ operand _ => mentions_erase operand
  | inExprs _ operand items => by
    rw [erase, mentions, mentions_erase operand, mentionsAll_erase items, mentions]
  | inSelect _ operand _ => mentions_erase operand
  | caseWhen operand branches otherwise => by
    rw [erase, mentions, mentionsOptional_erase operand, mentionsBranches_erase branches,
      mentionsOptional_erase otherwise, mentions]
  | search _ columns _ => mentionsAll_erase columns
  | temporal _ operand => mentions_erase operand

theorem mentionsAll_erase : ∀ es : List Expr, mentionsAll (eraseAll lists es) = mentionsAll es
  | [] => rfl
  | e :: es => by rw [eraseAll, mentionsAll, mentions_erase e, mentionsAll_erase es, mentionsAll]

theorem mentionsOptional_erase : ∀ e? : Option Expr,
    mentionsOptional (eraseOptional lists e?) = mentionsOptional e?
  | none => rfl
  | some e => mentions_erase e

theorem mentionsBranches_erase : ∀ branches : List (Expr × Expr),
    mentionsBranches (eraseBranches lists branches) = mentionsBranches branches
  | [] => rfl
  | (condition, result) :: rest => by
    rw [eraseBranches, mentionsBranches, mentions_erase condition, mentions_erase result,
      mentionsBranches_erase rest, mentionsBranches]

end

theorem isEmpty_eraseAll (es : List Expr) : (eraseAll lists es).isEmpty = es.isEmpty := by
  cases es <;> rfl

theorem isEmpty_eraseBranches (branches : List (Expr × Expr)) :
    (eraseBranches lists branches).isEmpty = branches.isEmpty := by
  cases branches <;> rfl

theorem isEmpty_eraseFields (fields : List FieldExpr) :
    (eraseFields lists fields).isEmpty = fields.isEmpty := by
  cases fields <;> rfl

theorem isSome_eraseGrouping (grouping : Option (List Expr)) :
    (eraseGrouping lists grouping).isSome = grouping.isSome := by
  cases grouping <;> rfl

theorem eraseFields_eq_map (fields : List FieldExpr) : eraseFields lists fields =
    fields.map fun v => { field := v.field, expr := v.expr.erase lists } := by
  induction fields with
  | nil => rfl
  | cons v fields ih => rw [eraseFields, ih, List.map_cons]

theorem eraseJoins_eq_map (joins : List Join) : eraseJoins lists joins =
    joins.map fun j => { kind := j.kind, record := j.record, on := j.on.erase lists } := by
  induction joins with
  | nil => rfl
  | cons j joins ih => rw [eraseJoins, ih, List.map_cons]

/-- The expressions for fields are erased one by one. -/
theorem map_expr_eraseFields (fields : List FieldExpr) :
    (eraseFields lists fields).map (·.expr) = eraseAll lists (fields.map (·.expr)) := by
  induction fields with
  | nil => rfl
  | cons v fields ih => rw [eraseFields, List.map_cons, ih, List.map_cons, eraseAll]

/-- The conditions of joins are erased one by one. -/
theorem map_on_eraseJoins (joins : List Join) :
    (eraseJoins lists joins).map (·.on) = eraseAll lists (joins.map (·.on)) := by
  induction joins with
  | nil => rfl
  | cons j joins ih => rw [eraseJoins, List.map_cons, ih, List.map_cons, eraseAll]

theorem mentionsAll_eraseGrouping (grouping : Option (List Expr)) :
    mentionsAll ((eraseGrouping lists grouping).getD []) = mentionsAll (grouping.getD []) := by
  cases grouping with
  | none => rfl
  | some es => exact mentionsAll_erase es

theorem mentionsAll_eraseOrdering (ordering : Option (List SortKey)) :
    mentionsAll (((eraseOrdering lists ordering).getD []).map (·.expr)) =
      mentionsAll ((ordering.getD []).map (·.expr)) := by
  cases ordering with
  | none => rfl
  | some keys =>
      change mentionsAll ((eraseSortKeys lists keys).map (·.expr)) = mentionsAll (keys.map (·.expr))
      induction keys with
      | nil => rfl
      | cons k keys ih =>
          rw [eraseSortKeys, List.map_cons, mentionsAll, mentions_erase, ih, List.map_cons,
            mentionsAll]

end Expr

namespace Select

variable (lists : List Value → List Value) (s : Select)

theorem eraseSelect_eq : Expr.eraseSelect lists s =
    { s with
      filter := Expr.eraseOptional lists s.filter
      joins := Expr.eraseJoins lists s.joins
      grouping := Expr.eraseGrouping lists s.grouping
      ordering := Expr.eraseOrdering lists s.ordering
      overrides := Expr.eraseFields lists s.overrides
      definitions := Expr.eraseFields lists s.definitions } := by
  cases s
  rfl

theorem mentions_erase : mentions (Expr.eraseSelect lists s) = s.mentions := by
  rw [eraseSelect_eq]
  unfold mentions
  dsimp only
  rw [Expr.map_expr_eraseFields, Expr.map_expr_eraseFields, Expr.map_on_eraseJoins,
    Expr.mentionsAll_erase, Expr.mentionsAll_erase, Expr.mentionsOptional_erase,
    Expr.mentionsAll_eraseGrouping, Expr.mentionsAll_eraseOrdering, Expr.mentionsAll_erase]

theorem joins_records_erase :
    (Expr.eraseSelect lists s).joins.map (·.record) = s.joins.map (·.record) := by
  rw [eraseSelect_eq, Expr.eraseJoins_eq_map, List.map_map]
  rfl

theorem record_erase : (Expr.eraseSelect lists s).record = s.record := by
  rw [eraseSelect_eq]

/-- The list of results does not depend on the data. -/
theorem resultFields_erase : resultFields? (Expr.eraseSelect lists s) = s.resultFields? := by
  rw [eraseSelect_eq]
  unfold resultFields? mergesRows
  dsimp only
  rw [Expr.isSome_eraseGrouping]

/-- A query lists the same without its data, in places where the same is listed around it. -/
theorem scopeRecords_erase {outer outer' : Scopes}
    (h : ∀ r, Scope.lists outer' r = Scope.lists outer r) :
    scopeRecords (Expr.eraseSelect lists s) outer' = s.scopeRecords outer := by
  have hlists : Scope.lists outer' = Scope.lists outer := funext h
  unfold scopeRecords
  rw [collectAll_eq_mentions, collectAll_eq_mentions, mentions_erase, joins_records_erase,
    record_erase, hlists]

/-- Whether a query reads a table without a join does not depend on the data, nor on the aliases. -/
theorem isEmpty_tableItems_erase {entries entries' : List (RecordType × Alias)}
    (h : entries'.map (·.1) = entries.map (·.1)) :
    (tableItems (Expr.eraseSelect lists s) entries').isEmpty = (s.tableItems entries).isEmpty := by
  have hjoined (r : RecordType) : (Expr.eraseSelect lists s).joins.any (·.record.sameAs r) =
      s.joins.any (·.record.sameAs r) := by
    have hrecords := congrArg (List.any · (·.sameAs r)) (s.joins_records_erase lists)
    simpa only [List.any_map, Function.comp_def] using hrecords
  rw [isEmpty_tableItems, isEmpty_tableItems, h]
  simp only [hjoined]

end Select

end RecordStore
