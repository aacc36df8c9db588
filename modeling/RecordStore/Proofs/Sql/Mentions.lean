import RecordStore.Select

/-! # The record types of expressions

An expression mentions the record types of its fields.  Outside nested queries these are
`Expr.mentions`, with repetitions, and collecting adds them one after the other
(`Expr.collectRecords_eq`); at any depth, with the record types that nested queries select and join,
they are `Expr.records` and `Select.records`. -/

namespace RecordStore

theorem append_subset_append {α : Type} {as bs cs ds : List α} (h : as ⊆ cs) (h' : bs ⊆ ds) :
    as ++ bs ⊆ cs ++ ds :=
  List.append_subset.mpr ⟨List.subset_append_of_subset_left ds h,
    List.subset_append_of_subset_right cs h'⟩

/-! ### Outside nested queries -/

namespace Expr

mutual

/-- The record types of the fields of an expression outside nested queries, from left to right. -/
def mentions : Expr → List RecordType
  | column c => [c.record]
  | literal _ | bound _ | fieldValue .. | interval .. | wildcard | subquery _ | existsRow _ => []
  | call _ args => mentionsAll args
  | binary _ left right => left.mentions ++ right.mentions
  | logical _ operands => mentionsAll operands
  | not operand => operand.mentions
  | isNull _ operand => operand.mentions
  | inValues _ operand _ => operand.mentions
  | inExprs _ operand items => operand.mentions ++ mentionsAll items
  | inSelect _ operand _ => operand.mentions
  | caseWhen operand branches otherwise =>
    mentionsOptional operand ++ mentionsBranches branches ++ mentionsOptional otherwise
  | search _ columns _ => mentionsAll columns
  | temporal _ operand => operand.mentions

/-- The record types of a list of expressions. -/
def mentionsAll : List Expr → List RecordType
  | [] => []
  | e :: es => e.mentions ++ mentionsAll es

/-- The record types of an expression that may be missing. -/
def mentionsOptional : Option Expr → List RecordType
  | none => []
  | some e => e.mentions

/-- The record types of the branches of a case distinction. -/
def mentionsBranches : List (Expr × Expr) → List RecordType
  | [] => []
  | (condition, result) :: rest => condition.mentions ++ result.mentions ++ mentionsBranches rest

end

mutual

/-- Collecting adds what the expression mentions. -/
theorem collectRecords_eq (seen : List RecordType) :
    ∀ e : Expr, e.collectRecords seen = e.mentions.foldl addRecord seen
  | column _ | literal _ | bound _ | fieldValue .. | interval .. | wildcard | subquery _
  | existsRow _ => rfl
  | call _ args => collectAll_eq seen args
  | binary _ left right => by
    rw [collectRecords, mentions, List.foldl_append, collectRecords_eq, collectRecords_eq]
  | logical _ operands => collectAll_eq seen operands
  | not operand => collectRecords_eq seen operand
  | isNull _ operand => collectRecords_eq seen operand
  | inValues _ operand _ => collectRecords_eq seen operand
  | inExprs _ operand items => by
    rw [collectRecords, mentions, List.foldl_append, collectAll_eq, collectRecords_eq]
  | inSelect _ operand _ => collectRecords_eq seen operand
  | caseWhen operand branches otherwise => by
    rw [collectRecords, mentions, List.foldl_append, List.foldl_append, collectOptional_eq,
      collectBranches_eq, collectOptional_eq]
  | search _ columns _ => collectAll_eq seen columns
  | temporal _ operand => collectRecords_eq seen operand

theorem collectAll_eq (seen : List RecordType) :
    ∀ es : List Expr, collectAll seen es = (mentionsAll es).foldl addRecord seen
  | [] => rfl
  | e :: es => by
    rw [collectAll, mentionsAll, List.foldl_append, collectAll_eq, collectRecords_eq]

theorem collectOptional_eq (seen : List RecordType) :
    ∀ e? : Option Expr, collectOptional seen e? = (mentionsOptional e?).foldl addRecord seen
  | none => rfl
  | some e => collectRecords_eq seen e

theorem collectBranches_eq (seen : List RecordType) : ∀ branches : List (Expr × Expr),
    collectBranches seen branches = (mentionsBranches branches).foldl addRecord seen
  | [] => rfl
  | (condition, result) :: rest => by
    rw [collectBranches, mentionsBranches, List.foldl_append, List.foldl_append,
      collectBranches_eq, collectRecords_eq, collectRecords_eq]

end

/-! ### At any depth -/

mutual

/-- The record types of an expression with those of its nested queries. -/
def records : Expr → List RecordType
  | column c => [c.record]
  | literal _ | bound _ | fieldValue .. | interval .. | wildcard => []
  | call _ args => recordsAll args
  | binary _ left right => left.records ++ right.records
  | logical _ operands => recordsAll operands
  | not operand => operand.records
  | isNull _ operand => operand.records
  | inValues _ operand _ => operand.records
  | inExprs _ operand items => operand.records ++ recordsAll items
  | inSelect _ operand select => operand.records ++ recordsSelect select
  | caseWhen operand branches otherwise =>
    recordsOptional operand ++ recordsBranches branches ++ recordsOptional otherwise
  | search _ columns _ => recordsAll columns
  | temporal _ operand => operand.records
  | subquery select => recordsSelect select
  | existsRow select => recordsSelect select

/-- The record types of a list of expressions. -/
def recordsAll : List Expr → List RecordType
  | [] => []
  | e :: es => e.records ++ recordsAll es

/-- The record types of an expression that may be missing. -/
def recordsOptional : Option Expr → List RecordType
  | none => []
  | some e => e.records

/-- The record types of the branches of a case distinction. -/
def recordsBranches : List (Expr × Expr) → List RecordType
  | [] => []
  | (condition, result) :: rest => condition.records ++ result.records ++ recordsBranches rest

/-- The record types of joins. -/
def recordsJoins : List (JoinOf Expr) → List RecordType
  | [] => []
  | { record, on, .. } :: rest => record :: on.records ++ recordsJoins rest

/-- The record types of sort keys. -/
def recordsSortKeys : List (SortKeyOf Expr) → List RecordType
  | [] => []
  | { expr, .. } :: rest => expr.records ++ recordsSortKeys rest

/-- The record types of expressions for fields. -/
def recordsFields : List (FieldExprOf Expr) → List RecordType
  | [] => []
  | { expr, .. } :: rest => expr.records ++ recordsFields rest

/-- The record types of the groups of a query. -/
def recordsGrouping : Option (List Expr) → List RecordType
  | none => []
  | some es => recordsAll es

/-- The record types of the order of a query. -/
def recordsOrdering : Option (List (SortKeyOf Expr)) → List RecordType
  | none => []
  | some keys => recordsSortKeys keys

/-- The record types of a query, its own first. -/
def recordsSelect : SelectOf Expr → List RecordType
  | { record, filter, joins, grouping, ordering, overrides, definitions, .. } =>
    record :: (recordsFields overrides ++ recordsFields definitions ++ recordsOptional filter ++
      recordsGrouping grouping ++ recordsOrdering ordering ++ recordsJoins joins)

end

end Expr

/-- The record types of a query and of the queries nested in it. -/
def Select.records (s : Select) : List RecordType := Expr.recordsSelect s

namespace Expr

mutual

/-- What an expression mentions is among its record types. -/
theorem mentions_subset : ∀ e : Expr, e.mentions ⊆ e.records
  | column _ => fun _ h => h
  | literal _ | bound _ | fieldValue .. | interval .. | wildcard | subquery _ | existsRow _ =>
    List.nil_subset _
  | call _ args => mentionsAll_subset args
  | binary _ left right => append_subset_append left.mentions_subset right.mentions_subset
  | logical _ operands => mentionsAll_subset operands
  | not operand => operand.mentions_subset
  | isNull _ operand => operand.mentions_subset
  | inValues _ operand _ => operand.mentions_subset
  | inExprs _ operand items =>
    append_subset_append operand.mentions_subset (mentionsAll_subset items)
  | inSelect _ operand _ => List.subset_append_of_subset_left _ operand.mentions_subset
  | caseWhen operand branches otherwise =>
    append_subset_append
      (append_subset_append (mentionsOptional_subset operand) (mentionsBranches_subset branches))
      (mentionsOptional_subset otherwise)
  | search _ columns _ => mentionsAll_subset columns
  | temporal _ operand => operand.mentions_subset

theorem mentionsAll_subset : ∀ es : List Expr, mentionsAll es ⊆ recordsAll es
  | [] => List.nil_subset _
  | e :: es => append_subset_append e.mentions_subset (mentionsAll_subset es)

theorem mentionsOptional_subset : ∀ e? : Option Expr, mentionsOptional e? ⊆ recordsOptional e?
  | none => List.nil_subset _
  | some e => e.mentions_subset

theorem mentionsBranches_subset :
    ∀ branches : List (Expr × Expr), mentionsBranches branches ⊆ recordsBranches branches
  | [] => List.nil_subset _
  | (condition, result) :: rest =>
    append_subset_append
      (append_subset_append condition.mentions_subset result.mentions_subset)
      (mentionsBranches_subset rest)

end

theorem mentions_fields_subset (fields : List (FieldExprOf Expr)) :
    mentionsAll (fields.map (·.expr)) ⊆ recordsFields fields := by
  induction fields with
  | nil => exact List.nil_subset _
  | cons f fields ih => exact append_subset_append f.expr.mentions_subset ih

/-- What the expression for one field mentions, the expressions for all fields mention. -/
theorem field_subset {f : FieldExprOf Expr} {fields : List (FieldExprOf Expr)} (h : f ∈ fields) :
    f.expr.mentions ⊆ mentionsAll (fields.map (·.expr)) ∧
      f.expr.records ⊆ recordsFields fields := by
  induction fields with
  | nil => cases h
  | cons f' fields ih =>
      rcases List.mem_cons.mp h with rfl | h
      · exact ⟨List.subset_append_left _ _, List.subset_append_left _ _⟩
      · exact ⟨List.subset_append_of_subset_right _ (ih h).1,
          List.subset_append_of_subset_right _ (ih h).2⟩

theorem mentions_sortKeys_subset (keys : List (SortKeyOf Expr)) :
    mentionsAll (keys.map (·.expr)) ⊆ recordsSortKeys keys := by
  induction keys with
  | nil => exact List.nil_subset _
  | cons k keys ih => exact append_subset_append k.expr.mentions_subset ih

theorem mentions_joins_subset (joins : List (JoinOf Expr)) :
    mentionsAll (joins.map (·.on)) ⊆ recordsJoins joins := by
  induction joins with
  | nil => exact List.nil_subset _
  | cons j joins ih =>
      exact List.subset_cons_of_subset j.record (append_subset_append j.on.mentions_subset ih)

theorem joined_subset (joins : List (JoinOf Expr)) :
    joins.map (·.record) ⊆ recordsJoins joins := by
  induction joins with
  | nil => exact List.nil_subset _
  | cons j joins ih =>
      exact List.cons_subset_cons j.record (List.subset_append_of_subset_right j.on.records ih)

end Expr

namespace Select

variable (s : Select)

/-- What a query mentions in its clauses, joins included. -/
def mentions : List RecordType :=
  Expr.mentionsAll (s.overrides.map (·.expr)) ++ Expr.mentionsAll (s.definitions.map (·.expr)) ++
    Expr.mentionsOptional s.filter ++ Expr.mentionsAll (s.grouping.getD []) ++
    Expr.mentionsAll ((s.ordering.getD []).map (·.expr)) ++ Expr.mentionsAll (s.joins.map (·.on))

theorem records_eq : s.records = s.record :: (Expr.recordsFields s.overrides ++
    Expr.recordsFields s.definitions ++ Expr.recordsOptional s.filter ++
    Expr.recordsGrouping s.grouping ++ Expr.recordsOrdering s.ordering ++
    Expr.recordsJoins s.joins) := by
  cases s
  rfl

/-- What a query mentions is among its record types. -/
theorem mentions_subset : s.mentions ⊆ s.records := by
  have hgrouping : Expr.mentionsAll (s.grouping.getD []) ⊆ Expr.recordsGrouping s.grouping := by
    cases s.grouping with
    | none => exact List.nil_subset _
    | some es => exact Expr.mentionsAll_subset es
  have hordering : Expr.mentionsAll ((s.ordering.getD []).map (·.expr)) ⊆
      Expr.recordsOrdering s.ordering := by
    cases s.ordering with
    | none => exact List.nil_subset _
    | some keys => exact Expr.mentions_sortKeys_subset keys
  rw [records_eq]
  refine List.subset_cons_of_subset s.record ?_
  refine append_subset_append ?_ (Expr.mentions_joins_subset s.joins)
  refine append_subset_append ?_ hordering
  refine append_subset_append ?_ hgrouping
  refine append_subset_append ?_ (Expr.mentionsOptional_subset s.filter)
  exact append_subset_append (Expr.mentions_fields_subset s.overrides)
    (Expr.mentions_fields_subset s.definitions)

/-- The record types that a query selects and joins are among its record types. -/
theorem own_subset : s.record :: s.joins.map (·.record) ⊆ s.records := by
  rw [records_eq]
  exact List.cons_subset_cons s.record
    (List.subset_append_of_subset_right _ (Expr.joined_subset s.joins))

end Select

end RecordStore
