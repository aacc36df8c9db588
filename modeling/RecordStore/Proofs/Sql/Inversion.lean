import RecordStore.Compiler
import RecordStore.Proofs.Computation

/-! # When a query resolves

A query resolves in stages: its list of results, its joins, its condition, its groups, its order and
its window, each with the aliases that the stage before has left free.  It resolves when every stage
does (`Resolve.selectWith_eq_ok`), and its scope is known beforehand (`Select.innerScopes`). -/

namespace RecordStore

namespace Select

variable (s : Select)

/-- The record types of a query with their aliases, where `next` is the first free alias. -/
def entries (outer : Scopes) (next : Alias) : List (RecordType × Alias) :=
  (s.scopeRecords outer).zip (List.range' next (s.scopeRecords outer).length)

/-- The scope of a query. -/
def innerScope (outer : Scopes) (next : Alias) : Scope :=
  ⟨s.entries outer next, s.record, s.overrides, true⟩

/-- The scopes inside a query. -/
def innerScopes (outer : Scopes) (next : Alias) : Scopes := s.innerScope outer next :: outer

end Select

namespace Resolve

variable {dialect : Dialect} {rule : ColumnRule}

variable (dialect rule) in
/-- The list of results of a query. -/
def output (scopes : Scopes) (s : Select) : Resolve (Option (List (FieldExprOf Term))) :=
  optionally (outputColumns rule scopes s.record
    fun field => definitionWith dialect rule scopes field s.definitions) s.resultFields?

/-- A query in one piece. -/
theorem selectWith_eq (outer : Scopes) (labelled : Bool) (s : Select) :
    selectWith dialect rule outer labelled s = (do
      if Scope.lists outer s.record then fault (.selectedTwice s.record.name)
      let entries ← allocate (s.scopeRecords outer)
      let scopes : Scopes := ⟨entries, s.record, s.overrides, true⟩ :: outer
      let output ← output dialect rule scopes s
      let tables := s.tableItems entries
      if tables.isEmpty && !s.joins.isEmpty then fault (.nothingToJoin s.record.name)
      let joins ← joinsWith dialect rule scopes s.joins
      let filter ← optionalWith dialect rule scopes s.filter
      let grouping ← groupingWith dialect rule scopes s.grouping
      let ordering ← orderingWith dialect rule scopes s.ordering
      let limit ← optionally window s.limit
      return { record := s.record, counted := s.countsAround,
               labelled := labelled || s.countsAround, distinct := s.distinct, output, tables,
               joins, filter, grouping, ordering, limit, locking := s.locking,
               scope := entries }) := by
  cases s
  rfl

theorem fault_ne_ok {β : Type} {f : ClauseFault} {b : β} {next next' : Alias} :
    (fault f : Resolve β) next ≠ .ok b next' := throw_ne_ok

/-- A query resolves when all of its stages do. -/
theorem selectWith_eq_ok {outer : Scopes} {labelled : Bool} {s : Select} {q : Query}
    {next next' : Alias} :
    selectWith dialect rule outer labelled s next = .ok q next' ↔
      Scope.lists outer s.record = false ∧
      ((s.tableItems (s.entries outer next)).isEmpty && !s.joins.isEmpty) = false ∧
      ∃ columns n₁ joins n₂ filter n₃ grouping n₄ ordering n₅ limit,
        output dialect rule (s.innerScopes outer next) s (next + (s.scopeRecords outer).length) =
          .ok columns n₁ ∧
        joinsWith dialect rule (s.innerScopes outer next) s.joins n₁ = .ok joins n₂ ∧
        optionalWith dialect rule (s.innerScopes outer next) s.filter n₂ = .ok filter n₃ ∧
        groupingWith dialect rule (s.innerScopes outer next) s.grouping n₃ = .ok grouping n₄ ∧
        orderingWith dialect rule (s.innerScopes outer next) s.ordering n₄ = .ok ordering n₅ ∧
        optionally window s.limit n₅ = .ok limit next' ∧
        q = { record := s.record, counted := s.countsAround,
              labelled := labelled || s.countsAround, distinct := s.distinct, output := columns,
              tables := s.tableItems (s.entries outer next), joins, filter, grouping, ordering,
              limit, locking := s.locking, scope := s.entries outer next } := by
  rw [selectWith_eq]
  cases hlists : Scope.lists outer s.record with
  | true => simp [bind_eq_ok, fault_ne_ok]
  | false =>
      have hallocate : allocate (s.scopeRecords outer) next =
          .ok (s.entries outer next) (next + (s.scopeRecords outer).length) := rfl
      simp only [Bool.false_eq_true, if_false, true_and]
      rw [bind_of_ok hallocate]
      cases hjoin : (s.tableItems (s.entries outer next)).isEmpty && !s.joins.isEmpty with
      | true => simp [bind_eq_ok, fault_ne_ok]
      | false =>
          simp only [Bool.false_eq_true, if_false, bind_eq_ok, pure_eq_ok, true_and]
          constructor
          · rintro ⟨columns, n₁, hcolumns, joins, n₂, hjoins, filter, n₃, hfilter, grouping, n₄,
              hgrouping, ordering, n₅, hordering, limit, n₆, hlimit, rfl, rfl⟩
            exact ⟨columns, n₁, joins, n₂, filter, n₃, grouping, n₄, ordering, n₅, limit, hcolumns,
              hjoins, hfilter, hgrouping, hordering, hlimit, rfl⟩
          · rintro ⟨columns, n₁, joins, n₂, filter, n₃, grouping, n₄, ordering, n₅, limit, hcolumns,
              hjoins, hfilter, hgrouping, hordering, hlimit, rfl⟩
            exact ⟨columns, n₁, hcolumns, joins, n₂, hjoins, filter, n₃, hfilter, grouping, n₄,
              hgrouping, ordering, n₅, hordering, limit, _, hlimit, rfl, rfl⟩

/-- The clauses of a query over terms. -/
structure Clauses where
  output : Option (List (FieldExprOf Term))
  joins : List JoinedTable
  filter : Option Term
  grouping : Option (List Term)
  ordering : Option (List (SortKeyOf Term))
  limit : Option Window

variable (dialect rule) in
/-- The clauses of a query, one after the other. -/
def clauses (scopes : Scopes) (s : Select) : Resolve Clauses := do
  let output ← output dialect rule scopes s
  let joins ← joinsWith dialect rule scopes s.joins
  let filter ← optionalWith dialect rule scopes s.filter
  let grouping ← groupingWith dialect rule scopes s.grouping
  let ordering ← orderingWith dialect rule scopes s.ordering
  let limit ← optionally window s.limit
  return { output, joins, filter, grouping, ordering, limit }

end Resolve

namespace Select

variable (s : Select) (outer : Scopes) (next : Alias)

/-- The query can be resolved inside these scopes as far as what it selects and joins goes. -/
structure Enterable : Prop where
  unlisted : Scope.lists outer s.record = false
  joinable : ((s.tableItems (s.entries outer next)).isEmpty && !s.joins.isEmpty) = false

/-- The query with its clauses resolved. -/
def query (labelled : Bool) (c : Resolve.Clauses) : Query where
  record := s.record
  scope := s.entries outer next
  counted := s.countsAround
  labelled := labelled || s.countsAround
  distinct := s.distinct
  output := c.output
  tables := s.tableItems (s.entries outer next)
  joins := c.joins
  filter := c.filter
  grouping := c.grouping
  ordering := c.ordering
  limit := c.limit
  locking := s.locking

end Select

/-- A query resolves when it can be entered and its clauses resolve inside. -/
theorem Resolve.selectWith_eq_ok_clauses {dialect : Dialect} {rule : ColumnRule} {outer : Scopes}
    {labelled : Bool} {s : Select} {q : Query} {next next' : Alias} :
    selectWith dialect rule outer labelled s next = .ok q next' ↔
      s.Enterable outer next ∧ ∃ c, clauses dialect rule (s.innerScopes outer next) s
        (next + (s.scopeRecords outer).length) = .ok c next' ∧
        q = s.query outer next labelled c := by
  rw [selectWith_eq_ok]
  unfold clauses
  simp only [bind_eq_ok, pure_eq_ok]
  constructor
  · rintro ⟨hunlisted, hjoinable, columns, n₁, joins, n₂, filter, n₃, grouping, n₄, ordering, n₅,
      limit, hcolumns, hjoins, hfilter, hgrouping, hordering, hlimit, rfl⟩
    exact ⟨⟨hunlisted, hjoinable⟩, _, ⟨columns, n₁, hcolumns, joins, n₂, hjoins, filter, n₃,
      hfilter, grouping, n₄, hgrouping, ordering, n₅, hordering, limit, _, hlimit, rfl, rfl⟩, rfl⟩
  · rintro ⟨⟨hunlisted, hjoinable⟩, c, ⟨columns, n₁, hcolumns, joins, n₂, hjoins, filter, n₃,
      hfilter, grouping, n₄, hgrouping, ordering, n₅, hordering, limit, n₆, hlimit, rfl, rfl⟩, rfl⟩
    exact ⟨hunlisted, hjoinable, columns, n₁, joins, n₂, filter, n₃, grouping, n₄, ordering, n₅,
      limit, hcolumns, hjoins, hfilter, hgrouping, hordering, hlimit, rfl⟩

/-! ### Whole queries -/

namespace Select

variable {dialect : Dialect} {s : Select}

/-- A query as a whole statement resolves as it does outside all scopes. -/
theorem resolve_cases (dialect : Dialect) (s : Select) :
    (∃ q next, Resolve.selectWith dialect (Resolve.overriddenColumn dialect) [] true s 0 =
        .ok q next ∧ (Statement.select s).resolve dialect = .ok (.query q)) ∨
      ∃ e next, Resolve.selectWith dialect (Resolve.overriddenColumn dialect) [] true s 0 =
        .error e next ∧ (Statement.select s).resolve dialect = .error e := by
  have hstatement : Resolve.statement dialect true [] (.select s) 0 =
      (Resolve.selectWith dialect (Resolve.overriddenColumn dialect) [] true s >>=
        fun q => pure (Command.query q)) 0 := rfl
  unfold Statement.resolve
  rw [hstatement]
  cases hselect : Resolve.selectWith dialect (Resolve.overriddenColumn dialect) [] true s 0 with
  | ok q next =>
      rw [bind_of_ok hselect]
      exact .inl ⟨q, next, rfl, rfl⟩
  | error e next =>
      rw [bind_of_error hselect]
      exact .inr ⟨e, next, rfl, rfl⟩

/-- What compiles is what a query resolves to. -/
theorem resolve_of_compile {compiled : CompiledStatement} (h : s.compile dialect = .ok compiled) :
    ∃ q next, Resolve.selectWith dialect (Resolve.overriddenColumn dialect) [] true s 0 =
      .ok q next ∧ (Statement.select s).resolve dialect = .ok (.query q) ∧
        compiled = (Command.query q).compiled dialect := by
  unfold Select.compile RecordStore.compile at h
  obtain ⟨q, next, hselect, hresolve⟩ | ⟨e, next, -, hresolve⟩ := resolve_cases dialect s
  · rw [hresolve] at h
    exact ⟨q, next, hselect, hresolve, (Except.ok.inj h).symm⟩
  · rw [hresolve] at h
    cases h

/-- A query compiles when it resolves. -/
theorem compile_eq_ok {compiled : CompiledStatement} : s.compile dialect = .ok compiled ↔
    ∃ q next, Resolve.selectWith dialect (Resolve.overriddenColumn dialect) [] true s 0 =
      .ok q next ∧ (Command.query q).compiled dialect = compiled := by
  unfold Select.compile RecordStore.compile
  obtain ⟨q, next, hselect, hresolve⟩ | ⟨e, next, hselect, hresolve⟩ := resolve_cases dialect s
  · rw [hselect, hresolve]
    simp [Except.map]
  · rw [hselect, hresolve]
    simp [Except.map]

end Select

end RecordStore
