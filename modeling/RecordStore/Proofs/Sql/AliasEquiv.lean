import RecordStore.Proofs.Sql.Listing
import RecordStore.Proofs.Sql.Parallel
import RecordStore.Proofs.Sql.Resolves

/-! # The same but for the aliases

Terms are equivalent up to aliases if they differ in the aliases of tables only
(`Term.AliasEquiv`).  A column keeps its record type, which tells the table: inside a query no two
tables are of one record type.

What an expression resolves to is determined up to aliases by the tables that are listed around it
(`Resolve.upToAliases_lawful`).  Where a record type without a table is listed does not matter
(`Scope.SameTables`), although the alias that it takes there is taken from the tables of nested
queries. -/

namespace RecordStore

/-! ### Terms and queries -/

/-- The table without its alias. -/
def TableItem.source (item : TableItem) : RecordType × String := (item.record, item.table)

section

variable (R : Term → Term → Prop)

/-- Result columns of one name with corresponding terms. -/
inductive ColumnRel : FieldExprOf Term → FieldExprOf Term → Prop where
  | mk {field t t'} (h : R t t') : ColumnRel ⟨field, t⟩ ⟨field, t'⟩

/-- Sort keys of one direction with corresponding terms. -/
inductive SortKeyRel : SortKeyOf Term → SortKeyOf Term → Prop where
  | mk {t t' descending} (h : R t t') : SortKeyRel ⟨t, descending⟩ ⟨t', descending⟩

/-- Joins of one kind and one table with corresponding conditions. -/
inductive JoinRel : JoinedTable → JoinedTable → Prop where
  | mk {kind record table label label' t t'} (h : R t t') :
      JoinRel ⟨kind, ⟨record, table, label⟩, t⟩ ⟨kind, ⟨record, table, label'⟩, t'⟩

/-- Chunks of the same values with corresponding operands. -/
inductive ChunkRel : Term × List Value → Term × List Value → Prop where
  | mk {t t' values} (h : R t t') : ChunkRel (t, values) (t', values)

/-- Branches with corresponding conditions and results. -/
inductive BranchRel : Term × Term → Term × Term → Prop where
  | mk {c c' t t'} (hcondition : R c c') (hresult : R t t') : BranchRel (c, t) (c', t')

/-- Queries of the same tables with corresponding terms.  What has no table may be in the scope of
one of them only. -/
inductive QueryRel : Query → Query → Prop where
  | mk {record scope scope' counted labelled distinct output output' tables tables' joins joins'
      filter filter' grouping grouping' ordering ordering' limit locking}
      (houtput : Option.Rel (List.Forall₂ (ColumnRel R)) output output')
      (htables : tables.map TableItem.source = tables'.map TableItem.source)
      (hjoins : List.Forall₂ (JoinRel R) joins joins')
      (hfilter : Option.Rel R filter filter')
      (hgrouping : Option.Rel (List.Forall₂ R) grouping grouping')
      (hordering : Option.Rel (List.Forall₂ (SortKeyRel R)) ordering ordering') :
      QueryRel
        { record, scope, counted, labelled, distinct, output, tables, joins, filter, grouping,
          ordering, limit, locking }
        { record, scope := scope', counted, labelled, distinct, output := output',
          tables := tables', joins := joins', filter := filter', grouping := grouping',
          ordering := ordering', limit, locking }

end

/-- The terms are the same but for the aliases of tables. -/
inductive Term.AliasEquiv : Term → Term → Prop where
  | refl (t : Term) : AliasEquiv t t
  | column {source label label' name} :
      AliasEquiv (.column source (some label) name) (.column source (some label') name)
  | override {source owner owner' t t'} (h : AliasEquiv t t') :
      AliasEquiv (.override source owner t) (.override source owner' t')
  | call {function ts ts'} (h : List.Forall₂ AliasEquiv ts ts') :
      AliasEquiv (.call function ts) (.call function ts')
  | binary {op t₁ t₁' t₂ t₂'} (hleft : AliasEquiv t₁ t₁') (hright : AliasEquiv t₂ t₂') :
      AliasEquiv (.binary op t₁ t₂) (.binary op t₁' t₂')
  | logical {op ts ts'} (h : List.Forall₂ AliasEquiv ts ts') :
      AliasEquiv (.logical op ts) (.logical op ts')
  | not {t t'} (h : AliasEquiv t t') : AliasEquiv (.not t) (.not t')
  | isNull {negated t t'} (h : AliasEquiv t t') :
      AliasEquiv (.isNull negated t) (.isNull negated t')
  | inChunks {negated chunks chunks'} (h : List.Forall₂ (ChunkRel AliasEquiv) chunks chunks') :
      AliasEquiv (.inChunks negated chunks) (.inChunks negated chunks')
  | inArray {negated t t' values} (h : AliasEquiv t t') :
      AliasEquiv (.inArray negated t values) (.inArray negated t' values)
  | inTerms {negated t t' ts ts'} (h : AliasEquiv t t') (hitems : List.Forall₂ AliasEquiv ts ts') :
      AliasEquiv (.inTerms negated t ts) (.inTerms negated t' ts')
  | inQuery {negated t t' q q'} (h : AliasEquiv t t') (hquery : QueryRel AliasEquiv q q') :
      AliasEquiv (.inQuery negated t q) (.inQuery negated t' q')
  | caseWhen {t? t?' branches branches' e? e?'} (h : Option.Rel AliasEquiv t? t?')
      (hbranches : List.Forall₂ (BranchRel AliasEquiv) branches branches')
      (hotherwise : Option.Rel AliasEquiv e? e?') :
      AliasEquiv (.caseWhen t? branches e?) (.caseWhen t?' branches' e?')
  | search {mode ts ts' query} (h : List.Forall₂ AliasEquiv ts ts') :
      AliasEquiv (.search mode ts query) (.search mode ts' query)
  | temporal {op t t'} (h : AliasEquiv t t') : AliasEquiv (.temporal op t) (.temporal op t')
  | subquery {q q'} (h : QueryRel AliasEquiv q q') : AliasEquiv (.subquery q) (.subquery q')
  | existsRow {q q'} (h : QueryRel AliasEquiv q q') : AliasEquiv (.existsRow q) (.existsRow q')

/-! ### Fields that are overridden -/

namespace Scope

/-- The expression that stands for a field in these scopes. -/
def override? (scopes : Scopes) (c : ColumnRef) : Option Expr :=
  (owner? scopes c.record).bind (·.1.overrideOf? c)

theorem override?_eq_some {scopes : Scopes} {c : ColumnRef} {body : Expr} :
    override? scopes c = some body ↔
      ∃ scope a, owner? scopes c.record = some (scope, a) ∧ scope.overrideOf? c = some body := by
  unfold override?
  rw [Option.bind_eq_some_iff]
  exact Prod.exists

end Scope

namespace Select

variable (s : Select) {outer outer' : Scopes} {next next' : Alias}

/-- A query decides about the fields of the record types that it selects or joins. -/
theorem override?_innerScopes (c : ColumnRef) :
    Scope.override? (s.innerScopes outer next) c =
      if (s.record :: s.joins.map (·.record)).any (·.sameAs c.record)
      then (s.innerScope outer next).overrideOf? c else Scope.override? outer c := by
  cases hown : (s.record :: s.joins.map (·.record)).any (·.sameAs c.record) with
  | true =>
      have hlisted : (s.scopeRecords outer).any (·.sameAs c.record) = true := by
        rw [any_scopeRecords, hown, Bool.true_or]
      obtain ⟨a, -, howner⟩ := s.owner_listed outer next hlisted
      rw [if_pos rfl, Scope.override?, howner]
      rfl
  | false =>
      rw [if_neg Bool.false_ne_true]
      cases hlisted : (s.scopeRecords outer).any (·.sameAs c.record) with
      | true =>
          -- The query mentions the record type, which is not listed around it and not selected.
          obtain ⟨a, -, howner⟩ := s.owner_listed outer next hlisted
          rw [any_scopeRecords, hown, Bool.false_or, Bool.and_eq_true, Bool.not_eq_true',
            ← Scope.isSome_owner, Option.isSome_eq_false_iff, Option.isNone_iff_eq_none] at hlisted
          rw [List.any_cons, Bool.or_eq_false_iff] at hown
          rw [Scope.override?, Scope.override?, howner, hlisted.2, Option.bind_some,
            Option.bind_none]
          unfold Scope.overrideOf?
          exact if_neg (ne_true_of_eq_false hown.1)
      | false =>
          rw [← s.isSome_aliasOf outer next, Option.isSome_eq_false_iff,
            Option.isNone_iff_eq_none] at hlisted
          unfold Scope.override? innerScopes
          rw [Scope.owner?, hlisted]

/-! ### Scopes that list the same tables -/

/-- The table of a record type, unless a join brings it in. -/
def source? (r : RecordType) : Option (RecordType × String) :=
  if s.joins.any (·.record.sameAs r) then none else r.table.map (r, ·)

theorem tableItems_source (outer : Scopes) (next : Alias) :
    (s.tableItems (s.entries outer next)).map TableItem.source =
      (s.scopeRecords outer).filterMap s.source? := by
  rw [← s.entries_records outer next, List.filterMap_map, tableItems, List.map_filterMap]
  refine List.filterMap_congr fun entry _ => ?_
  obtain ⟨r, a⟩ := entry
  dsimp only [Function.comp_apply, source?]
  cases r.table with
  | none => rw [Option.map_none, Option.map_none, ite_self]
  | some table =>
      dsimp only
      cases s.joins.any (·.record.sameAs r) <;> rfl

end Select

/-- The same tables are listed in the second scopes as in the first ones, and they are qualified;
the same expressions stand for fields, and have no record types but these. -/
structure Scope.SameTables (known : List RecordType) (scopes scopes' : Scopes) : Prop where
  lists {r} (h : Scope.lists scopes r = true) : Scope.lists scopes' r = true
  tables {r} (hr : r ∈ known) (htable : r.table ≠ none) :
    Scope.lists scopes' r = Scope.lists scopes r
  qualified {r scope a} (h : owner? scopes r = some (scope, a)) : scope.qualified = true
  qualified' {r scope a} (h : owner? scopes' r = some (scope, a)) : scope.qualified = true
  overrides c : override? scopes' c = override? scopes c
  bodies {c body} (h : override? scopes c = some body) : body.records ⊆ known

namespace Select

variable {s : Select} {known : List RecordType} {outer outer' : Scopes} {next next' : Alias}

theorem qualified_innerScopes
    (h : ∀ {r scope a}, Scope.owner? outer r = some (scope, a) → scope.qualified = true)
    {r : RecordType} {scope : Scope} {a : Alias}
    (howner : Scope.owner? (s.innerScopes outer next) r = some (scope, a)) :
    scope.qualified = true := by
  unfold innerScopes at howner
  rw [Scope.owner?] at howner
  split at howner
  · cases howner
    rfl
  · exact h howner

theorem bodies_innerScopes (hs : s.records ⊆ known)
    (h : ∀ {c body}, Scope.override? outer c = some body → body.records ⊆ known) {c : ColumnRef}
    {body : Expr} (hbody : Scope.override? (s.innerScopes outer next) c = some body) :
    body.records ⊆ known := by
  rw [override?_innerScopes] at hbody
  split at hbody
  · obtain ⟨o, ho, rfl⟩ := Scope.exists_override hbody
    intro r hr
    have hfields : o.expr.records ⊆ Expr.recordsFields s.overrides := (Expr.field_subset ho).2
    have hfield : r ∈ Expr.recordsFields s.overrides := hfields hr
    refine hs ?_
    rw [records_eq]
    simp [hfield]
  · exact h hbody

/-- A query lists what it selects and joins, and then what else it mentions by other names. -/
theorem filterMap_scopeRecords (outer : Scopes) {α : Type} (f : RecordType → Option α) :
    (s.scopeRecords outer).filterMap f =
      ((s.joins.map (·.record)).foldl addRecord [s.record]).filterMap f ++
        (s.mentions.foldl addRecord []).filterMap fun r =>
          if ((s.joins.map (·.record)).foldl addRecord [s.record]).any (·.sameAs r) then none
          else if Scope.lists outer r then none else f r := by
  have happart : (s.mentions.foldl addRecord []).Pairwise fun r r' => r.sameAs r' = false :=
    pairwise_foldl_addRecord _ .nil
  unfold scopeRecords
  rw [collectAll_eq_mentions]
  dsimp only
  rw [foldl_addRecord_of_pairwise _ (happart.filter _), List.filterMap_append, List.filter_filter,
    List.filterMap_filter]
  refine congrArg _ (List.filterMap_congr fun r _ => ?_)
  cases Scope.lists outer r <;>
    cases ((s.joins.map (·.record)).foldl addRecord [s.record]).any (·.sameAs r) <;> rfl

end Select

namespace Scope.SameTables

variable {s : Select} {known : List RecordType} {outer outer' : Scopes} {next next' : Alias}

/-- The same tables are listed inside a query too. -/
theorem push (h : SameTables known outer outer') (hs : s.records ⊆ known) :
    SameTables known (s.innerScopes outer next) (s.innerScopes outer' next') where
  lists {r} hlisted := by
    rw [Select.lists_innerScopes, Bool.or_eq_true] at hlisted ⊢
    exact hlisted.imp_right h.lists
  tables hr htable := by
    rw [Select.lists_innerScopes, Select.lists_innerScopes, h.tables hr htable]
  qualified howner := Select.qualified_innerScopes h.qualified howner
  qualified' howner := Select.qualified_innerScopes h.qualified' howner
  overrides c := by
    rw [Select.override?_innerScopes, Select.override?_innerScopes, h.overrides c]
    rfl
  bodies hbody := Select.bodies_innerScopes hs h.bodies hbody

/-- A query reads the same tables, one after the other. -/
theorem tableItems_source (h : SameTables known outer outer') (hs : s.records ⊆ known) :
    (s.tableItems (s.entries outer next)).map TableItem.source =
      (s.tableItems (s.entries outer' next')).map TableItem.source := by
  rw [Select.tableItems_source, Select.tableItems_source, Select.filterMap_scopeRecords,
    Select.filterMap_scopeRecords]
  refine congrArg _ (List.filterMap_congr fun r hr => ?_)
  have hknown : r ∈ known := hs (s.mentions_subset (foldl_addRecord_subset _ [] hr))
  by_cases htable : r.table = none
  · -- What has no table is not read, wherever it is listed.
    have hnone : s.source? r = none := by
      unfold Select.source?
      rw [htable, Option.map_none, ite_self]
    simp only [hnone, ite_self]
  · rw [h.tables hknown htable]

theorem owner (h : SameTables known outer outer') {r : RecordType} {scope : Scope} {a : Alias}
    (howner : owner? outer r = some (scope, a)) :
    ∃ scope' a', owner? outer' r = some (scope', a') := by
  refine exists_owner (h.lists ?_)
  rw [← isSome_owner, howner]
  rfl

end Scope.SameTables

/-! ### The correspondence -/

namespace Resolve

variable {known : List RecordType}

/-- What is resolved in both places is the same up to aliases. -/
def upToAliases (known : List RecordType) : Comparison where
  Free _ _ := True
  Labels _ _ := True
  Around := Scope.SameTables known
  Terms _ := Term.AliasEquiv
  Queries _ := QueryRel Term.AliasEquiv
  Admits s := s.records ⊆ known

section

variable {scopes : Scopes}

theorem columnRel_of_columns {c c' : FieldExprOf Term}
    (h : (upToAliases known).Columns scopes c c') : ColumnRel Term.AliasEquiv c c' := by
  obtain ⟨field, t⟩ := c
  obtain ⟨_, t'⟩ := c'
  obtain ⟨rfl, ht⟩ := h
  exact .mk ht

theorem sortKeyRel_of_sortKeys {k k' : SortKeyOf Term}
    (h : (upToAliases known).SortKeys scopes k k') : SortKeyRel Term.AliasEquiv k k' := by
  obtain ⟨t, descending⟩ := k
  obtain ⟨t', _⟩ := k'
  obtain ⟨ht, rfl⟩ := h
  exact .mk ht

theorem joinRel_of_joins {j j' : JoinedTable} (h : (upToAliases known).Joins scopes j j') :
    JoinRel Term.AliasEquiv j j' := by
  obtain ⟨kind, ⟨record, table, label⟩, t⟩ := j
  obtain ⟨_, ⟨_, _, label'⟩, t'⟩ := j'
  obtain ⟨rfl, rfl, rfl, -, ht⟩ := h
  exact .mk ht

theorem chunkRel_of_chunks {c c' : Term × List Value}
    (h : (upToAliases known).Chunks scopes c c') : ChunkRel Term.AliasEquiv c c' := by
  obtain ⟨t, values⟩ := c
  obtain ⟨t', _⟩ := c'
  obtain ⟨ht, rfl⟩ := h
  exact .mk ht

theorem branchRel_of_branches {b b' : Term × Term}
    (h : (upToAliases known).Branches scopes b b') : BranchRel Term.AliasEquiv b b' := by
  obtain ⟨condition, t⟩ := b
  obtain ⟨condition', t'⟩ := b'
  exact .mk h.1 h.2

theorem upToAliases_congruence (scopes : Scopes) : (upToAliases known).Congruence scopes where
  literal _ := .refl _
  param _ := .refl _
  interval _ _ := .refl _
  wildcard := .refl _
  inNothing _ := .refl _
  call h := .call h
  binary hleft hright := .binary hleft hright
  logical h := .logical h
  not h := .not h
  isNull h := .isNull h
  inChunks h := .inChunks (h.imp fun _ _ => chunkRel_of_chunks)
  inArray h := .inArray h
  inTerms h hitems := .inTerms h hitems
  inQuery h hquery := .inQuery h hquery
  caseWhen h hbranches hotherwise :=
    .caseWhen h (hbranches.imp fun _ _ => branchRel_of_branches) hotherwise
  search h := .search h
  temporal h := .temporal h
  subquery h := .subquery h
  existsRow h := .existsRow h

end

theorem optionRel_imp {β γ : Type} {r r' : β → γ → Prop} (h : ∀ b c, r b c → r' b c)
    {b? : Option β} {c? : Option γ} (hrel : Option.Rel r b? c?) : Option.Rel r' b? c? := by
  cases hrel with
  | none => exact .none
  | some hbc => exact .some (h _ _ hbc)

/-- Queries are the same up to aliases where their clauses are. -/
theorem queryRel_of_clauses {s : Select} {outer outer' : Scopes} {next next' : Alias}
    {c c' : Clauses} (labelled : Bool) (h : Scope.SameTables known outer outer')
    (hs : s.records ⊆ known)
    (hclauses : (upToAliases known).Clauses (s.innerScopes outer next) c c') :
    QueryRel Term.AliasEquiv (s.query outer next labelled c)
      (s.query outer' next' labelled c') := by
  have htables : (s.tableItems (s.entries outer next)).map TableItem.source =
      (s.tableItems (s.entries outer' next')).map TableItem.source := h.tableItems_source hs
  obtain ⟨houtput, hjoins, hfilter, hgrouping, hordering, hlimit⟩ := hclauses
  unfold Select.query
  rw [hlimit]
  exact .mk
    (optionRel_imp (fun _ _ hcolumns => hcolumns.imp fun _ _ => columnRel_of_columns) houtput)
    htables (hjoins.imp fun _ _ => joinRel_of_joins) hfilter hgrouping
    (optionRel_imp (fun _ _ hkeys => hkeys.imp fun _ _ => sortKeyRel_of_sortKeys) hordering)

/-- A rule for fields gives the same up to aliases where it does so in single scopes. -/
theorem upToAliases_lawful_of_column {rule : ColumnRule}
    (hcolumn : ∀ {scopes scopes'} (c : ColumnRef), Scope.SameTables known scopes scopes' →
      Parallel False (fun _ _ => True) Term.AliasEquiv (rule scopes c) (rule scopes' c)) :
    (upToAliases known).Lawful False rule rule where
  congruence := upToAliases_congruence
  column := hcolumn
  owner h howner := by
    obtain ⟨scope', a', howner'⟩ := h.owner howner
    exact ⟨scope', a', howner', trivial⟩
  enterable := False.elim
  enter _ h hs _ := ⟨h.push hs, trivial⟩
  query _ labelled h hs _ hclauses := queryRel_of_clauses labelled h hs hclauses

theorem plainColumn_upToAliases {scopes scopes' : Scopes}
    (h : Scope.SameTables known scopes scopes') (c : ColumnRef) :
    Parallel False (fun _ _ => True) Term.AliasEquiv (plainColumn scopes c)
      (plainColumn scopes' c) := by
  refine plainColumn_parallel (fun _ => .refl _) (.refl _) fun howner => ?_
  obtain ⟨scope', a', howner'⟩ := h.owner howner
  refine ⟨scope', a', howner', fun name => ?_⟩
  rw [if_pos (h.qualified howner), if_pos (h.qualified' howner')]
  exact .column

/-- Where the scopes list the same tables, the results are the same up to aliases, overrides
included. -/
theorem upToAliases_lawful (known : List RecordType) (dialect : Dialect) :
    (upToAliases known).Lawful False (overriddenColumn dialect) (overriddenColumn dialect) := by
  have hplain : (upToAliases known).Lawful False plainColumn plainColumn :=
    upToAliases_lawful_of_column fun c h => plainColumn_upToAliases h c
  refine upToAliases_lawful_of_column fun {scopes scopes'} c h => ?_
  have hsame := h.overrides c
  cases hoverride : Scope.override? scopes c with
  | none =>
      rw [hoverride] at hsame
      have hunset {scopes : Scopes} (hnone : Scope.override? scopes c = none) (scope : Scope)
          (a : Alias) (howner : Scope.owner? scopes c.record = some (scope, a)) :
          scope.overrideOf? c = none := Option.bind_eq_none_iff.mp hnone _ howner
      rw [overriddenColumn_eq_plain dialect (hunset hoverride),
        overriddenColumn_eq_plain dialect (hunset hsame)]
      exact plainColumn_upToAliases h c
  | some body =>
      rw [hoverride] at hsame
      obtain ⟨scope, a, howner, hbody⟩ := Scope.override?_eq_some.mp hoverride
      obtain ⟨scope', a', howner', hbody'⟩ := Scope.override?_eq_some.mp hsame
      rw [overriddenColumn_eq_override howner hbody, overriddenColumn_eq_override howner' hbody']
      have hadmitted : (upToAliases known).Admitted body.queries :=
        body.queries_within.mono (h.bodies hoverride)
      exact .ofExcept_bind _ fun _ _ =>
        (exprWith_parallel hplain h body hadmitted).bind fun _ _ ht => .pure (.override ht)

end Resolve

end RecordStore
