import RecordStore.Proofs.Sample
import RecordStore.Proofs.Sql.Qualifiers
import RecordStore.Proofs.Sql.Surroundings

/-! # From clauses

A query lists its record types before its clauses are resolved, so its `FROM` has to be complete
beforehand.  It is: whichever way a sound rule treats single fields, everything that the scopes
cover is resolved to columns at their places (`Resolve.exprWith_sound`), and a query covers its own
clauses (`Resolve.selectWith_sound`).  Fields are first taken as they are and then with their
overrides, whose expressions are resolved by the first rule.  `Select.columns_declared` states the
result for whole queries. -/

namespace RecordStore

theorem Select.declaration_eq (s : Select) {outer : Scopes} {next : Alias} (q : Query)
    (hscope : q.scope = s.entries outer next)
    (htables : q.tables = s.tableItems (s.entries outer next))
    (hjoins : q.joins.map (·.item) = s.joins.filterMap (Scope.joinItem? (s.innerScopes outer next)))
    (hjoinable : ((s.tableItems (s.entries outer next)).isEmpty && !s.joins.isEmpty) = false) :
    q.declaration = s.declaration outer next := by
  unfold Query.declaration declaration
  rw [hscope, htables, hjoins]
  cases htables : s.tableItems (s.entries outer next) with
  | nil =>
      rw [htables] at hjoinable
      cases hjoins : s.joins with
      | nil => rfl
      | cons j joins =>
          rw [hjoins] at hjoinable
          cases hjoinable
  | cons item items => rfl

namespace Resolve

variable {strict : Prop} {dialect : Dialect} {rule : ColumnRule} {known : List RecordType}
  {base : Scopes}

/-! ### Queries -/

/-- The clauses of a query, resolved in these scopes, have placed columns only, and its joins bring
in the tables that they should. -/
structure SoundClauses (strict : Prop) (dialect : Dialect) (rule : ColumnRule) (base : Scopes)
    (s : Select) (first : Alias) (scopes : Scopes) (around : List Declaration) : Prop where
  output : Sound strict first (fun columns => AllPlaced base (columnsResults around columns))
    (output dialect rule scopes s)
  joins : Sound strict first (fun joins =>
      joins.map (·.item) = s.joins.filterMap (Scope.joinItem? scopes) ∧
        AllPlaced base (columnsJoins around joins))
    (joinsWith dialect rule scopes s.joins)
  filter : Sound strict first (fun filter => AllPlaced base (columnsOptional around filter))
    (optionalWith dialect rule scopes s.filter)
  grouping : Sound strict first (fun grouping => AllPlaced base (columnsGrouping around grouping))
    (groupingWith dialect rule scopes s.grouping)
  ordering : Sound strict first (fun ordering => AllPlaced base (columnsOrdering around ordering))
    (orderingWith dialect rule scopes s.ordering)

theorem columnsQuery_eq (around : List Declaration) (q : Query) :
    columnsQuery around q = columnsResults (q.declaration :: around) q.output ++
      columnsJoins (q.declaration :: around) q.joins ++
      columnsOptional (q.declaration :: around) q.filter ++
      columnsGrouping (q.declaration :: around) q.grouping ++
      columnsOrdering (q.declaration :: around) q.ordering := by
  cases q
  rfl

/-- A query is sound where its clauses are, inside it. -/
theorem selectWith_sound_of_clauses {s : Select} {first : Alias} {outer : Scopes}
    {around : List Declaration} {labelled : Bool}
    (h : ∀ next, first ≤ next →
      SoundClauses strict dialect rule base s (next + (s.scopeRecords outer).length)
        (s.innerScopes outer next) (s.declaration outer next :: around)) :
    Sound strict first (fun q => AllPlaced base (columnsQuery around q))
      (selectWith dialect rule outer labelled s) := by
  rw [selectWith_eq]
  dsimp only
  split
  · exact .fault_bind _
  · refine .after fun next hnext => ⟨_, _, Nat.le_add_right _ (s.scopeRecords outer).length,
      bind_of_ok (a := s.entries outer next) rfl, ?_⟩
    have hclauses := h next hnext
    refine .bind hclauses.output fun columns hcolumns => ?_
    split
    · exact .fault_bind _
    · next hjoinable =>
      refine .bind hclauses.joins fun joins hjoins => ?_
      refine .bind hclauses.filter fun filter hfilter => ?_
      refine .bind hclauses.grouping fun grouping hgrouping => ?_
      refine .bind hclauses.ordering fun ordering hordering => ?_
      refine .bind (optionally_sound window_sound s.limit) fun limit _ => .pure ?_
      rw [columnsQuery_eq, s.declaration_eq _ rfl rfl hjoins.1 (eq_false_of_ne_true hjoinable)]
      exact (((hcolumns.append hjoins.2).append hfilter).append hgrouping).append hordering

/-- A list of results is sound where the expression of each field is. -/
theorem output_sound {s : Select} {first : Alias} {scopes : Scopes} {around : List Declaration}
    (h : ∀ field, Sound strict first (fun t => AllPlaced base (t.columns around))
      ((definitionWith dialect rule scopes field s.definitions).getD
        (rule scopes ⟨s.record, field⟩))) :
    Sound strict first (fun columns => AllPlaced base (columnsResults around columns))
      (output dialect rule scopes s) := by
  have hcolumn (field : String) :
      Sound strict first (fun column => AllPlaced base (column.expr.columns around))
      (outputColumn rule scopes s.record
        (fun field => definitionWith dialect rule scopes field s.definitions) field) :=
    .bind (h field) fun _ ht => .pure ht
  have hcolumns (fields : List String) :
      Sound strict first (fun columns => AllPlaced base (columnsOutput around columns))
        (outputColumns rule scopes s.record
          (fun field => definitionWith dialect rule scopes field s.definitions) fields) :=
    (Sound.mapM fun field _ => hcolumn field).mono fun _ => .output
  refine (optionally_sound hcolumns s.resultFields?).mono fun columns hall => ?_
  cases columns with
  | none => exact .nil
  | some columns => exact hall columns rfl

/-! ### Every rule for fields -/

mutual

/-- What is covered is resolved to placed columns. -/
theorem exprWith_sound (hrule : SoundRule strict known base rule)
    {first : Alias} {scopes : Scopes} {around : List Declaration}
    (h : Surrounds strict known base first scopes around) : ∀ e : Expr,
    Covered strict known scopes e.mentions e.records →
    Sound strict first (fun t => AllPlaced base (t.columns around)) (exprWith dialect rule scopes e)
  | .column _, hc =>
    hrule h (fun hs => hc.listed hs _ (List.mem_singleton_self _))
      (hc.known (List.mem_singleton_self _))
  | .literal v, _ => (literal_sound dialect v).mono fun t ⟨l, hl⟩ => by
    rw [hl]
    exact .nil
  | .bound _, _ | .fieldValue .., _ | .wildcard, _ => .pure .nil
  | .interval amount unit, _ => (interval_sound dialect amount unit).mono fun t ht => by
    rw [ht]
    exact .nil
  | .call _ args, hc => .bind (exprsWith_sound hrule h args hc) fun _ hargs => .pure hargs
  | .binary _ left right, hc =>
    .bind (exprWith_sound hrule h left hc.append.1) fun _ hleft =>
      .bind (exprWith_sound hrule h right hc.append.2) fun _ hright => .pure (hleft.append hright)
  | .logical _ operands, hc => .bind (exprsWith_sound hrule h operands hc) fun _ hts => .pure hts
  | .not operand, hc => .bind (exprWith_sound hrule h operand hc) fun _ ht => .pure ht
  | .isNull _ operand, hc => .bind (exprWith_sound hrule h operand hc) fun _ ht => .pure ht
  | .inValues negated operand values, hc => by
    have hoperand := exprWith_sound hrule h operand hc
    rw [exprWith]
    split
    · exact .pure .nil
    · split
      · exact .bind hoperand fun _ ht => .pure ht
      · refine .bind (.mapM fun chunk _ => ?_) fun chunks hchunks => .pure (.chunks hchunks)
        exact .bind hoperand fun _ ht => .pure ht
  | .inExprs negated operand items, hc => by
    have hoperand := exprWith_sound hrule h operand hc.append.1
    have hitems := exprsWith_sound hrule h items hc.append.2
    rw [exprWith]
    split
    · exact .pure .nil
    · exact .bind hoperand fun _ ht => .bind hitems fun _ hts => .pure (ht.append hts)
  | .inSelect negated operand select, hc =>
    have hrecords := List.append_subset.mp hc.known
    .bind (exprWith_sound hrule h operand ⟨hc.listed, hrecords.1⟩) fun _ ht =>
      .bind (selectWith_sound hrule h false select hrecords.2) fun _ hq => .pure (ht.append hq)
  | .caseWhen operand branches otherwise, hc => by
    have hoperand := optionalWith_sound hrule h operand hc.append.1.append.1
    have hbranches := branchesWith_sound hrule h branches hc.append.1.append.2
    have hotherwise := optionalWith_sound hrule h otherwise hc.append.2
    rw [exprWith]
    split
    · exact .fault _
    · exact .bind hoperand fun _ ht => .bind hbranches fun _ hts => .bind hotherwise fun _ ht' =>
        .pure ((ht.append hts).append ht')
  | .search _ columns _, hc => by
    have hcolumns := exprsWith_sound hrule h columns hc
    rw [exprWith]
    split
    · exact .fault _
    · exact .bind hcolumns fun _ hts => .pure hts
  | .temporal _ operand, hc => .bind (exprWith_sound hrule h operand hc) fun _ ht => .pure ht
  | .subquery select, hc =>
    .bind (selectWith_sound hrule h false select hc.known) fun _ hq => .pure hq
  | .existsRow select, hc =>
    .bind (selectWith_sound hrule h false select hc.known) fun _ hq => .pure hq

theorem exprsWith_sound (hrule : SoundRule strict known base rule)
    {first : Alias} {scopes : Scopes} {around : List Declaration}
    (h : Surrounds strict known base first scopes around) : ∀ es : List Expr,
    Covered strict known scopes (Expr.mentionsAll es) (Expr.recordsAll es) →
    Sound strict first (fun ts => AllPlaced base (columnsAll around ts))
      (exprsWith dialect rule scopes es)
  | [], _ => .pure .nil
  | e :: es, hc =>
    .bind (exprWith_sound hrule h e hc.append.1) fun _ ht =>
      .bind (exprsWith_sound hrule h es hc.append.2) fun _ hts => .pure (ht.append hts)

theorem optionalWith_sound (hrule : SoundRule strict known base rule)
    {first : Alias} {scopes : Scopes} {around : List Declaration}
    (h : Surrounds strict known base first scopes around) : ∀ e? : Option Expr,
    Covered strict known scopes (Expr.mentionsOptional e?) (Expr.recordsOptional e?) →
    Sound strict first (fun t? => AllPlaced base (columnsOptional around t?))
      (optionalWith dialect rule scopes e?)
  | none, _ => .pure .nil
  | some e, hc => .bind (exprWith_sound hrule h e hc) fun _ ht => .pure ht

theorem branchesWith_sound (hrule : SoundRule strict known base rule)
    {first : Alias} {scopes : Scopes} {around : List Declaration}
    (h : Surrounds strict known base first scopes around) :
    ∀ branches : List (Expr × Expr),
    Covered strict known scopes (Expr.mentionsBranches branches) (Expr.recordsBranches branches) →
    Sound strict first (fun ts => AllPlaced base (columnsBranches around ts))
      (branchesWith dialect rule scopes branches)
  | [], _ => .pure .nil
  | (condition, result) :: rest, hc =>
    .bind (exprWith_sound hrule h condition hc.append.1.append.1) fun _ hcondition =>
      .bind (exprWith_sound hrule h result hc.append.1.append.2) fun _ hresult =>
        .bind (branchesWith_sound hrule h rest hc.append.2) fun _ hrest =>
          .pure ((hcondition.append hresult).append hrest)

theorem definitionWith_sound (hrule : SoundRule strict known base rule)
    {first : Alias} {scopes : Scopes} {around : List Declaration}
    (h : Surrounds strict known base first scopes around) (field : String) :
    ∀ (definitions : List (FieldExprOf Expr)) (x : Resolve Term),
    Covered strict known scopes (Expr.mentionsAll (definitions.map (·.expr)))
      (Expr.recordsFields definitions) →
    definitionWith dialect rule scopes field definitions = some x →
    Sound strict first (fun t => AllPlaced base (t.columns around)) x
  | [], _, _, heq => by cases heq
  | { field := defined, expr } :: rest, x, hc, heq => by
    have hexpr := exprWith_sound hrule h expr hc.append.1
    have hrest := definitionWith_sound hrule h field rest x hc.append.2
    rw [definitionWith] at heq
    split at heq
    · cases heq
      exact hexpr
    · exact hrest heq

theorem joinsWith_sound (hrule : SoundRule strict known base rule)
    {first : Alias} {scopes : Scopes} {around : List Declaration}
    (h : Surrounds strict known base first scopes around) :
    ∀ joins : List (JoinOf Expr),
    (∀ j ∈ joins, Scope.lists scopes j.record = true) →
    Covered strict known scopes (Expr.mentionsAll (joins.map (·.on))) (Expr.recordsJoins joins) →
    Sound strict first (fun ts => ts.map (·.item) = joins.filterMap (Scope.joinItem? scopes) ∧
        AllPlaced base (columnsJoins around ts))
      (joinsWith dialect rule scopes joins)
  | [], _, _ => .pure ⟨rfl, .nil⟩
  | { kind, record, on } :: rest, hlisted, hc => by
    obtain ⟨hrecord, hlisted⟩ := List.forall_mem_cons.mp hlisted
    obtain ⟨scope, a, howner⟩ := Scope.exists_owner hrecord
    have hon := exprWith_sound hrule h on
      ⟨hc.append.1.listed, (List.cons_subset.mp hc.append.1.known).2⟩
    have hrest := joinsWith_sound hrule h rest hlisted hc.append.2
    rw [joinsWith]
    refine .bind (.ofExcept fun _ => RecordType.tableName_ne_unknownRecord record)
      fun table htable => ?_
    rw [howner]
    refine .bind hon fun _ ht => .bind hrest fun ts hts => .pure ⟨?_, ht.append hts.2⟩
    have hitem : Scope.joinItem? scopes { kind, record, on } = some ⟨record, table, a⟩ := by
      unfold Scope.joinItem?
      rw [RecordType.table_of_tableName htable, howner]
      rfl
    rw [List.filterMap_cons_some hitem, List.map_cons, hts.1]

theorem sortKeysWith_sound (hrule : SoundRule strict known base rule)
    {first : Alias} {scopes : Scopes} {around : List Declaration}
    (h : Surrounds strict known base first scopes around) :
    ∀ keys : List (SortKeyOf Expr),
    Covered strict known scopes (Expr.mentionsAll (keys.map (·.expr))) (Expr.recordsSortKeys keys) →
    Sound strict first (fun ts => AllPlaced base (columnsSortKeys around ts))
      (sortKeysWith dialect rule scopes keys)
  | [], _ => .pure .nil
  | { expr, .. } :: rest, hc =>
    .bind (exprWith_sound hrule h expr hc.append.1) fun _ ht =>
      .bind (sortKeysWith_sound hrule h rest hc.append.2) fun _ hts => .pure (ht.append hts)

theorem groupingWith_sound (hrule : SoundRule strict known base rule)
    {first : Alias} {scopes : Scopes} {around : List Declaration}
    (h : Surrounds strict known base first scopes around) :
    ∀ grouping : Option (List Expr),
    Covered strict known scopes (Expr.mentionsAll (grouping.getD []))
      (Expr.recordsGrouping grouping) →
    Sound strict first (fun ts => AllPlaced base (columnsGrouping around ts))
      (groupingWith dialect rule scopes grouping)
  | none, _ => .pure .nil
  | some es, hc => .bind (exprsWith_sound hrule h es hc) fun _ hts => .pure hts

theorem orderingWith_sound (hrule : SoundRule strict known base rule)
    {first : Alias} {scopes : Scopes} {around : List Declaration}
    (h : Surrounds strict known base first scopes around) :
    ∀ ordering : Option (List (SortKeyOf Expr)),
    Covered strict known scopes (Expr.mentionsAll ((ordering.getD []).map (·.expr)))
      (Expr.recordsOrdering ordering) →
    Sound strict first (fun ts => AllPlaced base (columnsOrdering around ts))
      (orderingWith dialect rule scopes ordering)
  | none, _ => .pure .nil
  | some keys, hc => .bind (sortKeysWith_sound hrule h keys hc) fun _ hts => .pure hts

/-- A query whose record types are known is sound wherever it stands. -/
theorem selectWith_sound (hrule : SoundRule strict known base rule)
    {first : Alias} {outer : Scopes} {around : List Declaration}
    (h : Surrounds strict known base first outer around) (labelled : Bool) :
    ∀ s : SelectOf Expr,
    Expr.recordsSelect s ⊆ known →
    Sound strict first (fun q => AllPlaced base (columnsQuery around q))
      (selectWith dialect rule outer labelled s)
  | { record, selection, filter, joins, grouping, ordering, limit, locking, distinct, overrides,
      definitions }, hrecords => by
    refine selectWith_sound_of_clauses fun next hnext => ?_
    have hinner := h.push hrecords hnext
    have hc := Select.coveredIn strict hrecords outer next
    refine ⟨output_sound fun field => ?_, joinsWith_sound hrule hinner joins ?_ hc.joins,
      optionalWith_sound hrule hinner filter hc.filter,
      groupingWith_sound hrule hinner grouping hc.grouping,
      orderingWith_sound hrule hinner ordering hc.ordering⟩
    · dsimp only
      cases hdefined : definitionWith dialect rule _ field definitions with
      | some x =>
          exact definitionWith_sound hrule hinner field definitions x hc.definitions hdefined
      | none =>
          exact hrule hinner (fun _ => Select.lists_own _ outer next List.mem_cons_self)
            (hrecords List.mem_cons_self)
    · intro j hj
      exact Select.lists_own _ outer next (List.mem_cons_of_mem _ (List.mem_map_of_mem hj))

end

/-! ### Overridden fields -/

variable (strict dialect known base) in
theorem overriddenColumn_sound : SoundRule strict known base (overriddenColumn dialect) := by
  intro first scopes around c h hlisted hknown
  have hplain := plainColumn_sound strict known base h hlisted hknown
  unfold overriddenColumn
  refine .bind (.ofExcept fun _ => RecordType.field_ne_unknownRecord _ _) fun field _ => ?_
  cases howner : Scope.owner? scopes c.record with
  | none => exact hplain
  | some owner =>
      obtain ⟨scope, a⟩ := owner
      dsimp only
      cases hbody : scope.overrideOf? c with
      | none => exact hplain
      | some body =>
          obtain ⟨o, ho, rfl⟩ := Scope.exists_override hbody
          exact .bind (exprWith_sound (plainColumn_sound strict known base) h o.expr
            (h.overrides howner o ho)) fun _ ht => .pure ht

end Resolve

/-! ### Whole queries -/

/-- However queries are nested, no record type is missing where a column is resolved, every column
of the compiled query is declared by a query around it, and the qualifiers in print are those of
columns. -/
theorem Select.columns_declared (s : Select) (hnames : RecordType.DistinctNames s.records)
    (dialect : Dialect) :
    (∀ name, s.compile dialect ≠ .error (.unknownRecord name)) ∧
      ∀ compiled, s.compile dialect = .ok compiled →
        ∃ q : Query, (Statement.select s).resolve dialect = .ok (.query q) ∧
          compiled = (Command.query q).compiled dialect ∧ (∀ u ∈ q.uses, u.Declared) ∧
          ∀ a ∈ Lexeme.qualifiers (q.lexemes dialect), ∃ u ∈ q.uses, u.qualifier = some a := by
  have hsound : Resolve.Sound True 0 (fun q => AllPlaced [] (columnsQuery [] q))
      (Resolve.selectWith dialect (Resolve.overriddenColumn dialect) [] true s) :=
    Resolve.selectWith_sound (Resolve.overriddenColumn_sound True dialect s.records [])
      (.base_only hnames fun h => by cases h) true s (List.Subset.refl _)
  unfold Select.compile RecordStore.compile
  obtain ⟨q, next, hselect, hresolve⟩ | ⟨e, next, hselect, hresolve⟩ := resolve_cases dialect s
  · rw [hresolve]
    constructor
    · intro name h
      cases h
    · intro compiled h
      cases h
      have hdeclared := (hsound.ok (Nat.le_refl 0) hselect).2.declared
      rw [← usesQuery_eq] at hdeclared
      refine ⟨q, rfl, rfl, hdeclared, fun a ha => ?_⟩
      exact List.mem_filterMap.mp ((queryTerms_printed dialect [] q).sublist.mem ha)
  · rw [hresolve]
    constructor
    · intro name h
      cases h
      exact hsound.error trivial (Nat.le_refl 0) hselect
    · intro compiled h
      cases h

namespace Sample

/-- Orders of items. -/
def orders : RecordType where
  name := "Order"
  table := some "orders"
  fields := [.stored "id" "order_id", .stored "item" "item_id"]
  primaryKey := ["id"]

/-- Tags on items. -/
def tags : RecordType where
  name := "Tag"
  table := some "tags"
  fields := [.stored "item" "item_id", .stored "label" "label"]
  primaryKey := ["item", "label"]

/-- Orders of tagged items by item; an order's item is read from the joined table. -/
def taggedOrders : Select where
  record := orders
  joins := [⟨.left, schema.type, .binary .eq (.col orders "id") (.col schema.type "id")⟩]
  overrides := [⟨"item", .col schema.type "id"⟩]
  filter := some (.existsRow {
    record := tags
    filter := some (.binary .eq (.col tags "item") (.col orders "item")) })

theorem columns_declared_tagged :
    RecordType.DistinctNames taggedOrders.records ∧
      ∃ q : Query, (Statement.select taggedOrders).resolve .sqlite = .ok (.query q) ∧
        q.uses.map (·.qualifier) = [0, 1, 0, 1, 2, 2, 2, 1].map some ∧
        ∀ u ∈ q.uses, u.Declared := by
  have hnames : RecordType.DistinctNames taggedOrders.records := by decide
  obtain ⟨q, hq, -, huses, -⟩ := (taggedOrders.columns_declared hnames .sqlite).2 _ rfl
  refine ⟨hnames, q, hq, ?_, huses⟩
  cases hq
  decide

end Sample

end RecordStore
