import RecordStore.Proofs.Sql.AliasEquiv
import RecordStore.Proofs.Sql.FromClause
import RecordStore.Proofs.Sql.Renaming

/-! # The rows that are counted

Where no rows are merged, the query for the number of rows drops the order of the query for the
rows.  Its `FROM` is derived from the clauses that are left, so that a table which only the order
mentions is lost with it (`Select.countDrops`), and then other rows are counted.  Otherwise both
queries range over the same rows, up to the aliases (`Query.EquivRows`).  Where the order mentions
no record type of its own at all, one renaming of the aliases takes one query to the other
(`Query.SameRows`). -/

namespace RecordStore

/-- Under some renaming of the aliases, both queries read the same tables, with the same joins and
under the same condition. -/
def Query.SameRows (q q' : Query) : Prop :=
  ∃ ρ : Alias → Alias, Function.Injective ρ ∧ q'.tables.Perm (q.tables.map (TableItem.rename ρ)) ∧
    q'.joins = renameJoins ρ q.joins ∧ q'.filter = renameOptional ρ q.filter

/-- Both queries read the same tables, with the same joins and under the same condition, whatever
the aliases. -/
structure Query.EquivRows (q q' : Query) : Prop where
  tables : (q.tables.map TableItem.source).Perm (q'.tables.map TableItem.source)
  joins : List.Forall₂ (JoinRel Term.AliasEquiv) q.joins q'.joins
  filter : Option.Rel Term.AliasEquiv q.filter q'.filter

namespace Select

variable (s : Select)

/-- The record types that are listed in the query for the rows only. -/
def countDrops : List RecordType :=
  (s.scopeRecords []).filter fun r => !(s.count.scopeRecords []).any (·.sameAs r)

/-- Where the aliases of the query for the number of rows are in the query for the rows, which has
`next` as its first free alias after the list of results. -/
def countRenaming (next a : Alias) : Alias :=
  match (s.count.scopeRecords [])[a]? with
  | some r => (s.scopeRecords []).findIdx (·.sameAs r)
  | none => next + (a - (s.count.scopeRecords []).length)

/-! ### What both queries list -/

variable {s}

theorem count_mentions_subset : s.count.mentions ⊆ s.mentions := by
  have hordering : Expr.mentionsAll ((s.count.ordering.getD []).map (·.expr)) ⊆
      Expr.mentionsAll ((s.ordering.getD []).map (·.expr)) := by
    unfold count
    cases s.mergesRows with
    | true => exact List.Subset.refl _
    | false => exact List.nil_subset _
  exact append_subset_append (append_subset_append (List.Subset.refl _) hordering)
    (List.Subset.refl _)

theorem count_records_subset : s.count.records ⊆ s.records := by
  have hordering : Expr.recordsOrdering s.count.ordering ⊆ Expr.recordsOrdering s.ordering := by
    unfold count
    cases s.mergesRows with
    | true => exact List.Subset.refl _
    | false => exact List.nil_subset _
  rw [records_eq, records_eq]
  refine List.cons_subset_cons s.record ?_
  exact append_subset_append (append_subset_append (List.Subset.refl _) hordering)
    (List.Subset.refl _)

/-- What is counted is listed in the query for the rows too. -/
theorem any_of_count {r : RecordType} (h : (s.count.scopeRecords []).any (·.sameAs r) = true) :
    (s.scopeRecords []).any (·.sameAs r) = true := by
  rw [any_scopeRecords, Bool.or_eq_true, Bool.and_eq_true] at h ⊢
  rcases h with hown | ⟨hmentioned, hunlisted⟩
  · exact .inl hown
  · obtain ⟨m, hm, hsame⟩ := List.any_eq_true.mp hmentioned
    exact .inr ⟨List.any_eq_true.mpr ⟨m, count_mentions_subset hm, hsame⟩, hunlisted⟩

theorem any_count_of_drops_nothing (hdrops : s.countDrops = []) (r : RecordType) :
    (s.count.scopeRecords []).any (·.sameAs r) = (s.scopeRecords []).any (·.sameAs r) := by
  refine Bool.eq_iff_iff.mpr ⟨any_of_count, fun h => ?_⟩
  obtain ⟨r', hr', hsame⟩ := List.any_eq_true.mp h
  have hkept := List.filter_eq_nil_iff.mp hdrops r' hr'
  rw [Bool.not_eq_true, Bool.not_eq_false'] at hkept
  have hname : r'.name = r.name := beq_iff_eq.mp hsame
  unfold RecordType.sameAs at hkept ⊢
  rwa [hname] at hkept

section Tables

variable (hnames : RecordType.DistinctNames s.records)
  (htables : ∀ r ∈ s.countDrops, r.table = none)
include hnames htables

/-- What has a table is counted too, where nothing with a table is dropped. -/
theorem any_count_of_drops_no_table {r : RecordType} (hr : r ∈ s.records)
    (htable : r.table ≠ none) :
    (s.count.scopeRecords []).any (·.sameAs r) = (s.scopeRecords []).any (·.sameAs r) := by
  refine Bool.eq_iff_iff.mpr ⟨any_of_count, fun h => ?_⟩
  obtain ⟨r', hr', hsame⟩ := List.any_eq_true.mp h
  obtain rfl : r' = r := hnames r' (s.scopeRecords_subset [] hr') r hr hsame
  by_contra hdropped
  refine htable (htables r' (List.mem_filter.mpr ⟨hr', ?_⟩))
  rw [Bool.not_eq_true', eq_false_of_ne_true hdropped]

theorem count_sameTables (next next' : Alias) :
    Scope.SameTables s.records (s.count.innerScopes [] next) (s.innerScopes [] next') where
  lists {r} h := by
    unfold innerScopes at h ⊢
    rw [Scope.lists_cons, isSome_aliasOf, Bool.or_eq_true] at h ⊢
    exact h.imp_left any_of_count
  tables {r} hr htable := by
    unfold innerScopes
    rw [Scope.lists_cons, Scope.lists_cons, isSome_aliasOf, isSome_aliasOf,
      any_count_of_drops_no_table hnames htables hr htable]
  qualified howner := qualified_innerScopes (fun h => by cases h) howner
  qualified' howner := qualified_innerScopes (fun h => by cases h) howner
  overrides c := by
    rw [override?_innerScopes, override?_innerScopes]
    rfl
  bodies hbody := bodies_innerScopes count_records_subset (fun h => by cases h) hbody

/-- Both queries read the same tables. -/
theorem count_tables_perm (next next' : Alias) :
    ((s.count.tableItems (s.count.entries [] next)).map TableItem.source).Perm
      ((s.tableItems (s.entries [] next')).map TableItem.source) := by
  rw [tableItems_source, tableItems_source]
  have hsource {r : RecordType} {source : RecordType × String} (h : s.source? r = some source) :
      source.1 = r ∧ r.table ≠ none := by
    unfold source? at h
    split at h
    · cases h
    · obtain ⟨table, htable, rfl⟩ := Option.map_eq_some_iff.mp h
      exact ⟨rfl, by rw [htable]; exact nofun⟩
  have hnodup (s' : Select) : ((s'.scopeRecords []).filterMap s.source?).Nodup := by
    have hrecords : (s'.scopeRecords []).Nodup :=
      (s'.scopeRecords_apart []).imp fun hne heq => by
        rw [heq, RecordType.sameAs, beq_self_eq_true] at hne
        cases hne
    refine hrecords.filterMap fun r r' source h h' => ?_
    rw [← (hsource h).1, (hsource h').1]
  refine (List.perm_ext_iff_of_nodup (hnodup s.count) (hnodup s)).mpr fun source => ?_
  rw [List.mem_filterMap, List.mem_filterMap]
  constructor
  · rintro ⟨r, hr, h⟩
    have hrecord : r ∈ s.records := count_records_subset (s.count.scopeRecords_subset [] hr)
    have hlisted := any_of_count (any_sameAs_of_mem hr)
    exact ⟨r, mem_scopeRecords_of_any hnames (List.Subset.refl _) hrecord hlisted, h⟩
  · rintro ⟨r, hr, h⟩
    have hrecord : r ∈ s.records := s.scopeRecords_subset [] hr
    have hlisted := any_count_of_drops_no_table hnames htables hrecord (hsource h).2
    rw [any_sameAs_of_mem hr] at hlisted
    exact ⟨r, mem_scopeRecords_of_any hnames count_records_subset hrecord hlisted, h⟩

end Tables

/-! ### The renaming -/

variable {next : Alias}

theorem countRenaming_shifts :
    ShiftsFrom (s.count.scopeRecords []).length (s.countRenaming next) := by
  intro a ha n
  unfold countRenaming
  rw [List.getElem?_eq_none ha, List.getElem?_eq_none (Nat.le_add_right_of_le ha)]
  dsimp only
  rw [Nat.sub_add_comm ha, Nat.add_assoc]

theorem countRenaming_length (next : Alias) :
    s.countRenaming next (s.count.scopeRecords []).length = next := by
  unfold countRenaming
  rw [List.getElem?_eq_none (Nat.le_refl _)]
  dsimp only
  rw [Nat.sub_self, Nat.add_zero]

/-- The renaming takes the alias of a record type in one query to its alias in the other. -/
theorem countRenaming_of_findIdx (next : Alias) {r : RecordType} {i : Nat}
    (h : (s.count.scopeRecords []).findIdx? (·.sameAs r) = some i) :
    (s.scopeRecords []).findIdx? (·.sameAs r) = some (s.countRenaming next i) := by
  obtain ⟨hlt, hsame, -⟩ := List.findIdx?_eq_some_iff_getElem.mp h
  have hname : (s.count.scopeRecords [])[i].name = r.name := beq_iff_eq.mp hsame
  have hany : (s.scopeRecords []).any (·.sameAs r) = true :=
    any_of_count (List.any_eq_true.mpr ⟨_, List.getElem_mem hlt, hsame⟩)
  have hren : s.countRenaming next i = (s.scopeRecords []).findIdx (·.sameAs r) := by
    unfold countRenaming RecordType.sameAs
    rw [List.getElem?_eq_getElem hlt]
    dsimp only
    rw [hname]
  rw [hren, List.findIdx?_eq_some_iff_findIdx_eq]
  exact ⟨List.findIdx_lt_length.mpr (List.any_eq_true.mp hany), rfl⟩

variable (s) in
/-- An alias is the one of a record type in both queries, or it comes after those in both. -/
theorem countRenaming_cases (next a : Alias) :
    (∃ r, (s.count.scopeRecords []).findIdx? (·.sameAs r) = some a ∧
      (s.scopeRecords []).findIdx? (·.sameAs r) = some (s.countRenaming next a)) ∨
      ∃ n, a = (s.count.scopeRecords []).length + n ∧ s.countRenaming next a = next + n := by
  cases hr : (s.count.scopeRecords [])[a]? with
  | some r =>
      have hfind := s.count.findIdx_scopeRecords [] hr
      exact .inl ⟨r, hfind, countRenaming_of_findIdx next hfind⟩
  | none =>
      refine .inr ⟨_, (Nat.add_sub_of_le (List.getElem?_eq_none_iff.mp hr)).symm, ?_⟩
      unfold countRenaming
      rw [hr]

theorem countRenaming_injective (hnext : (s.scopeRecords []).length ≤ next) :
    Function.Injective (s.countRenaming next) := by
  intro a b hab
  -- The aliases of record types end before `next`, where the others begin.
  have hbelow {r : RecordType} {i n : Nat}
      (h : (s.scopeRecords []).findIdx? (·.sameAs r) = some i) : i ≠ next + n := by
    have hlt : i < (s.scopeRecords []).length := (List.findIdx?_eq_some_iff_getElem.mp h).1
    omega
  obtain ⟨r, hcount, hrow⟩ | ⟨n, rfl, ha⟩ := s.countRenaming_cases next a <;>
    obtain ⟨r', hcount', hrow'⟩ | ⟨n', rfl, hb⟩ := s.countRenaming_cases next b
  · rw [hab] at hrow
    obtain ⟨_, hsame, -⟩ := List.findIdx?_eq_some_iff_getElem.mp hrow
    obtain ⟨_, hsame', -⟩ := List.findIdx?_eq_some_iff_getElem.mp hrow'
    have hname : r.name = r'.name := (beq_iff_eq.mp hsame).symm.trans (beq_iff_eq.mp hsame')
    unfold RecordType.sameAs at hcount hcount'
    rw [hname, hcount'] at hcount
    exact (Option.some.inj hcount).symm
  · exact absurd (hab.trans hb) (hbelow hrow)
  · exact absurd (hab.symm.trans ha) (hbelow hrow')
  · have heq : next + n = next + n' := ha.symm.trans (hab.trans hb)
    rw [Nat.add_left_cancel heq]

/-- Where nothing is dropped, a record type has the same alias in both queries, renamed. -/
theorem count_aliasOf (hdrops : s.countDrops = []) (next : Alias) (r : RecordType) :
    (s.innerScope [] 0).aliasOf? r =
      ((s.count.innerScope [] 0).aliasOf? r).map (s.countRenaming next) := by
  rw [aliasOf_eq, aliasOf_eq]
  cases hcount : (s.count.scopeRecords []).findIdx? (·.sameAs r) with
  | none =>
      have hany := any_count_of_drops_nothing hdrops r
      rw [← List.findIdx?_isSome, ← List.findIdx?_isSome, hcount] at hany
      rw [Option.isNone_iff_eq_none.mp (Option.isSome_eq_false_iff.mp hany.symm)]
      rfl
  | some i =>
      rw [countRenaming_of_findIdx next hcount, Option.map_some, Option.map_some, Option.map_some,
        Nat.zero_add, Nat.zero_add]

theorem count_allRenamed (hdrops : s.countDrops = []) (next : Alias) :
    Scope.AllRenamed (s.countRenaming next) (s.count.innerScopes [] 0) (s.innerScopes [] 0) := by
  intro r
  unfold innerScopes Scope.owner?
  rw [count_aliasOf hdrops next]
  cases (s.count.innerScope [] 0).aliasOf? r with
  | none => exact .none
  | some a => exact .some ⟨rfl, rfl, rfl, rfl⟩

/-! ### The tables -/

variable {outer : Scopes}

theorem entries_nodup : (s.entries outer next).Nodup := by
  refine .of_map (·.2) ?_
  rw [entries_labels]
  exact List.nodup_range'

theorem count_entries_perm (hdrops : s.countDrops = [])
    (hnames : RecordType.DistinctNames s.records) (hnext : (s.scopeRecords []).length ≤ next) :
    (s.entries [] 0).Perm ((s.count.entries [] 0).map (renameEntry (s.countRenaming next))) := by
  have hinj : Function.Injective (renameEntry (s.countRenaming next)) := by
    intro entry entry' h
    obtain ⟨hrecord, hlabel⟩ := Prod.mk.inj h
    exact Prod.ext hrecord (countRenaming_injective hnext hlabel)
  have halias (r : RecordType) := count_aliasOf hdrops next r
  refine (List.perm_ext_iff_of_nodup entries_nodup (entries_nodup.map hinj)).mpr ?_
  rintro ⟨r, b⟩
  rw [List.mem_map]
  constructor
  · intro hentry
    have hr : r ∈ s.records := s.scopeRecords_subset [] (List.of_mem_zip hentry).1
    have hlabel := s.aliasOf_of_entry hentry
    rw [halias, Option.map_eq_some_iff] at hlabel
    obtain ⟨a, hcount, rfl⟩ := hlabel
    exact ⟨(r, a), entry_of_aliasOf hnames count_records_subset hr hcount, rfl⟩
  · rintro ⟨⟨r, a⟩, hentry, h⟩
    obtain ⟨rfl, rfl⟩ := Prod.mk.inj h
    have hr : r ∈ s.records :=
      count_records_subset (s.count.scopeRecords_subset [] (List.of_mem_zip hentry).1)
    refine entry_of_aliasOf hnames (List.Subset.refl _) hr ?_
    rw [halias, s.count.aliasOf_of_entry hentry]
    rfl

end Select

/-! ### Both queries -/

/-- A list of results takes no alias that is taken already. -/
theorem Resolve.output_le {dialect : Dialect} {scopes : Scopes} {s : Select} {next next' : Alias}
    {columns : Option (List (FieldExprOf Term))}
    (h : output dialect (overriddenColumn dialect) scopes s next = .ok columns next') :
    next ≤ next' := by
  -- The renaming that changes nothing keeps the aliases from `next` on.
  have hshifts : ShiftsFrom next id := fun _ _ _ => rfl
  have hlawful := upToRenaming_lawful hshifts dialect
  have hscopes := Scope.AllRenamed.refl scopes
  have hparallel : Parallel False (upToRenaming id next).Free _
      (output dialect (overriddenColumn dialect) scopes s)
      (output dialect (overriddenColumn dialect) scopes s) :=
    output_parallel
      (fun field => definitionWith_parallel hlawful hscopes field s.definitions fun _ _ => trivial)
      fun field => hlawful.column ⟨s.record, field⟩ hscopes
  exact (hparallel.agree ⟨Nat.le_refl next, rfl⟩ h h).1.1

namespace Select

variable {s : Select} {dialect : Dialect} {q q' : Query} {n n' : Alias}

/-- Where nothing is dropped, both queries range over the same rows. -/
theorem count_sameRows_of_drops_nothing (hmerges : s.mergesRows = false)
    (hnames : RecordType.DistinctNames s.records) (hdrops : s.countDrops = [])
    (h : Resolve.selectWith dialect (Resolve.overriddenColumn dialect) [] true s 0 = .ok q n)
    (hcount : Resolve.selectWith dialect (Resolve.overriddenColumn dialect) [] true s.count 0 =
      .ok q' n') : q'.SameRows q := by
  obtain ⟨-, -, columns, n₁, joins, n₂, filter, n₃, -, -, -, -, -, houtput, hjoins, hfilter, -, -,
    -, rfl⟩ := Resolve.selectWith_eq_ok.mp h
  obtain ⟨-, -, columns', n₁', joins', n₂', filter', n₃', -, -, -, -, -, houtput', hjoins',
    hfilter', -, -, -, rfl⟩ := Resolve.selectWith_eq_ok.mp hcount
  have hnext : (s.scopeRecords []).length ≤ n₁ := by
    rw [← Nat.zero_add (s.scopeRecords []).length]
    exact Resolve.output_le houtput
  -- The number of rows has no list of results, so that the joins come first.
  have hfirst : n₁' = (s.count.scopeRecords []).length := by
    have hfields : s.count.resultFields? = none := by
      have hcounts : s.count.mergesRows = false := hmerges
      unfold resultFields?
      rw [hcounts]
      rfl
    unfold Resolve.output at houtput'
    rw [hfields] at houtput'
    obtain ⟨-, hn⟩ := pure_eq_ok.mp houtput'
    rw [← hn, Nat.zero_add]
  have hshifts : ShiftsFrom (s.count.scopeRecords []).length (s.countRenaming n₁) :=
    countRenaming_shifts
  have hlawful := Resolve.upToRenaming_lawful hshifts dialect
  have hscopes := count_allRenamed hdrops n₁
  have hfree : (s.count.scopeRecords []).length ≤ n₁' ∧ n₁ = s.countRenaming n₁ n₁' := by
    rw [hfirst]
    exact ⟨Nat.le_refl _, (countRenaming_length n₁).symm⟩
  obtain ⟨hfree, hjoined⟩ :=
    (Resolve.joinsWith_parallel hlawful hscopes s.joins fun _ _ => trivial).agree hfree hjoins'
      hjoins
  obtain ⟨-, hfiltered⟩ :=
    (Resolve.optionalWith_parallel hlawful hscopes s.filter fun _ _ => trivial).agree hfree hfilter'
      hfilter
  refine ⟨s.countRenaming n₁, countRenaming_injective hnext, ?_,
    Resolve.renameJoins_of_forall hjoined, Resolve.renameOptional_of_rel hfiltered⟩
  have hperm := s.tableItems_perm (count_entries_perm hdrops hnames hnext)
  rwa [tableItems_rename] at hperm

/-- Where nothing with a table is dropped, both queries range over the same rows. -/
theorem count_equivRows_of_drops_no_table (hnames : RecordType.DistinctNames s.records)
    (htables : ∀ r ∈ s.countDrops, r.table = none)
    (h : Resolve.selectWith dialect (Resolve.overriddenColumn dialect) [] true s 0 = .ok q n)
    (hcount : Resolve.selectWith dialect (Resolve.overriddenColumn dialect) [] true s.count 0 =
      .ok q' n') : q'.EquivRows q := by
  obtain ⟨-, -, columns, n₁, joins, n₂, filter, n₃, -, -, -, -, -, houtput, hjoins, hfilter, -, -,
    -, rfl⟩ := Resolve.selectWith_eq_ok.mp h
  obtain ⟨-, -, columns', n₁', joins', n₂', filter', n₃', -, -, -, -, -, houtput', hjoins',
    hfilter', -, -, -, rfl⟩ := Resolve.selectWith_eq_ok.mp hcount
  have hlawful := Resolve.upToAliases_lawful s.records dialect
  have hscopes := count_sameTables hnames htables 0 0
  have hjoin : (Resolve.upToAliases s.records).Admitted (Expr.queriesJoins s.joins) := by
    refine (Expr.queriesJoins_within s.joins).mono ?_
    rw [records_eq]
    exact List.subset_cons_of_subset _ (List.subset_append_right _ _)
  have hcondition : (Resolve.upToAliases s.records).Admitted (Expr.queriesOptional s.filter) := by
    refine (Expr.queriesOptional_within s.filter).mono fun r hr => ?_
    rw [records_eq]
    simp [hr]
  obtain ⟨hfree, hjoined⟩ :=
    (Resolve.joinsWith_parallel hlawful hscopes s.joins hjoin).agree trivial hjoins' hjoins
  obtain ⟨-, hfiltered⟩ :=
    (Resolve.optionalWith_parallel hlawful hscopes s.filter hcondition).agree trivial hfilter'
      hfilter
  exact ⟨count_tables_perm hnames htables 0 0,
    hjoined.imp fun _ _ => Resolve.joinRel_of_joins, hfiltered⟩

/-- What is dropped has no table, where the query for the number of rows reads the record types of
the tables that the query for the rows reads. -/
theorem drops_no_table_of_tables
    (h : Resolve.selectWith dialect (Resolve.overriddenColumn dialect) [] true s 0 = .ok q n)
    (hcount : Resolve.selectWith dialect (Resolve.overriddenColumn dialect) [] true s.count 0 =
      .ok q' n')
    (htables : ∀ item ∈ q.tables, ∃ item' ∈ q'.tables, item'.record = item.record) :
    ∀ r ∈ s.countDrops, r.table = none := by
  obtain ⟨-, c, -, rfl⟩ := Resolve.selectWith_eq_ok_clauses.mp h
  obtain ⟨-, c', -, rfl⟩ := Resolve.selectWith_eq_ok_clauses.mp hcount
  intro r hr
  obtain ⟨hlisted, hdropped⟩ := List.mem_filter.mp hr
  refine Option.eq_none_iff_forall_ne_some.mpr fun table htable => ?_
  have hunlisted : (s.count.scopeRecords []).any (·.sameAs r) ≠ true := by
    intro h
    rw [h] at hdropped
    cases hdropped
  -- A joined record type is listed in both queries, and the tables of the others are the same.
  cases hjoined : s.joins.any (·.record.sameAs r) with
  | true =>
      refine hunlisted ?_
      obtain ⟨j, hj, hsame⟩ := List.any_eq_true.mp hjoined
      rw [any_scopeRecords, Bool.or_eq_true]
      exact .inl (List.any_eq_true.mpr
        ⟨j.record, List.mem_cons_of_mem _ (List.mem_map_of_mem hj), hsame⟩)
  | false =>
      obtain ⟨a, ha⟩ : ∃ a, (r, a) ∈ s.entries [] 0 := by
        rw [← s.entries_records [] 0] at hlisted
        obtain ⟨entry, hentry, rfl⟩ := List.mem_map.mp hlisted
        exact ⟨_, hentry⟩
      have hitem : ⟨r, table, a⟩ ∈ s.tableItems (s.entries [] 0) :=
        s.mem_tableItems.mpr ⟨ha, htable, hjoined⟩
      obtain ⟨item, hcounted, rfl⟩ := htables _ hitem
      refine hunlisted (any_sameAs_of_mem ?_)
      exact (List.of_mem_zip (s.count.mem_tableItems.mp hcounted).1).1

/-- Where no rows are merged, a query and the query for the number of its rows range over the same
rows if and only if the order brings in no table of its own.  If it brings in no record type of its
own, then under one renaming of the aliases. -/
theorem count_rows (s : Select) (hmerges : s.mergesRows = false)
    (hnames : RecordType.DistinctNames s.records) (dialect : Dialect)
    {compiled counted : CompiledStatement} (h : s.compile dialect = .ok compiled)
    (hcount : s.count.compile dialect = .ok counted) :
    ∃ q q' : Query, (Statement.select s).resolve dialect = .ok (.query q) ∧
      (Statement.select s.count).resolve dialect = .ok (.query q') ∧
      compiled = (Command.query q).compiled dialect ∧
      counted = (Command.query q').compiled dialect ∧
      (q'.EquivRows q ↔ ∀ r ∈ s.countDrops, r.table = none) ∧
      (s.countDrops = [] → q'.SameRows q) ∧
      (q'.SameRows q → ∀ r ∈ s.countDrops, r.table = none) := by
  obtain ⟨q, n, hselect, hresolve, hcompiled⟩ := resolve_of_compile h
  obtain ⟨q', n', hselect', hresolve', hcounted⟩ := resolve_of_compile hcount
  have hdrops := drops_no_table_of_tables hselect hselect'
  refine ⟨q, q', hresolve, hresolve', hcompiled, hcounted,
    ⟨fun hequiv => hdrops fun item hitem => ?_, fun htables =>
      count_equivRows_of_drops_no_table hnames htables hselect hselect'⟩,
    fun hdrops => count_sameRows_of_drops_nothing hmerges hnames hdrops hselect hselect',
    fun hsame => hdrops fun item hitem => ?_⟩
  · obtain ⟨item', hitem', hsource⟩ :=
      List.mem_map.mp (hequiv.tables.mem_iff.mpr (List.mem_map_of_mem hitem))
    exact ⟨item', hitem', congrArg Prod.fst hsource⟩
  · obtain ⟨ρ, -, htables, -, -⟩ := hsame
    obtain ⟨item', hitem', rfl⟩ := List.mem_map.mp (htables.mem_iff.mp hitem)
    exact ⟨item', hitem', rfl⟩

end Select

namespace Sample

/-- Orders of tagged items by the names of the items; in the place of an item the number of tags of
its name is shown. -/
def ordersByName : Select where
  record := orders
  joins := [⟨.inner, schema.type, .binary .eq (.col orders "item") (.col schema.type "id")⟩]
  definitions := [⟨"item", .subquery {
    record := tags
    selection := .count
    filter := some (.binary .eq (.col tags "label") (.col schema.type "name")) }⟩]
  filter := some (.existsRow {
    record := tags
    filter := some (.binary .eq (.col tags "item") (.col orders "item")) })
  ordering := some [⟨.col schema.type "name", false⟩]

/-- The tags in the condition are called `t3` where a tag is counted in the list of results, and
`t2` where the orders are counted. -/
theorem ordersByName_count : ordersByName.mergesRows = false ∧
    RecordType.DistinctNames ordersByName.records ∧ ∃ q q' : Query,
      (Statement.select ordersByName).resolve .sqlite = .ok (.query q) ∧
      (Statement.select ordersByName.count).resolve .sqlite = .ok (.query q') ∧
      (Lexeme.qualifiers (q.lexemes .sqlite)).contains 3 = true ∧
      (Lexeme.qualifiers (q'.lexemes .sqlite)).contains 3 = false ∧ q'.SameRows q := by
  have hnames : RecordType.DistinctNames ordersByName.records := by decide
  obtain ⟨q, q', hq, hq', -, -, -, hsame, -⟩ := ordersByName.count_rows rfl hnames .sqlite rfl rfl
  refine ⟨rfl, hnames, q, q', hq, hq', ?_, ?_, hsame (by decide)⟩
  · cases hq
    decide
  · cases hq'
    decide

/-- Rates, which are in no table. -/
def rates : RecordType where
  name := "Rate"
  table := none
  fields := [.computed "vat" (some "0.2") true]
  primaryKey := []

/-- Tagged items by a rate, which the condition of the tags mentions too. -/
def itemsByRate : Select where
  record := schema.type
  filter := some (.existsRow {
    record := tags
    filter := some (.binary .lt (.col rates "vat") (.col tags "item")) })
  ordering := some [⟨.col rates "vat", false⟩]

/-- The order brings in a record type without a table, so that the tags are called `t2` in one query
and `t1` in the other. -/
example : itemsByRate.countDrops = [rates] ∧
    itemsByRate.compile .sqlite = .ok ⟨"SELECT t0.\"item_id\" AS \"id\", t0.\"item_name\" AS " ++
      "\"name\" FROM \"items\" t0 WHERE EXISTS (SELECT t2.\"item_id\", t2.\"label\" FROM " ++
      "\"tags\" t2 WHERE (0.2) < t2.\"item_id\") ORDER BY (0.2) ASC", []⟩ ∧
    itemsByRate.count.compile .sqlite = .ok ⟨"SELECT COUNT(*) FROM \"items\" t0 WHERE EXISTS " ++
      "(SELECT t1.\"item_id\", t1.\"label\" FROM \"tags\" t1 " ++
      "WHERE (0.2) < t1.\"item_id\")", []⟩ := by
  refine ⟨?_, ?_, ?_⟩ <;> decide +kernel

/-- Items by the orders there are, which the condition does not mention. -/
def itemsByOrder : Select where
  record := schema.type
  ordering := some [⟨.col orders "id", false⟩]

/-- There is a row for each pair of an item and an order, and the items alone are counted. -/
theorem itemsByOrder_miscounted :
    itemsByOrder.compile .sqlite = .ok ⟨"SELECT t0.\"item_id\" AS \"id\", t0.\"item_name\" AS " ++
      "\"name\" FROM \"items\" t0, \"orders\" t1 ORDER BY t1.\"order_id\" ASC", []⟩ ∧
    itemsByOrder.count.compile .sqlite = .ok ⟨"SELECT COUNT(*) FROM \"items\" t0", []⟩ ∧
    ∃ q q' : Query, (Statement.select itemsByOrder).resolve .sqlite = .ok (.query q) ∧
      (Statement.select itemsByOrder.count).resolve .sqlite = .ok (.query q') ∧
      ¬ q'.SameRows q := by
  refine ⟨rfl, rfl, _, _, rfl, rfl, ?_⟩
  rintro ⟨ρ, -, htables, -⟩
  have hlength := htables.length_eq
  rw [List.length_map] at hlength
  exact absurd hlength (by decide)

end Sample

end RecordStore
