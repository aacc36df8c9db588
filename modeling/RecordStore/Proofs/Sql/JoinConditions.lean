import RecordStore.Proofs.Sql.Aliases

/-! # What the condition of a join sees

In the standard, and in PostgreSQL and MySQL, a join binds tighter than a comma: in
`FROM a, b JOIN c ON …` the condition sees `b` and `c` but not `a`.  A query lists the record type
that it selects before the others that it mentions, so that its own table comes last only where it
comes alone.  A column in the condition is seen unless it belongs to a table of the query that is
neither the last one before the joins nor joined up to here (`Select.join_conditions_see`). -/

namespace RecordStore

/-- The tables of a query that the condition of its join at this place sees: the last one before the
joins, and those joined up to here. -/
def Query.seenAt (q : Query) (i : Nat) : Declaration where
  assigned := q.scope
  items := q.tables.getLast?.toList ++ (q.joins.take (i + 1)).map (·.item)

namespace ColumnUse

/-- The qualifier of the column is the alias of a table that is declared here. -/
def Reads (u : ColumnUse) (d : Declaration) : Prop :=
  ∃ item ∈ d.items, u.qualifier = some item.label

/-- A column in the condition of a join is seen where its qualifier is the alias of a table in a
query inside the condition, of a table that the condition sees, or of a table in a query around. -/
def SeenAt (u : ColumnUse) (q : Query) (i : Nat) (around : List Declaration) : Prop :=
  ∃ inner, u.around = inner ++ q.declaration :: around ∧
    ∃ d ∈ inner ++ q.seenAt i :: around, u.Reads d

end ColumnUse

/-! ### The tables of a query -/

/-- What comes first in a list without repetitions comes last in a part of it only alone. -/
theorem getLast_eq_head_iff {α : Type} {a : α} {as rest : List α} (h : as.Sublist (a :: rest))
    (hnew : a ∉ rest) : as.getLast? = some a ↔ as = [a] := by
  constructor
  · intro hlast
    cases h with
    | cons _ h => exact absurd (h.mem (List.mem_of_getLast? hlast)) hnew
    | cons_cons _ h =>
        rename_i as
        cases as with
        | nil => rfl
        | cons a' as =>
            rw [List.getLast?_cons_cons] at hlast
            exact absurd (h.mem (List.mem_of_getLast? hlast)) hnew
  · rintro rfl
    rfl

theorem prefix_foldl_addRecord (rs seen : List RecordType) : seen <+: rs.foldl addRecord seen := by
  induction rs generalizing seen with
  | nil => exact List.prefix_refl seen
  | cons r rs ih =>
      refine List.IsPrefix.trans ?_ (ih (addRecord seen r))
      unfold addRecord
      split
      · exact List.prefix_refl seen
      · exact List.prefix_append seen [r]

namespace Select

variable {s : Select} {outer : Scopes} {first : Alias}

/-- A query lists the record type that it selects first. -/
theorem scopeRecords_eq_cons (s : Select) (outer : Scopes) :
    ∃ rest, s.scopeRecords outer = s.record :: rest := by
  obtain ⟨rest, hrest⟩ : [s.record] <+: s.scopeRecords outer :=
    List.IsPrefix.trans (prefix_foldl_addRecord _ _) (prefix_foldl_addRecord _ _)
  exact ⟨rest, hrest.symm⟩

/-- The tables that no join brings in are listed in the order of their record types. -/
theorem tableItems_records_sublist (s : Select) (entries : List (RecordType × Alias)) :
    ((s.tableItems entries).map (·.record)).Sublist (entries.map (·.1)) := by
  induction entries with
  | nil => exact .slnil
  | cons entry entries ih =>
      obtain ⟨r, a⟩ := entry
      unfold tableItems at ih ⊢
      rw [List.filterMap_cons]
      split
      · exact ih.cons r
      · next item hitem =>
          have hrecord : item.record = r := by
            dsimp only at hitem
            split at hitem
            · split at hitem
              · cases hitem
              · cases hitem
                rfl
            · cases hitem
          rw [List.map_cons, hrecord]
          exact ih.cons_cons r

/-- Before the joins the table of the selected record type is the last one only where it is the only
one. -/
theorem last_table_iff : (s.tableItems (s.entries outer first)).getLast?.map (·.record) =
      some s.record ↔
    (s.tableItems (s.entries outer first)).map (·.record) = [s.record] := by
  obtain ⟨rest, hrest⟩ := s.scopeRecords_eq_cons outer
  have hsublist := s.tableItems_records_sublist (s.entries outer first)
  rw [entries_records, hrest] at hsublist
  have hnew : s.record ∉ rest := by
    intro hmem
    have happart := s.scopeRecords_apart outer
    rw [hrest] at happart
    exact Bool.false_ne_true ((List.rel_of_pairwise_cons happart hmem).symm.trans
      (beq_self_eq_true s.record.name))
  rw [← List.getLast?_map]
  exact getLast_eq_head_iff hsublist hnew

end Select

/-! ### Queries around and inside -/

/-- All aliases that are declared here are below `first`. -/
def Below (around : List Declaration) (first : Alias) : Prop :=
  ∀ d ∈ around, ∀ item ∈ d.items, item.label < first

/-- The column is inside these declarations, and the queries in between declare no alias below
`first`. -/
def ColumnUse.Inside (u : ColumnUse) (around : List Declaration) (first : Alias) : Prop :=
  ∃ inner, u.around = inner ++ around ∧ ∀ d ∈ inner, ∀ item ∈ d.items, first ≤ item.label

/-- A query inside these declarations, which is one of the parts with all its parts. -/
structure Query.Placed (q : Query) (around : List Declaration) (ps : List Part) : Prop where
  items : q.declaration.items = q.tables ++ q.joins.map (·.item)
  label : ∀ item ∈ q.declaration.items, ∀ item' ∈ q.declaration.items,
    item.record = item'.record → item.label = item'.label
  last : q.tables.getLast?.map (·.record) = some q.record ↔ q.tables.map (·.record) = [q.record]
  /-- The aliases of the query are apart from those around it and those inside it. -/
  layer : ∃ first last, Below around first ∧
    (∀ item ∈ q.declaration.items, first ≤ item.label ∧ item.label < last) ∧
    ∀ u, .column u ∈ partsQuery around q → u.Inside (q.declaration :: around) last
  parts : partsQuery around q ⊆ ps

/-- The columns and the queries among the parts are placed inside these declarations. -/
structure Layered (around : List Declaration) (first : Alias) (ps : List Part) : Prop where
  columns : ∀ u, .column u ∈ ps → u.Inside around first
  queries : ∀ q around', .query q around' ∈ ps → q.Placed around' ps

theorem Below.mono {around : List Declaration} {first next : Alias} (h : Below around first)
    (hle : first ≤ next) : Below around next :=
  fun d hd item hitem => Nat.lt_of_lt_of_le (h d hd item hitem) hle

theorem ColumnUse.Inside.mono {u : ColumnUse} {around : List Declaration} {first next : Alias}
    (h : u.Inside around next) (hle : first ≤ next) : u.Inside around first := by
  obtain ⟨inner, heq, hinner⟩ := h
  exact ⟨inner, heq, fun d hd item hitem => Nat.le_trans hle (hinner d hd item hitem)⟩

theorem Query.Placed.mono {q : Query} {around : List Declaration} {ps ps' : List Part}
    (h : q.Placed around ps) (hsub : ps ⊆ ps') : q.Placed around ps' :=
  { h with parts := fun _ hp => hsub (h.parts hp) }

namespace Layered

variable {around : List Declaration} {first next : Alias} {ps ps' : List Part}

theorem nil : Layered around first [] where
  columns _ h := by cases h
  queries _ _ h := by cases h

theorem append (hle : first ≤ next) (h : Layered around first ps) (h' : Layered around next ps') :
    Layered around first (ps ++ ps') where
  columns u hu := by
    rcases List.mem_append.mp hu with hu | hu
    · exact h.columns u hu
    · exact (h'.columns u hu).mono hle
  queries q around' hq := by
    rcases List.mem_append.mp hq with hq | hq
    · exact (h.queries q around' hq).mono (List.subset_append_left ps ps')
    · exact (h'.queries q around' hq).mono (List.subset_append_right ps ps')

theorem column (c : ColumnRef) (qualifier : Option Alias) :
    Layered around first [.column ⟨c, qualifier, around⟩] where
  columns u hu := by
    cases List.mem_singleton.mp hu
    exact ⟨[], rfl, fun _ hd => by cases hd⟩
  queries q around' hq := by cases List.mem_singleton.mp hq

theorem override (c : ColumnRef) (a : Alias) (body : Term) (h : Layered around first ps) :
    Layered around first (.override c a body :: ps) where
  columns u hu := by
    rcases List.mem_cons.mp hu with hu | hu
    · cases hu
    · exact h.columns u hu
  queries q around' hq := by
    rcases List.mem_cons.mp hq with hq | hq
    · cases hq
    · exact (h.queries q around' hq).mono (List.subset_cons_self _ ps)

/-- Inside a query its own aliases are below those of further queries. -/
theorem below_declaration {s : Select} {outer : Scopes} (h : Below around first) :
    Below (s.declaration outer first :: around) (first + (s.scopeRecords outer).length) :=
  List.forall_mem_cons.mpr ⟨fun _ hitem => (s.label_bounds_item hitem).2,
    h.mono (Nat.le_add_right first _)⟩

theorem query {s : Select} {outer : Scopes} {q : Query} (hbelow : Below around first)
    (hrecord : q.record = s.record) (htables : q.tables = s.tableItems (s.entries outer first))
    (hdeclared : q.declaration = s.declaration outer first)
    (hjoined : q.joins.map (·.item) =
      s.joins.filterMap (Scope.joinItem? (s.innerScopes outer first)))
    (hparts : partsQuery around q = .query q around :: ps)
    (h : Layered (s.declaration outer first :: around) (first + (s.scopeRecords outer).length) ps) :
    Layered around first (.query q around :: ps) where
  columns u hu := by
    obtain ⟨inner, heq, hinner⟩ := h.columns u ((List.mem_cons.mp hu).resolve_left (by simp))
    refine ⟨inner ++ [s.declaration outer first], by simp [heq], ?_⟩
    intro d hd item hitem
    rcases List.mem_append.mp hd with hd | hd
    · exact Nat.le_trans (Nat.le_add_right first _) (hinner d hd item hitem)
    · obtain rfl := List.mem_singleton.mp hd
      exact (s.label_bounds_item hitem).1
  queries q' around' hq := by
    rcases List.mem_cons.mp hq with hq | hq
    · cases hq
      refine ⟨?_, ?_, ?_, ⟨first, first + (s.scopeRecords outer).length, hbelow, ?_, ?_⟩, ?_⟩
      · rw [hdeclared, htables, hjoined]
        rfl
      · intro item hitem item' hitem' hrecords
        rw [hdeclared] at hitem hitem'
        have halias := s.aliasOf_item hitem
        rw [hrecords, s.aliasOf_item hitem'] at halias
        exact (Option.some.inj halias).symm
      · rw [htables, hrecord]
        exact s.last_table_iff
      · intro item hitem
        rw [hdeclared] at hitem
        exact s.label_bounds_item hitem
      · intro u hu
        rw [hparts] at hu
        rw [hdeclared]
        exact h.columns u ((List.mem_cons.mp hu).resolve_left (by simp))
      · rw [hparts]
        exact List.Subset.refl _
    · exact (h.queries q' around' hq).mono (List.subset_cons_self _ ps)

/-- Resolving places columns and queries inside the declarations around them. -/
theorem overriding (dialect : Dialect) : Parts.Overriding dialect fun _ around first ps last =>
    first ≤ last ∧ (Below around first → Layered around first ps) where
  nil := ⟨Nat.le_refl _, fun _ => nil⟩
  append h h' :=
    ⟨Nat.le_trans h.1 h'.1, fun hbelow => append h.1 (h.2 hbelow) (h'.2 (hbelow.mono h.1))⟩
  column _ := ⟨Nat.le_refl _, fun _ => column _ _⟩
  query {outer around labelled c first last s} hdeclared hjoined h := by
    refine ⟨Nat.le_trans (Nat.le_add_right _ _) h.1, fun hbelow => ?_⟩
    refine query hbelow rfl rfl hdeclared hjoined ?_ (h.2 (below_declaration hbelow))
    rw [← hdeclared]
    rfl
  override _ h := ⟨h.1, fun hbelow => override _ _ _ (h.2 hbelow)⟩

end Layered

/-! ### Columns of conditions -/

theorem column_mem_parts_iff {u : ColumnUse} {ps : List Part} {us : List ColumnUse}
    (h : ps.filterMap Part.use? = us) : u ∈ us ↔ .column u ∈ ps := by
  rw [← h, List.mem_filterMap]
  constructor
  · rintro ⟨p, hp, huse⟩
    cases p with
    | column u' =>
        cases huse
        exact hp
    | query | override => cases huse
  · intro hu
    exact ⟨_, hu, rfl⟩

theorem parts_subset_partsJoins {around : List Declaration} {js : List JoinedTable}
    {j : JoinedTable} (h : j ∈ js) : j.on.parts around ⊆ partsJoins around js := by
  induction js with
  | nil => cases h
  | cons j' js ih =>
      obtain ⟨kind, item, on⟩ := j'
      rcases List.mem_cons.mp h with rfl | h
      · exact List.subset_append_left _ _
      · exact List.subset_append_of_subset_right _ (ih h)

theorem partsQuery_eq (around : List Declaration) (q : Query) :
    partsQuery around q = .query q around :: (partsResults (q.declaration :: around) q.output ++
      partsJoins (q.declaration :: around) q.joins ++
      partsOptional (q.declaration :: around) q.filter ++
      partsGrouping (q.declaration :: around) q.grouping ++
      partsOrdering (q.declaration :: around) q.ordering) := by
  cases q
  rfl

theorem partsJoins_subset (q : Query) (around : List Declaration) :
    partsJoins (q.declaration :: around) q.joins ⊆ partsQuery around q := by
  intro p hp
  rw [partsQuery_eq]
  refine List.mem_cons_of_mem _ ?_
  simp only [List.mem_append]
  exact .inl (.inl (.inl (.inr hp)))

theorem Query.seenAt_subset {q : Query} (h : q.declaration.items = q.tables ++ q.joins.map (·.item))
    (i : Nat) : (q.seenAt i).items ⊆ q.declaration.items := by
  intro item hitem
  rw [h]
  rcases List.mem_append.mp hitem with hitem | hitem
  · exact List.mem_append_left _ (List.mem_of_getLast? (Option.mem_toList.mp hitem))
  · exact List.mem_append_right _ (List.map_subset _ (List.take_subset _ _) hitem)

/-- A column in the condition of a join is seen exactly if, as a column of a table of the query, it
belongs to a table joined up to here or to the last one before the joins. -/
theorem Query.Placed.seenAt_iff {q : Query} {around : List Declaration} {ps : List Part}
    (h : q.Placed around ps) {i : Nat} {j : JoinedTable} (hj : q.joins[i]? = some j) {u : ColumnUse}
    (hu : u ∈ j.on.uses (q.declaration :: around)) (hdeclared : u.Declared) :
    u.SeenAt q i around ↔ (u.Reads q.declaration →
      u.source.record ∈ (q.joins.take (i + 1)).map (·.item.record) ∨
        q.tables.getLast?.map (·.record) = some u.source.record) := by
  obtain ⟨first, last, hbelow, hlabels, hinside⟩ := h.layer
  have hpart : .column u ∈ partsQuery around q :=
    partsJoins_subset q around (parts_subset_partsJoins (List.mem_of_getElem? hj)
      ((column_mem_parts_iff (j.on.uses_of_parts _)).mp hu))
  obtain ⟨inner, haround, hinner⟩ := hinside u hpart
  obtain ⟨label, table, hlabel, -, ⟨d, hd, -, hitem⟩, hunique⟩ := hdeclared
  have hrecord {item : TableItem} (hitem : item ∈ q.declaration.items)
      (hqualifier : u.qualifier = some item.label) : item.record = u.source.record := by
    refine hunique q.declaration ?_ item hitem (Option.some.inj (hqualifier.symm.trans hlabel))
    rw [haround]
    exact List.mem_append_right _ List.mem_cons_self
  -- A column of the query is seen where the condition sees the table of its record type.
  have hown (hreads : u.Reads q.declaration) : u.Reads (q.seenAt i) ↔
      u.source.record ∈ (q.joins.take (i + 1)).map (·.item.record) ∨
        q.tables.getLast?.map (·.record) = some u.source.record := by
    obtain ⟨own, hownItem, hqualifier⟩ := hreads
    have hsame {item : TableItem} (hitem : item ∈ (q.seenAt i).items)
        (heq : item.record = u.source.record) : u.Reads (q.seenAt i) := by
      refine ⟨item, hitem, ?_⟩
      rw [hqualifier, h.label item (q.seenAt_subset h.items i hitem) own hownItem
        (heq.trans (hrecord hownItem hqualifier).symm)]
    constructor
    · rintro ⟨item, hitem, hqualifier⟩
      have heq := hrecord (q.seenAt_subset h.items i hitem) hqualifier
      rcases List.mem_append.mp hitem with hitem | hitem
      · exact .inr (by rw [Option.mem_toList.mp hitem, Option.map_some, heq])
      · obtain ⟨j', hj', rfl⟩ := List.mem_map.mp hitem
        exact .inl (List.mem_map.mpr ⟨j', hj', heq⟩)
    · rintro (hjoined | hlast)
      · obtain ⟨j', hj', heq⟩ := List.mem_map.mp hjoined
        exact hsame (List.mem_append_right _ (List.mem_map_of_mem hj')) heq
      · obtain ⟨item, hitem, heq⟩ := Option.map_eq_some_iff.mp hlast
        exact hsame (List.mem_append_left _ (Option.mem_toList.mpr hitem)) heq
  constructor
  · rintro ⟨inner', haround', d', hd', item', hitem', hqualifier'⟩ hreads
    refine (hown hreads).mp ?_
    obtain ⟨own, hownItem, hqualifier⟩ := hreads
    obtain ⟨hfirst, hlast⟩ := hlabels own hownItem
    obtain rfl := List.append_cancel_right (haround'.symm.trans haround)
    have heq : item'.label = own.label := Option.some.inj (hqualifier'.symm.trans hqualifier)
    rcases List.mem_append.mp hd' with hd' | hd'
    · have hle := hinner d' hd' item' hitem'
      exact absurd hlast (Nat.not_lt.mpr (heq ▸ hle))
    · rcases List.mem_cons.mp hd' with rfl | hd'
      · exact ⟨item', hitem', hqualifier'⟩
      · have hlt := hbelow d' hd' item' hitem'
        exact absurd hfirst (Nat.not_le.mpr (heq ▸ hlt))
  · intro hseen
    have hreads : u.Reads d := ⟨_, hitem, hlabel⟩
    refine ⟨inner, haround, ?_⟩
    rw [haround] at hd
    rcases List.mem_append.mp hd with hd | hd
    · exact ⟨d, List.mem_append_left _ hd, hreads⟩
    · rcases List.mem_cons.mp hd with rfl | hd
      · exact ⟨_, List.mem_append_right _ List.mem_cons_self, (hown hreads).mpr (hseen hreads)⟩
      · exact ⟨d, List.mem_append_right _ (List.mem_cons_of_mem _ hd), hreads⟩

/-- Every column of a query that resolves is declared. -/
theorem Select.uses_declared {s : Select} {dialect : Dialect} {q : Query} {next : Alias}
    (hnames : RecordType.DistinctNames s.records)
    (h : Resolve.selectWith dialect (Resolve.overriddenColumn dialect) [] true s 0 = .ok q next) :
    ∀ u ∈ q.uses, u.Declared := by
  have hsound : Resolve.Sound True 0 (fun q => AllPlaced [] (columnsQuery [] q))
      (Resolve.selectWith dialect (Resolve.overriddenColumn dialect) [] true s) :=
    Resolve.selectWith_sound (Resolve.overriddenColumn_sound True dialect s.records [])
      (.base_only hnames fun h => by cases h) true s (List.Subset.refl _)
  have hdeclared := (hsound.ok (Nat.le_refl 0) h).2.declared
  rwa [← usesQuery_eq] at hdeclared

/-- However queries are nested, a column in the condition of a join is seen unless it belongs to a
table of the query that is neither joined up to here nor the last one before the joins, and the
qualifiers in print are those of columns.  The table of the selected record type is the last one
before the joins only where it is the only one. -/
theorem Select.join_conditions_see (s : Select) (hnames : RecordType.DistinctNames s.records)
    (dialect : Dialect) {compiled : CompiledStatement}
    (hcompile : s.compile dialect = .ok compiled) :
    ∃ q : Query, (Statement.select s).resolve dialect = .ok (.query q) ∧
      compiled = (Command.query q).compiled dialect ∧
      ∀ p around, .query p around ∈ q.parts →
        (∀ i j, p.joins[i]? = some j →
          (∀ a ∈ Lexeme.qualifiers (j.on.lexemes dialect),
            ∃ u ∈ j.on.uses (p.declaration :: around), u.qualifier = some a) ∧
          ∀ u ∈ j.on.uses (p.declaration :: around),
            (u.SeenAt p i around ↔ (u.Reads p.declaration →
              u.source.record ∈ (p.joins.take (i + 1)).map (·.item.record) ∨
                p.tables.getLast?.map (·.record) = some u.source.record))) ∧
        (p.tables.getLast?.map (·.record) = some p.record ↔
          p.tables.map (·.record) = [p.record]) := by
  obtain ⟨q, next, hselect, hresolve, hcompiled⟩ := resolve_of_compile hcompile
  have hdeclared := uses_declared hnames hselect
  have hlayered : Layered [] 0 q.parts := by
    have hkept := Resolve.selectWith_keeps
      (Parts.lawful_overridden (Layered.overriding dialect)) true s hselect []
    exact hkept.2 fun d hd => by cases hd
  refine ⟨q, hresolve, hcompiled, fun p around hp => ?_⟩
  have hplaced := hlayered.queries p around hp
  refine ⟨fun i j hj => ⟨fun a ha => ?_, fun u hu => ?_⟩, hplaced.last⟩
  · exact List.mem_filterMap.mp ((j.on.printed dialect (p.declaration :: around)).sublist.mem ha)
  refine hplaced.seenAt_iff hj hu (hdeclared u ?_)
  refine (column_mem_parts_iff (uses_of_partsQuery [] q)).mpr (hplaced.parts ?_)
  exact partsJoins_subset p around (parts_subset_partsJoins (List.mem_of_getElem? hj)
    ((column_mem_parts_iff (j.on.uses_of_parts _)).mp hu))

namespace Sample

/-- The condition of the join sees the orders and the items. -/
theorem taggedOrders_seen : RecordType.DistinctNames taggedOrders.records ∧
    ∃ (q : Query) (j : JoinedTable),
      (Statement.select taggedOrders).resolve .postgres = .ok (.query q) ∧ q.joins[0]? = some j ∧
      (j.on.uses [q.declaration]).map (·.source.record) = [orders, schema.type] ∧
      ∀ u ∈ j.on.uses [q.declaration], u.SeenAt q 0 [] := by
  have hnames : RecordType.DistinctNames taggedOrders.records := by decide
  obtain ⟨q, hq, -, hseen⟩ := taggedOrders.join_conditions_see hnames .postgres rfl
  cases hq
  obtain ⟨hseen, -⟩ := hseen _ [] List.mem_cons_self
  refine ⟨hnames, _, _, rfl, rfl, rfl, ?_⟩
  intro u hu
  refine ((hseen 0 _ rfl).2 u hu).mpr fun _ => ?_
  rcases List.mem_cons.mp hu with rfl | hu
  · exact .inr rfl
  · obtain rfl := List.mem_singleton.mp hu
    exact .inl (List.mem_singleton_self _)

/-- The number of orders with their items, where there are tags. -/
def ordersAndTags : Select where
  record := orders
  selection := .count
  joins := [⟨.inner, schema.type, .binary .eq (.col schema.type "id") (.col orders "item")⟩]
  filter := some (.isNull true (.col tags "label"))

/-- The tags come between the orders and the join, so that the condition does not see the orders. -/
theorem ordersAndTags_unseen :
    ordersAndTags.compile .postgres = .ok ⟨"SELECT COUNT(*) FROM \"orders\" t0, \"tags\" t2 " ++
      "INNER JOIN \"items\" t1 ON t1.\"item_id\" = t0.\"item_id\" " ++
      "WHERE t2.\"label\" IS NOT NULL", []⟩ ∧
    RecordType.DistinctNames ordersAndTags.records ∧
    ∃ (q : Query) (j : JoinedTable),
      (Statement.select ordersAndTags).resolve .postgres = .ok (.query q) ∧ q.joins[0]? = some j ∧
      (j.on.uses [q.declaration]).map (·.source.record) = [schema.type, orders] ∧
      ∃ u ∈ j.on.uses [q.declaration], ¬ u.SeenAt q 0 [] := by
  refine ⟨rfl, by decide, _, _, rfl, rfl, rfl, _, List.mem_cons_of_mem _ List.mem_cons_self, ?_⟩
  rintro ⟨inner, haround, d, hd, item, hitem, hqualifier⟩
  obtain rfl : inner = [] := List.append_cancel_right haround.symm
  obtain rfl := List.mem_singleton.mp hd
  rcases List.mem_cons.mp hitem with rfl | hitem
  · exact absurd hqualifier (by decide)
  · obtain rfl := List.mem_singleton.mp hitem
    exact absurd hqualifier (by decide)

end Sample

end RecordStore
