import Mathlib.Data.List.Nodup
import RecordStore.Proofs.Sql.Columns
import RecordStore.Proofs.Sql.Listing
import RecordStore.Proofs.Sql.Sound

/-! # The queries around a place

`Surrounds strict known base first scopes around` relates the scopes around a place, which resolving
works with, to the declarations of the queries they belong to: each scope is accounted for by a
declaration or is one of the `base` scopes around all queries, and no alias is declared for two
record types.  It holds inside a query where it holds around it (`Surrounds.push`), and where it
holds a field is resolved to a column that is declared or belongs to the base
(`Resolve.plainColumn_sound`). -/

namespace RecordStore

/-! ### What a query declares -/

/-- Record types of the list that have the same name are the same. -/
def RecordType.DistinctNames (known : List RecordType) : Prop :=
  ∀ r ∈ known, ∀ r' ∈ known, r.sameAs r' = true → r = r'

instance (known : List RecordType) : Decidable (RecordType.DistinctNames known) :=
  inferInstanceAs (Decidable (∀ r ∈ known, ∀ r' ∈ known, r.sameAs r' = true → r = r'))

/-- The table of a join in these scopes. -/
def Scope.joinItem? (scopes : Scopes) (j : Join) : Option TableItem :=
  j.record.table.bind fun table =>
    (owner? scopes j.record).map fun owner => ⟨j.record, table, owner.2⟩

namespace Select

variable (s : Select) (outer : Scopes) (next : Alias)

/-- What a query declares inside these scopes, where `next` is the first free alias. -/
def declaration : Declaration where
  assigned := s.entries outer next
  items := s.tableItems (s.entries outer next) ++
    s.joins.filterMap (Scope.joinItem? (s.innerScopes outer next))

variable {s outer next}

theorem label_bounds {r : RecordType} {a : Alias} (h : (r, a) ∈ s.entries outer next) :
    next ≤ a ∧ a < next + (s.scopeRecords outer).length :=
  List.mem_range'_1.mp (List.of_mem_zip h).2

/-- No alias is given to two record types. -/
theorem entries_unique {r r' : RecordType} {a : Alias} (h : (r, a) ∈ s.entries outer next)
    (h' : (r', a) ∈ s.entries outer next) : r = r' := by
  have hlabels : ((s.entries outer next).map (·.2)).Nodup := by
    rw [entries_labels]
    exact List.nodup_range'
  exact congrArg Prod.fst (List.inj_on_of_nodup_map hlabels h h' rfl)

variable (outer next) in
/-- A query owns the record types that it selects and joins. -/
theorem owner_own {r : RecordType} (h : r ∈ s.record :: s.joins.map (·.record)) :
    ∃ a, (s.innerScope outer next).aliasOf? r = some a ∧
      Scope.owner? (s.innerScopes outer next) r = some (s.innerScope outer next, a) :=
  s.owner_listed outer next (s.scopeRecords_own outer h)

variable {known : List RecordType} (hnames : RecordType.DistinctNames known)
  (hrecords : s.records ⊆ known)
include hnames hrecords

/-- What is listed under the name of a record type is the very record type. -/
theorem mem_scopeRecords_of_any {r : RecordType} (hr : r ∈ known)
    (h : (s.scopeRecords outer).any (·.sameAs r) = true) : r ∈ s.scopeRecords outer := by
  obtain ⟨r', hr', hsame⟩ := List.any_eq_true.mp h
  rwa [hnames r' (hrecords (s.scopeRecords_subset outer hr')) r hr hsame] at hr'

/-- An alias inside a query is the alias of the very record type. -/
theorem entry_of_aliasOf {r : RecordType} {a : Alias} (hr : r ∈ known)
    (h : (s.innerScope outer next).aliasOf? r = some a) : (r, a) ∈ s.entries outer next := by
  obtain ⟨r', hentry, hsame⟩ := Scope.entry_of_aliasOf h
  have hr' : r' ∈ known := hrecords (s.scopeRecords_subset outer (List.of_mem_zip hentry).1)
  rwa [hnames r' hr' r hr hsame] at hentry

theorem entry_of_item {item : TableItem} (h : item ∈ (s.declaration outer next).items) :
    (item.record, item.label) ∈ s.entries outer next := by
  rcases List.mem_append.mp h with h | h
  · exact (s.mem_tableItems.mp h).1
  · obtain ⟨j, hj, hitem⟩ := List.mem_filterMap.mp h
    have hown : j.record ∈ s.record :: s.joins.map (·.record) :=
      List.mem_cons_of_mem _ (List.mem_map_of_mem hj)
    obtain ⟨a, halias, howner⟩ := owner_own outer next hown
    obtain ⟨table, -, hitem⟩ := Option.bind_eq_some_iff.mp hitem
    rw [howner] at hitem
    cases hitem
    exact entry_of_aliasOf hnames hrecords (hrecords (s.own_subset hown)) halias

theorem item_of_aliasOf {r : RecordType} {a : Alias} {table : String} (hr : r ∈ known)
    (h : (s.innerScope outer next).aliasOf? r = some a) (htable : r.table = some table) :
    ⟨r, table, a⟩ ∈ (s.declaration outer next).items := by
  cases hjoined : s.joins.any (·.record.sameAs r) with
  | false =>
      have hentry := entry_of_aliasOf hnames hrecords hr h
      exact List.mem_append_left _ (s.mem_tableItems.mpr ⟨hentry, htable, hjoined⟩)
  | true =>
      obtain ⟨j, hj, hsame⟩ := List.any_eq_true.mp hjoined
      have hown : j.record ∈ s.record :: s.joins.map (·.record) :=
        List.mem_cons_of_mem _ (List.mem_map_of_mem hj)
      obtain rfl := hnames _ (hrecords (s.own_subset hown)) _ hr hsame
      obtain ⟨a', halias, howner⟩ := owner_own outer next hown
      obtain rfl := Option.some.inj (halias.symm.trans h)
      refine List.mem_append_right _ (List.mem_filterMap.mpr ⟨j, hj, ?_⟩)
      unfold Scope.joinItem?
      rw [htable, howner]
      rfl

end Select

/-! ### Columns and base scopes -/

/-- The record type is called by the alias in these scopes, and no table around is taken for it. -/
structure Scope.Owns (base : Scopes) (around : List Declaration) (r : RecordType) (scope : Scope)
    (a : Alias) : Prop where
  owner : owner? base r = some (scope, a)
  entry : (r, a) ∈ scope.entries
  /-- No query around reads the record type, and none uses the alias. -/
  foreign : ∀ d ∈ around, ∀ item ∈ d.items, item.record ≠ r ∧ item.label ≠ a

namespace PlacedColumn

/-- The column has the name that its field has in the table. -/
def Named (u : PlacedColumn) : Prop :=
  ∃ field, u.source.record.field u.source.field = .ok field ∧ field.isComputed = false ∧
    field.column = u.name

/-- The column has its name, and its qualifier is declared or is the one of a base scope. -/
structure Placed (base : Scopes) (u : PlacedColumn) : Prop where
  named : u.Named
  declared : u.use.Declared ∨ ∃ scope a, Scope.Owns base u.around u.source.record scope a ∧
    u.qualifier = if scope.qualified then some a else none

end PlacedColumn

/-- All of these columns are placed. -/
def AllPlaced (base : Scopes) (us : List PlacedColumn) : Prop := ∀ u ∈ us, u.Placed base

namespace AllPlaced

variable {base : Scopes}

theorem nil : AllPlaced base [] := fun _ h => by cases h

theorem append {us us' : List PlacedColumn} (h : AllPlaced base us) (h' : AllPlaced base us') :
    AllPlaced base (us ++ us') :=
  List.forall_mem_append.mpr ⟨h, h'⟩

theorem output {around : List Declaration} {columns : List (FieldExprOf Term)}
    (h : ∀ column ∈ columns, AllPlaced base (column.expr.columns around)) :
    AllPlaced base (columnsOutput around columns) := by
  induction columns with
  | nil => exact .nil
  | cons column columns ih =>
      exact .append (h column List.mem_cons_self)
        (ih fun c hc => h c (List.mem_cons_of_mem column hc))

theorem chunks {around : List Declaration} {chunks : List (Term × List Value)}
    (h : ∀ chunk ∈ chunks, AllPlaced base (chunk.1.columns around)) :
    AllPlaced base (columnsChunks around chunks) := by
  induction chunks with
  | nil => exact .nil
  | cons chunk chunks ih =>
      exact .append (h chunk List.mem_cons_self)
        (ih fun c hc => h c (List.mem_cons_of_mem chunk hc))

/-- Where there is no base, columns are declared. -/
theorem declared {us : List PlacedColumn} (h : AllPlaced [] us) :
    ∀ u ∈ us.map PlacedColumn.use, u.Declared := by
  intro use huse
  obtain ⟨u, hu, rfl⟩ := List.mem_map.mp huse
  obtain hdeclared | ⟨scope, a, howns, -⟩ := (h u hu).declared
  · exact hdeclared
  · cases howns.owner

end AllPlaced

/-! ### The invariant -/

/-- These record types are listed, if strict, and the others are known. -/
structure Covered (strict : Prop) (known : List RecordType) (scopes : Scopes)
    (mentions records : List RecordType) : Prop where
  listed : strict → ∀ r ∈ mentions, Scope.lists scopes r = true
  known : records ⊆ known

theorem Covered.append {strict : Prop} {known : List RecordType} {scopes : Scopes}
    {ms ms' rs rs' : List RecordType} (h : Covered strict known scopes (ms ++ ms') (rs ++ rs')) :
    Covered strict known scopes ms rs ∧ Covered strict known scopes ms' rs' := by
  obtain ⟨hknown, hknown'⟩ := List.append_subset.mp h.known
  exact ⟨⟨fun hs => (List.forall_mem_append.mp (h.listed hs)).1, hknown⟩,
    ⟨fun hs => (List.forall_mem_append.mp (h.listed hs)).2, hknown'⟩⟩

/-- The expression for a field is covered with the expressions for all fields. -/
theorem Covered.field {strict : Prop} {known : List RecordType} {scopes : Scopes} {f : FieldExpr}
    {fields : List FieldExpr} (h : Covered strict known scopes
      (Expr.mentionsAll (fields.map (·.expr))) (Expr.recordsFields fields)) (hf : f ∈ fields) :
    Covered strict known scopes f.expr.mentions f.expr.records := by
  obtain ⟨hmentions, hrecords⟩ := Expr.field_subset hf
  exact ⟨fun hs m hm => h.listed hs m (hmentions hm), fun m hm => h.known (hrecords hm)⟩

/-- The clauses of a query are covered inside it. -/
structure Select.CoveredIn (s : Select) (strict : Prop) (known : List RecordType)
    (scopes : Scopes) : Prop where
  overrides : Covered strict known scopes (Expr.mentionsAll (s.overrides.map (·.expr)))
    (Expr.recordsFields s.overrides)
  definitions : Covered strict known scopes (Expr.mentionsAll (s.definitions.map (·.expr)))
    (Expr.recordsFields s.definitions)
  filter : Covered strict known scopes (Expr.mentionsOptional s.filter)
    (Expr.recordsOptional s.filter)
  grouping : Covered strict known scopes (Expr.mentionsAll (s.grouping.getD []))
    (Expr.recordsGrouping s.grouping)
  ordering : Covered strict known scopes (Expr.mentionsAll ((s.ordering.getD []).map (·.expr)))
    (Expr.recordsOrdering s.ordering)
  joins : Covered strict known scopes (Expr.mentionsAll (s.joins.map (·.on)))
    (Expr.recordsJoins s.joins)

theorem Select.coveredIn {s : Select} {known : List RecordType} (strict : Prop)
    (hrecords : s.records ⊆ known) (outer : Scopes) (next : Alias) :
    s.CoveredIn strict known (s.innerScopes outer next) := by
  rw [s.records_eq] at hrecords
  have h : Covered strict known (s.innerScopes outer next) s.mentions _ :=
    ⟨fun _ m hm => s.lists_mentioned outer next hm, (List.cons_subset.mp hrecords).2⟩
  obtain ⟨h, joins⟩ := h.append
  obtain ⟨h, ordering⟩ := h.append
  obtain ⟨h, grouping⟩ := h.append
  obtain ⟨h, filter⟩ := h.append
  obtain ⟨overrides, definitions⟩ := h.append
  exact { overrides, definitions, filter, grouping, ordering, joins }

/-- The declarations around a place and the base scopes account for its scopes, with aliases below
`first`. -/
structure Surrounds (strict : Prop) (known : List RecordType) (base : Scopes) (first : Alias)
    (scopes : Scopes) (around : List Declaration) : Prop where
  names : RecordType.DistinctNames known
  /-- A scope qualifies the columns of what it owns by an alias that a query declares, or it is a
  base scope. -/
  owner : ∀ {r scope a}, r ∈ known → Scope.owner? scopes r = some (scope, a) →
    (scope.qualified = true ∧ ∃ d ∈ around, (r, a) ∈ d.assigned ∧
      ∀ table, r.table = some table → ⟨r, table, a⟩ ∈ d.items) ∨ Scope.Owns base around r scope a
  base_below : ∀ {r scope a}, Scope.owner? base r = some (scope, a) → a < first
  /-- What overriding expressions mention is listed. -/
  overrides : ∀ {r scope a}, Scope.owner? scopes r = some (scope, a) →
    ∀ o ∈ scope.overrides, Covered strict known scopes o.expr.mentions o.expr.records
  below : ∀ d ∈ around, ∀ item ∈ d.items, item.label < first
  apart : ∀ d ∈ around, ∀ d' ∈ around, ∀ item ∈ d.items, ∀ item' ∈ d'.items,
    item.label = item'.label → item.record = item'.record

namespace Surrounds

variable {strict : Prop} {known : List RecordType} {base : Scopes} {first next : Alias}
  {scopes outer : Scopes} {around : List Declaration} {s : Select}

/-- Around a whole statement there are the base scopes only, without overrides. -/
theorem base_only (names : RecordType.DistinctNames known)
    (hbase : ∀ {r scope a}, Scope.owner? base r = some (scope, a) →
      a < first ∧ scope.overrides = [] ∧ (r ∈ known → (r, a) ∈ scope.entries)) :
    Surrounds strict known base first base [] where
  names
  owner hr h := .inr ⟨h, (hbase h).2.2 hr, fun _ hd => by cases hd⟩
  base_below h := (hbase h).1
  overrides h o ho := by
    rw [(hbase h).2.1] at ho
    cases ho
  below _ h := by cases h
  apart _ h := by cases h

/-- Inside a query there is its own declaration too. -/
theorem push (h : Surrounds strict known base first outer around) (hrecords : s.records ⊆ known)
    (hnext : first ≤ next) :
    Surrounds strict known base (next + (s.scopeRecords outer).length) (s.innerScopes outer next)
      (s.declaration outer next :: around) where
  names := h.names
  owner {r scope a} hr howner := by
    unfold Select.innerScopes Scope.owner? at howner
    split at howner
    · next a' halias =>
        cases howner
        exact .inl ⟨rfl, _, List.mem_cons_self, Select.entry_of_aliasOf h.names hrecords hr halias,
          fun table htable => Select.item_of_aliasOf h.names hrecords hr halias htable⟩
    · next halias =>
        rcases h.owner hr howner with ⟨hqualified, d, hd, hdeclared⟩ | howns
        · exact .inl ⟨hqualified, d, List.mem_cons_of_mem _ hd, hdeclared⟩
        · refine .inr ⟨howns.owner, howns.entry, List.forall_mem_cons.mpr ⟨?_, howns.foreign⟩⟩
          intro item hitem
          have hentry := Select.entry_of_item h.names hrecords hitem
          have hbase : a < item.label := calc
            a < first := h.base_below howns.owner
            _ ≤ next := hnext
            _ ≤ item.label := (Select.label_bounds hentry).1
          constructor
          · rintro rfl
            exact Scope.aliasOf_ne_none_of_entry hentry halias
          · exact Nat.ne_of_gt hbase
  base_below {r scope a} howner := calc
    a < first := h.base_below howner
    _ ≤ next := hnext
    _ ≤ next + (s.scopeRecords outer).length := Nat.le_add_right _ _
  overrides {r scope a} howner o ho := by
    unfold Select.innerScopes Scope.owner? at howner
    split at howner
    · cases howner
      exact (Select.coveredIn strict hrecords outer next).overrides.field ho
    · obtain ⟨hlisted, hknown⟩ := h.overrides howner o ho
      refine ⟨fun hs m hm => ?_, hknown⟩
      rw [Select.lists_innerScopes, hlisted hs m hm, Bool.or_true]
  below := by
    refine List.forall_mem_cons.mpr ⟨?_, ?_⟩
    · intro item hitem
      exact (Select.label_bounds (Select.entry_of_item h.names hrecords hitem)).2
    · intro d hd item hitem
      calc item.label < first := h.below d hd item hitem
        _ ≤ next := hnext
        _ ≤ next + (s.scopeRecords outer).length := Nat.le_add_right _ _
  apart := by
    -- The aliases of the query begin at `next`, and the others end before.
    have hold : ∀ d ∈ around, ∀ item ∈ d.items, item.label < next := by
      intro d hd item hitem
      exact Nat.lt_of_lt_of_le (h.below d hd item hitem) hnext
    have hnew : ∀ item ∈ (s.declaration outer next).items, next ≤ item.label := by
      intro item hitem
      exact (Select.label_bounds (Select.entry_of_item h.names hrecords hitem)).1
    intro d hd d' hd' item hitem item' hitem' heq
    rcases List.mem_cons.mp hd with rfl | hd <;> rcases List.mem_cons.mp hd' with rfl | hd'
    · have hentry := Select.entry_of_item h.names hrecords hitem
      rw [heq] at hentry
      exact Select.entries_unique hentry (Select.entry_of_item h.names hrecords hitem')
    · have hlt := hold d' hd' item' hitem'
      rw [← heq] at hlt
      exact absurd hlt (Nat.not_lt.mpr (hnew item hitem))
    · have hlt := hold d hd item hitem
      rw [heq] at hlt
      exact absurd hlt (Nat.not_lt.mpr (hnew item' hitem'))
    · exact h.apart d hd d' hd' item hitem item' hitem' heq

end Surrounds

/-! ### Fields -/

namespace Resolve

variable {base : Scopes}

/-- A rule for fields turns every listed field into placed columns. -/
def SoundRule (strict : Prop) (known : List RecordType) (base : Scopes) (rule : ColumnRule) :
    Prop :=
  ∀ {first : Alias} {scopes : Scopes} {around : List Declaration} {c : ColumnRef},
    Surrounds strict known base first scopes around →
    (strict → Scope.lists scopes c.record = true) → c.record ∈ known →
    Sound strict first (fun t => AllPlaced base (t.columns around)) (rule scopes c)

theorem plainColumn_sound (strict : Prop) (known : List RecordType) (base : Scopes) :
    SoundRule strict known base plainColumn := by
  intro first scopes around c h hlisted hknown
  unfold plainColumn
  refine .bind (.ofExcept fun _ => RecordType.field_ne_unknownRecord _ _) fun field hfield => ?_
  have hcolumn {scope : Scope} {a : Alias} (hkind : field.isComputed = false)
      (hstored : c.record.isComputed = false)
      (howner : Scope.owner? scopes c.record = some (scope, a)) :
      AllPlaced base (Term.columns around
        (.column c (if scope.qualified then some a else none) field.column)) := by
    intro u hu
    obtain rfl := List.mem_singleton.mp hu
    refine ⟨⟨field, hfield, hkind, rfl⟩, ?_⟩
    rcases h.owner hknown howner with ⟨hqualified, d, hd, hassigned, hitem⟩ | howns
    · obtain ⟨table, htable⟩ : ∃ table, c.record.table = some table :=
        Option.isSome_iff_exists.mp (Option.isNone_eq_false_iff.mp hstored)
      rw [hqualified]
      exact .inl ⟨a, table, rfl, htable, ⟨d, hd, hassigned, hitem table htable⟩,
        fun d' hd' item hitem' => h.apart d' hd' d hd item hitem' _ (hitem table htable)⟩
    · exact .inr ⟨scope, a, howns, rfl⟩
  obtain ⟨name, column, kind⟩ := field
  cases kind with
  | computed definition required =>
      cases definition with
      | some sql => exact .pure .nil
      | none =>
          dsimp only
          split
          · exact .pure .nil
          · exact .fault _
  | stored | generated =>
      dsimp only
      split
      · exact .fault_bind _
      · next hstored =>
        cases howner : Scope.owner? scopes c.record with
        | none =>
            refine .throw fun hstrict => ?_
            obtain ⟨scope, a, hsome⟩ := Scope.exists_owner (hlisted hstrict)
            rw [howner] at hsome
            cases hsome
        | some owner => exact .pure (hcolumn rfl (eq_false_of_ne_true hstored) howner)

end Resolve

end RecordStore
