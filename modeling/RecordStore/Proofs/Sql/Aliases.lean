import RecordStore.Proofs.Sql.Assembly
import RecordStore.Proofs.Sql.Renaming

/-! # Where aliases are introduced

A query introduces the aliases of its tables in `FROM` and `JOIN`.  Aliases are numbered in the
order of resolving, so that what is resolved between two free aliases introduces aliases between
them (`Fresh`) and different parts of a statement have no alias in common.  Within one query there
is an alias for each record type, not for each join: an alias is introduced twice exactly where a
record type is joined twice (`Select.aliases_apart`).  Printing introduces the same aliases, as a
query that is resolved has a table before its joins (`Parts.joinable`). -/

namespace RecordStore

/-- No record type is joined twice. -/
def Query.JoinsApart (q : Query) : Prop :=
  q.joins.Pairwise fun j j' => j.item.record.sameAs j'.item.record = false

/-- A query that joins no record type twice. -/
def Part.JoinsApart : Part → Prop
  | query q _ => q.JoinsApart
  | column _ | override .. => True

/-! ### Aliases of one query -/

/-- Where record types of one name, and no others, have the same alias, the aliases of tables are as
different as their record types. -/
theorem TableItem.nodup_labels_iff {alias? : RecordType → Option Alias}
    (hsame : ∀ {r r' a}, alias? r = some a → (alias? r' = some a ↔ r.sameAs r' = true))
    {items : List TableItem} (hitems : ∀ item ∈ items, alias? item.record = some item.label) :
    (items.map (·.label)).Nodup ↔
      items.Pairwise fun item item' => item.record.sameAs item'.record = false := by
  unfold List.Nodup
  rw [List.pairwise_map]
  refine List.Pairwise.iff_of_mem ?_
  intro item item' hitem hitem'
  have halias : alias? item'.record = some item.label ↔ item.record.sameAs item'.record = true :=
    hsame (hitems item hitem)
  rw [hitems item' hitem'] at halias
  rw [← Bool.not_eq_true, ← halias]
  constructor
  · intro hne heq
    exact hne (Option.some.inj heq).symm
  · intro hne heq
    exact hne (congrArg some heq.symm)

namespace Select

variable {s : Select} {outer : Scopes} {first : Alias}

/-- Inside a query, the alias of a record type tells its name and is told by it. -/
theorem aliasOf_eq_iff {r r' : RecordType} {a : Alias}
    (h : (s.innerScope outer first).aliasOf? r = some a) :
    (s.innerScope outer first).aliasOf? r' = some a ↔ r.sameAs r' = true := by
  constructor
  · intro h'
    rw [aliasOf_eq] at h h'
    obtain ⟨i, hi, rfl⟩ := Option.map_eq_some_iff.mp h
    obtain ⟨i', hi', heq⟩ := Option.map_eq_some_iff.mp h'
    obtain rfl : i' = i := Nat.add_left_cancel heq
    obtain ⟨hlt, hname, -⟩ := List.findIdx?_eq_some_iff_getElem.mp hi
    obtain ⟨hlt', hname', -⟩ := List.findIdx?_eq_some_iff_getElem.mp hi'
    exact beq_iff_eq.mpr ((beq_iff_eq.mp hname).symm.trans (beq_iff_eq.mp hname'))
  · intro hsame
    have hname : r.name = r'.name := beq_iff_eq.mp hsame
    unfold Scope.aliasOf? RecordType.sameAs at h ⊢
    rwa [← hname]

/-- A joined table is the one of its record type, with the alias that the query gives it. -/
theorem joinItem_eq_some {j : Join} {item : TableItem} (hj : j ∈ s.joins)
    (h : Scope.joinItem? (s.innerScopes outer first) j = some item) :
    item.record = j.record ∧ j.record.table = some item.table ∧
      (s.innerScope outer first).aliasOf? item.record = some item.label := by
  obtain ⟨table, htable, hitem⟩ := Option.bind_eq_some_iff.mp h
  obtain ⟨owner, howner, rfl⟩ := Option.map_eq_some_iff.mp hitem
  obtain ⟨a, halias, howned⟩ := s.owner_own outer first
    (List.mem_cons_of_mem s.record (List.mem_map_of_mem hj))
  obtain rfl := Option.some.inj (howned.symm.trans howner)
  exact ⟨rfl, htable, halias⟩

/-- Each table of a query has the alias that the query gives to its record type. -/
theorem aliasOf_item {item : TableItem} (h : item ∈ (s.declaration outer first).items) :
    (s.innerScope outer first).aliasOf? item.record = some item.label := by
  rcases List.mem_append.mp h with h | h
  · exact s.aliasOf_of_entry (s.mem_tableItems.mp h).1
  · obtain ⟨j, hj, hitem⟩ := List.mem_filterMap.mp h
    exact (joinItem_eq_some hj hitem).2.2

theorem label_bounds_item {item : TableItem} (h : item ∈ (s.declaration outer first).items) :
    first ≤ item.label ∧ item.label < first + (s.scopeRecords outer).length := by
  obtain ⟨r, hentry, -⟩ := Scope.entry_of_aliasOf (aliasOf_item h)
  exact label_bounds hentry

/-- The tables that no join brings in are of different record types. -/
theorem tableItems_apart : (s.tableItems (s.entries outer first)).Pairwise
    fun item item' => item.record.sameAs item'.record = false := by
  have hentries : (s.entries outer first).Pairwise
      fun entry entry' => entry.1.sameAs entry'.1 = false := by
    have hrecords := s.scopeRecords_apart outer
    rwa [← s.entries_records outer first, List.pairwise_map] at hrecords
  have hrecord {entry : RecordType × Alias} {item : TableItem}
      (h : item ∈ s.tableItems [entry]) : item.record = entry.1 := by
    have hentry := (s.mem_tableItems.mp h).1
    exact congrArg Prod.fst (List.mem_singleton.mp hentry)
  unfold tableItems
  refine hentries.filterMap _ ?_
  intro entry entry' hapart item hitem item' hitem'
  have hitem : item ∈ s.tableItems [entry] := List.mem_filterMap.mpr ⟨_, by simp, hitem⟩
  have hitem' : item' ∈ s.tableItems [entry'] := List.mem_filterMap.mpr ⟨_, by simp, hitem'⟩
  rw [hrecord hitem, hrecord hitem']
  exact hapart

/-- The tables of a query are of different record types if its joins are. -/
theorem items_apart_iff : ((s.declaration outer first).items.Pairwise
      fun item item' => item.record.sameAs item'.record = false) ↔
    (s.joins.filterMap (Scope.joinItem? (s.innerScopes outer first))).Pairwise
      fun item item' => item.record.sameAs item'.record = false := by
  have hcross : ∀ item ∈ s.tableItems (s.entries outer first),
      ∀ item' ∈ s.joins.filterMap (Scope.joinItem? (s.innerScopes outer first)),
      item.record.sameAs item'.record = false := by
    intro item hitem item' hitem'
    obtain ⟨-, -, hunjoined⟩ := s.mem_tableItems.mp hitem
    obtain ⟨j, hj, hitem'⟩ := List.mem_filterMap.mp hitem'
    rw [(joinItem_eq_some hj hitem').1]
    refine Bool.eq_false_iff.mpr fun hsame => ?_
    refine List.any_eq_false.mp hunjoined j hj (beq_iff_eq.mpr ?_)
    exact (beq_iff_eq.mp hsame).symm
  unfold declaration
  rw [List.pairwise_append]
  exact ⟨fun h => h.2.1, fun h => ⟨tableItems_apart, h, hcross⟩⟩

end Select

/-- In a query as it is resolved, an alias is declared twice exactly where a record type is joined
twice. -/
theorem Query.nodup_aliases_iff {s : Select} {outer : Scopes} {first : Alias} {q : Query}
    (hdeclared : q.declaration = s.declaration outer first)
    (hjoined : q.joins.map (·.item) =
      s.joins.filterMap (Scope.joinItem? (s.innerScopes outer first))) :
    q.aliases.Nodup ↔ q.JoinsApart := by
  unfold aliases JoinsApart
  rw [hdeclared, TableItem.nodup_labels_iff s.aliasOf_eq_iff fun _ => s.aliasOf_item,
    s.items_apart_iff, ← hjoined, List.pairwise_map]

/-! ### Aliases of a statement -/

/-- The parts introduce aliases from `first` on and before `last`, and none of them twice unless a
query among the parts joins a record type twice. -/
structure Fresh (first : Alias) (ps : List Part) (last : Alias) : Prop where
  le : first ≤ last
  bounds : ∀ a ∈ ps.flatMap Part.aliases, first ≤ a ∧ a < last
  nodup_iff : (ps.flatMap Part.aliases).Nodup ↔ ∀ p ∈ ps, p.JoinsApart

namespace Fresh

variable {first next last : Alias} {ps ps' : List Part}

theorem nil : Fresh next [] next where
  le := Nat.le_refl next
  bounds a ha := by cases ha
  nodup_iff := by simp

/-- Parts resolved one after the other have no alias in common. -/
theorem append (h : Fresh first ps next) (h' : Fresh next ps' last) :
    Fresh first (ps ++ ps') last where
  le := Nat.le_trans h.le h'.le
  bounds := by
    intro a ha
    rw [List.flatMap_append] at ha
    rcases List.mem_append.mp ha with ha | ha
    · exact ⟨(h.bounds a ha).1, Nat.lt_of_lt_of_le (h.bounds a ha).2 h'.le⟩
    · exact ⟨Nat.le_trans h.le (h'.bounds a ha).1, (h'.bounds a ha).2⟩
  nodup_iff := by
    have hdisjoint : (ps.flatMap Part.aliases).Disjoint (ps'.flatMap Part.aliases) := by
      intro a ha ha'
      have hlt := (h.bounds a ha).2
      have hle := (h'.bounds a ha').1
      exact Nat.not_lt.mpr hle hlt
    rw [List.flatMap_append, List.nodup_append', h.nodup_iff, h'.nodup_iff,
      List.forall_mem_append]
    exact ⟨fun ⟨hps, hps', _⟩ => ⟨hps, hps'⟩, fun ⟨hps, hps'⟩ => ⟨hps, hps', hdisjoint⟩⟩

/-- A query introduces the aliases that it gives to its record types. -/
theorem query {s : Select} {outer : Scopes} {q : Query} (around : List Declaration)
    (hdeclared : q.declaration = s.declaration outer first)
    (hjoined : q.joins.map (·.item) =
      s.joins.filterMap (Scope.joinItem? (s.innerScopes outer first))) :
    Fresh first [.query q around] (first + (s.scopeRecords outer).length) where
  le := Nat.le_add_right first _
  bounds := by
    intro a ha
    rw [List.flatMap_singleton] at ha
    obtain ⟨item, hitem, rfl⟩ := List.mem_map.mp ha
    rw [hdeclared] at hitem
    exact s.label_bounds_item hitem
  nodup_iff := by
    rw [List.flatMap_singleton, List.forall_mem_singleton]
    exact q.nodup_aliases_iff hdeclared hjoined

/-- A column introduces no alias. -/
theorem column (u : ColumnUse) : Fresh next [.column u] next where
  le := Nat.le_refl next
  bounds a ha := by cases ha
  nodup_iff := by simp [Part.aliases, Part.JoinsApart]

/-- An overriding expression introduces no alias itself. -/
theorem override (c : ColumnRef) (a : Alias) (body : Term) (h : Fresh first ps last) :
    Fresh first (.override c a body :: ps) last where
  le := h.le
  bounds := h.bounds
  nodup_iff := by
    refine h.nodup_iff.trans ?_
    rw [List.forall_mem_cons]
    exact (and_iff_right trivial).symm

/-- Resolving introduces aliases from the first to the last free one. -/
theorem overriding (dialect : Dialect) :
    Parts.Overriding dialect fun _ _ first ps last => Fresh first ps last where
  nil := nil
  append := append
  column _ := column _
  query hdeclared hjoined h := append (query _ hdeclared hjoined) h
  override _ h := h.override _ _ _

end Fresh

/-- A query that is resolved has a table before its joins. -/
theorem Query.joinable_of_declaration {s : Select} {outer : Scopes} {first : Alias} {q : Query}
    (hdeclared : q.declaration = s.declaration outer first)
    (hjoined : q.joins.map (·.item) =
      s.joins.filterMap (Scope.joinItem? (s.innerScopes outer first))) (hnone : q.tables = []) :
    q.joins = [] := by
  have hitems : q.declaration.items = [] := by
    unfold declaration
    rw [hnone]
    rfl
  rw [hdeclared] at hitems
  have hjoins := (List.append_eq_nil_iff.mp hitems).2
  rw [← hjoined] at hjoins
  exact List.map_eq_nil_iff.mp hjoins

/-- Queries that are resolved have a table before their joins, however they are nested. -/
theorem Parts.joinable (dialect : Dialect) :
    Overriding dialect fun _ _ _ ps _ => ∀ p ∈ ps, p.Joinable where
  nil _ h := by cases h
  append h h' := List.forall_mem_append.mpr ⟨h, h'⟩
  column _ := List.forall_mem_singleton.mpr trivial
  query hdeclared hjoined h :=
    List.forall_mem_cons.mpr ⟨Query.joinable_of_declaration hdeclared hjoined, h⟩
  override _ h := List.forall_mem_cons.mpr ⟨trivial, h⟩

/-- Every table that a whole query introduces in print, at any depth and whichever record types are
mentioned, has an alias of its own, unless one of the queries joins a record type twice. -/
theorem Select.aliases_apart (s : Select) (dialect : Dialect) {compiled : CompiledStatement}
    (hcompile : s.compile dialect = .ok compiled) :
    ∃ q : Query, (Statement.select s).resolve dialect = .ok (.query q) ∧
      compiled = (Command.query q).compiled dialect ∧
      (Lexeme.introduced (q.lexemes dialect)).Perm (q.parts.flatMap Part.aliases) ∧
      ((Lexeme.introduced (q.lexemes dialect)).Nodup ↔ ∀ p ∈ q.parts, p.JoinsApart) := by
  obtain ⟨q, next, hselect, hresolve, hcompiled⟩ := resolve_of_compile hcompile
  have hfresh : Fresh 0 q.parts next :=
    Resolve.selectWith_keeps (Parts.lawful_overridden (Fresh.overriding dialect)) true s hselect []
  have hjoinable : ∀ p ∈ q.parts, p.Joinable :=
    Resolve.selectWith_keeps (Parts.lawful_overridden (Parts.joinable dialect)) true s hselect []
  have hprinted : (Lexeme.introduced (q.lexemes dialect)).Perm (q.parts.flatMap Part.aliases) :=
    (queryTerms_printed dialect [] q).perm hjoinable
  exact ⟨q, hresolve, hcompiled, hprinted, hprinted.nodup_iff.trans hfresh.nodup_iff⟩

namespace Sample

/-- The tags are called `t2`, after the orders and the items that they are joined with. -/
theorem taggedOrders_apart : ∃ q : Query,
    (Statement.select taggedOrders).resolve .sqlite = .ok (.query q) ∧
    Lexeme.introduced (q.lexemes .sqlite) = [0, 1, 2] ∧
    [0, 1, 2].Perm (q.parts.flatMap Part.aliases) ∧ ∀ p ∈ q.parts, p.JoinsApart := by
  obtain ⟨q, hq, -, hprinted, hapart⟩ := taggedOrders.aliases_apart .sqlite rfl
  have hintroduced : Lexeme.introduced (q.lexemes .sqlite) = [0, 1, 2] := by
    cases hq
    rfl
  rw [hintroduced] at hprinted hapart
  exact ⟨q, hq, hintroduced, hprinted, hapart.mp (by decide)⟩

/-- The number of orders, with items joined in two ways. -/
def itemsTwice : Select where
  record := orders
  selection := .count
  joins :=
    [⟨.inner, schema.type, .binary .eq (.col schema.type "id") (.col orders "item")⟩,
      ⟨.left, schema.type, .binary .eq (.col schema.type "id") (.col orders "id")⟩]

/-- Both joined tables are called `t1`. -/
theorem itemsTwice_aliases :
    itemsTwice.compile .sqlite = .ok ⟨"SELECT COUNT(*) FROM \"orders\" t0 " ++
      "INNER JOIN \"items\" t1 ON t1.\"item_id\" = t0.\"item_id\" " ++
      "LEFT OUTER JOIN \"items\" t1 ON t1.\"item_id\" = t0.\"order_id\"", []⟩ ∧
    RecordType.DistinctNames itemsTwice.records ∧
    ∃ q : Query, (Statement.select itemsTwice).resolve .sqlite = .ok (.query q) ∧
      Lexeme.introduced (q.lexemes .sqlite) = [0, 1, 1] ∧
      ¬ (Lexeme.introduced (q.lexemes .sqlite)).Nodup :=
  ⟨rfl, by decide, _, rfl, rfl, by decide⟩

end Sample

end RecordStore
