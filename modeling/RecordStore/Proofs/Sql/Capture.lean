import RecordStore.Proofs.Sql.FromClause

/-! # Columns of updates and deletions

SQL reads a qualified column by its alias, and an unqualified one as a column of the innermost query
around it that reads a table with such a column, else of the table that the statement changes
(`PlacedColumn.meant`).  A dialect that gives the changed table no alias leaves its columns
unqualified in nested queries too, where a table of a query may have a column of the same name and
captures it.  All other columns mean the fields they are read for (`Statement.columns_meant`). -/

namespace RecordStore

/-! ### What a column means -/

/-- Some field is kept in a column of this name. -/
def RecordType.hasColumn (r : RecordType) (name : String) : Bool :=
  r.storedFields.any (·.column == name)

/-- The table that a statement changes. -/
structure ChangedTable where
  item : TableItem
  /-- The table is called by its alias. -/
  aliased : Bool
deriving DecidableEq

namespace PlacedColumn

variable (u : PlacedColumn)

/-- The column may be one of this table. -/
def fits (item : TableItem) : Bool :=
  match u.qualifier with
  | some a => item.label == a
  | none => item.record.hasColumn u.name

/-- The column may be one of the changed table. -/
def fitsChanged (target : ChangedTable) : Bool :=
  match u.qualifier with
  | some a => target.aliased && target.item.label == a
  | none => true

/-- The record types that the column may belong to inside these queries; more than one is
ambiguous. -/
def meantIn (target : ChangedTable) : List Declaration → List RecordType
  | [] => if u.fitsChanged target then [target.item.record] else []
  | d :: outer =>
    match d.items.filter u.fits with
    | [] => meantIn target outer
    | item :: items => (item :: items).map (·.record)

/-- The record types that the column may belong to. -/
def meant (target : ChangedTable) : List RecordType := u.meantIn target u.around

/-- The column is read as the one of its field. -/
structure Means (target : ChangedTable) : Prop where
  named : u.Named
  found : u.meant target ≠ []
  unique : ∀ r ∈ u.meant target, r = u.source.record

/-- The column is unqualified, and a query around it reads a table with a column of its name. -/
def Captured : Prop :=
  u.qualifier = none ∧ ∃ d ∈ u.around, ∃ item ∈ d.items, item.record.hasColumn u.name = true

variable {u} {target : ChangedTable}

/-- Where no table of a query fits, the column is one of the changed table. -/
theorem meantIn_of_not_fits {around : List Declaration}
    (h : ∀ d ∈ around, ∀ item ∈ d.items, u.fits item = false) :
    u.meantIn target around = if u.fitsChanged target then [target.item.record] else [] := by
  induction around with
  | nil => rfl
  | cons d outer ih =>
      obtain ⟨hd, houter⟩ := List.forall_mem_cons.mp h
      have hnone : d.items.filter u.fits = [] := by
        rw [List.filter_eq_nil_iff]
        intro item hitem
        simp [hd item hitem]
      unfold meantIn
      rw [hnone]
      exact ih houter

variable (target) in
/-- Where a table of a query fits, the column is one of such tables. -/
theorem meantIn_of_fits {around : List Declaration}
    (h : ∃ d ∈ around, ∃ item ∈ d.items, u.fits item = true) :
    u.meantIn target around ≠ [] ∧ ∀ r ∈ u.meantIn target around,
      ∃ d ∈ around, ∃ item ∈ d.items, u.fits item = true ∧ item.record = r := by
  induction around with
  | nil =>
      obtain ⟨d, hd, -⟩ := h
      cases hd
  | cons d outer ih =>
      unfold meantIn
      cases hfitting : d.items.filter u.fits with
      | nil =>
          -- No table of this query fits, so the one that does is further out.
          obtain ⟨d', hd', item, hitem, hfits⟩ := h
          have houter : d' ∈ outer := by
            refine (List.mem_cons.mp hd').resolve_left ?_
            rintro rfl
            exact List.filter_eq_nil_iff.mp hfitting item hitem hfits
          obtain ⟨hfound, hmeant⟩ := ih ⟨d', houter, item, hitem, hfits⟩
          refine ⟨hfound, ?_⟩
          intro r hr
          obtain ⟨d'', hd'', hrest⟩ := hmeant r hr
          exact ⟨d'', List.mem_cons_of_mem d hd'', hrest⟩
      | cons item items =>
          refine ⟨List.cons_ne_nil _ _, ?_⟩
          intro r hr
          obtain ⟨item', hitem', rfl⟩ := List.mem_map.mp hr
          rw [← hfitting] at hitem'
          obtain ⟨hmem, hfits⟩ := List.mem_filter.mp hitem'
          exact ⟨d, List.mem_cons_self, item', hmem, hfits, rfl⟩

end PlacedColumn

/-! ### Columns inside a change -/

/-- The scope of a change. -/
def Scope.ofChange (record : RecordType) (label : Alias) (aliased : Bool) : Scope :=
  ⟨[(record, label)], record, [], aliased⟩

/-- The scope of a change lists the changed record type only. -/
theorem Scope.owner_ofChange {record r : RecordType} {label a : Alias} {aliased : Bool}
    {scope : Scope} (h : owner? [ofChange record label aliased] r = some (scope, a)) :
    scope = ofChange record label aliased ∧ a = label ∧ record.sameAs r = true := by
  unfold owner? at h
  split at h
  · next a' halias =>
      cases h
      obtain ⟨r', hentry, hsame⟩ := entry_of_aliasOf halias
      obtain ⟨rfl, rfl⟩ := Prod.mk.inj (List.mem_singleton.mp hentry)
      exact ⟨rfl, rfl, hsame⟩
  · cases h

namespace PlacedColumn

variable {u : PlacedColumn} {target : ChangedTable} {a : Alias}

theorem fits_of_qualified (h : u.qualifier = some a) (item : TableItem) :
    u.fits item = (item.label == a) := by
  unfold fits
  rw [h]

theorem fits_of_unqualified (h : u.qualifier = none) (item : TableItem) :
    u.fits item = item.record.hasColumn u.name := by
  unfold fits
  rw [h]

theorem not_captured_of_qualified (h : u.qualifier = some a) : ¬ u.Captured := by
  rintro ⟨hnone, -⟩
  rw [h] at hnone
  cases hnone

variable (target) in
/-- A qualifier that a query declares is read as it is meant. -/
theorem means_of_declared (hnamed : u.Named) (h : u.use.Declared) :
    u.Means target ∧ ¬ u.Captured := by
  obtain ⟨label, table, hqualifier, -, ⟨d, hd, -, hitem⟩, honly⟩ := h
  have hfits : u.fits ⟨u.source.record, table, label⟩ = true := by
    rw [fits_of_qualified hqualifier]
    exact beq_self_eq_true label
  obtain ⟨hfound, hmeant⟩ := meantIn_of_fits target ⟨d, hd, _, hitem, hfits⟩
  refine ⟨⟨hnamed, hfound, ?_⟩, not_captured_of_qualified hqualifier⟩
  intro r hr
  obtain ⟨d', hd', item, hitem', hfits, rfl⟩ := hmeant r hr
  rw [fits_of_qualified hqualifier] at hfits
  exact honly d' hd' item hitem' (beq_iff_eq.mp hfits)

/-- A column of the changed table is read as it is meant where no table of a query fits. -/
theorem means_of_not_fits (hnamed : u.Named) (hrecord : u.source.record = target.item.record)
    (hnone : ∀ d ∈ u.around, ∀ item ∈ d.items, u.fits item = false)
    (hchanged : u.fitsChanged target = true) : u.Means target := by
  have hmeant : u.meant target = [target.item.record] := by
    unfold meant
    rw [meantIn_of_not_fits hnone, if_pos hchanged]
  refine ⟨hnamed, ?_, ?_⟩
  · rw [hmeant]
    exact List.cons_ne_nil _ _
  · intro r hr
    rw [hmeant, List.mem_singleton] at hr
    rw [hr, hrecord]

/-- A column with the alias of the changed table is one of this table. -/
theorem means_of_alias (hnamed : u.Named) (hrecord : u.source.record = target.item.record)
    (haliased : target.aliased = true) (hqualifier : u.qualifier = some target.item.label)
    (hforeign : ∀ d ∈ u.around, ∀ item ∈ d.items, item.label ≠ target.item.label) :
    u.Means target := by
  refine means_of_not_fits hnamed hrecord ?_ ?_
  · intro d hd item hitem
    rw [fits_of_qualified hqualifier]
    exact beq_false_of_ne (hforeign d hd item hitem)
  · unfold fitsChanged
    rw [hqualifier]
    simp [haliased]

/-- An unqualified column is read as it is meant unless it is captured, by a table of another record
type. -/
theorem means_iff_of_unqualified (hnamed : u.Named)
    (hrecord : u.source.record = target.item.record) (hqualifier : u.qualifier = none)
    (hforeign : ∀ d ∈ u.around, ∀ item ∈ d.items, item.record ≠ u.source.record) :
    u.Means target ↔ ¬ u.Captured := by
  constructor
  · rintro hmeans ⟨-, d, hd, item, hitem, hcolumn⟩
    have hfits : u.fits item = true := by
      rw [fits_of_unqualified hqualifier]
      exact hcolumn
    obtain ⟨hfound, hmeant⟩ := meantIn_of_fits target ⟨d, hd, item, hitem, hfits⟩
    obtain ⟨r, hr⟩ := List.exists_mem_of_ne_nil _ hfound
    obtain ⟨d', hd', item', hitem', -, rfl⟩ := hmeant r hr
    exact hforeign d' hd' item' hitem' (hmeans.unique _ hr)
  · intro hfree
    refine means_of_not_fits hnamed hrecord ?_ ?_
    · intro d hd item hitem
      rw [fits_of_unqualified hqualifier]
      refine eq_false_of_ne_true ?_
      intro hcolumn
      exact hfree ⟨hqualifier, d, hd, item, hitem, hcolumn⟩
    · unfold fitsChanged
      rw [hqualifier]

/-- A column that is placed inside a change means its field unless it is captured, and only columns
of the changed record type are captured, where the changed table has no alias. -/
theorem Placed.means_iff {item : TableItem} {aliased : Bool}
    (h : u.Placed [.ofChange item.record item.label aliased]) :
    (u.Means ⟨item, aliased⟩ ↔ ¬ u.Captured) ∧
      (u.Captured → aliased = false ∧ u.source.record = item.record) := by
  rcases h.declared with hdeclared | ⟨scope, a, howns, hqualifier⟩
  · obtain ⟨hmeans, hfree⟩ := means_of_declared ⟨item, aliased⟩ h.named hdeclared
    exact ⟨iff_of_true hmeans hfree, fun hcaptured => absurd hcaptured hfree⟩
  · obtain ⟨rfl, rfl, -⟩ := Scope.owner_ofChange howns.owner
    obtain ⟨hrecord, -⟩ := Prod.mk.inj (List.mem_singleton.mp howns.entry)
    cases aliased with
    | false =>
        have hforeign : ∀ d ∈ u.around, ∀ item' ∈ d.items, item'.record ≠ u.source.record := by
          intro d hd item' hitem'
          exact (howns.foreign d hd item' hitem').1
        exact ⟨means_iff_of_unqualified h.named hrecord hqualifier hforeign,
          fun _ => ⟨rfl, hrecord⟩⟩
    | true =>
        have hqualified : u.qualifier = some item.label := hqualifier
        have hforeign : ∀ d ∈ u.around, ∀ item' ∈ d.items, item'.label ≠ item.label := by
          intro d hd item' hitem'
          exact (howns.foreign d hd item' hitem').2
        have hmeans : u.Means ⟨item, true⟩ :=
          means_of_alias h.named hrecord rfl hqualified hforeign
        have hfree := not_captured_of_qualified hqualified
        exact ⟨iff_of_true hmeans hfree, fun hcaptured => absurd hcaptured hfree⟩

end PlacedColumn

/-! ### Whole statements -/

namespace Command

/-- The table that a command changes. -/
def changed? : Command → Option ChangedTable
  | update target aliased _ _ | delete target aliased _ => some ⟨target, aliased⟩
  | query _ | insert .. | createIndex .. | dropIndex .. => none

/-- The columns of a command, those of nested queries included. -/
def columns : Command → List PlacedColumn
  | query q => columnsQuery [] q
  | insert _ _ values => columnsAll [] values
  | update _ _ assignments filter =>
    columnsAll [] (assignments.map (·.2)) ++ columnsOptional [] filter
  | delete _ _ filter => columnsOptional [] filter
  | createIndex .. | dropIndex .. => []

/-- The command changes the table of the record type, and its columns are placed inside that. -/
def ChangePlaced (record : RecordType) (aliased : Bool) (command : Command) : Prop :=
  ∃ table label, command.changed? = some ⟨⟨record, table, label⟩, aliased⟩ ∧
    AllPlaced [.ofChange record label aliased] command.columns

end Command

namespace Statement

/-- The statement updates or deletes rows. -/
def changesRows : Statement → Bool
  | update _ | delete _ => true
  | select _ | insert _ | createIndex _ | dropIndex _ => false

/-- The record types of a statement at any depth. -/
def records : Statement → List RecordType
  | select s => s.records
  | insert i => i.record :: Expr.recordsFields i.values
  | update u => u.record :: (Expr.recordsFields u.assignments ++ Expr.recordsOptional u.filter)
  | delete d => d.record :: Expr.recordsOptional d.filter
  | createIndex i => [i.record]
  | dropIndex i => [i.record]

end Statement

theorem AllPlaced.all {base : Scopes} {around : List Declaration} {ts : List Term}
    (h : ∀ t ∈ ts, AllPlaced base (t.columns around)) : AllPlaced base (columnsAll around ts) := by
  induction ts with
  | nil => exact .nil
  | cons t ts ih =>
      exact .append (h t List.mem_cons_self) (ih fun t' ht' => h t' (List.mem_cons_of_mem t ht'))

namespace Resolve

variable {known : List RecordType} {dialect : Dialect} {record : RecordType} {aliased : Bool}

/-- Around a change there is only the scope of it. -/
theorem surrounds_ofChange (hnames : RecordType.DistinctNames known) (hrecord : record ∈ known)
    (label : Alias) : Surrounds False known [.ofChange record label aliased] (label + 1)
      [.ofChange record label aliased] [] := by
  refine .base_only hnames fun howner => ?_
  obtain ⟨rfl, rfl, hsame⟩ := Scope.owner_ofChange howner
  refine ⟨Nat.lt_succ_self _, rfl, fun hr => ?_⟩
  rw [hnames record hrecord _ hr hsame]
  exact List.mem_singleton_self _

/-- A step in the scope of a change. -/
theorem changeScope_sound {β : Type} {f : Scope × Alias → Resolve β} {post : β → Prop}
    (h : ∀ label, Sound False (label + 1) post (f (.ofChange record label aliased, label))) :
    Sound False 0 post (changeScope record aliased >>= f) :=
  .after fun next _ => ⟨_, next + 1, Nat.le_succ next, bind_of_ok rfl, h next⟩

theorem expr_sound (hnames : RecordType.DistinctNames known) (hrecord : record ∈ known)
    (label : Alias) {e : Expr} (hrecords : e.records ⊆ known) :
    Sound False (label + 1) (fun t => AllPlaced [.ofChange record label aliased] (t.columns []))
      (expr dialect true [.ofChange record label aliased] e) :=
  exprWith_sound (overriddenColumn_sound False dialect known _)
    (surrounds_ofChange hnames hrecord label) e ⟨False.elim, hrecords⟩

theorem condition_sound (hnames : RecordType.DistinctNames known) (hrecord : record ∈ known)
    (label : Alias) {e? : Option Expr} (hrecords : Expr.recordsOptional e? ⊆ known) :
    Sound False (label + 1)
      (fun t? => AllPlaced [.ofChange record label aliased] (columnsOptional [] t?))
      (condition dialect true [.ofChange record label aliased] e?) := by
  cases e? with
  | none => exact .pure .nil
  | some e => exact .bind (expr_sound hnames hrecord label hrecords) fun t ht => .pure ht

theorem assignment_sound (hnames : RecordType.DistinctNames known) (hrecord : record ∈ known)
    (label : Alias) {v : FieldExpr} (hrecords : v.expr.records ⊆ known) :
    Sound False (label + 1)
      (fun a => AllPlaced [.ofChange record label aliased] (a.2.columns []))
      (assignment dialect true [.ofChange record label aliased] record v) :=
  .bind (.ofExcept False.elim) fun _ _ => .bind (expr_sound hnames hrecord label hrecords)
    fun _ ht => .pure ht

theorem update_sound {u : Update} (hnames : RecordType.DistinctNames known)
    (hknown : (Statement.update u).records ⊆ known) :
    Sound False 0 (Command.ChangePlaced u.record dialect.aliasesMutationTarget)
      (update dialect true [] u) := by
  obtain ⟨hrecord, hrest⟩ := List.cons_subset.mp hknown
  obtain ⟨hassignments, hfilter⟩ := List.append_subset.mp hrest
  unfold update
  refine .bind (.ofExcept False.elim) fun table _ => ?_
  dsimp only
  split
  · exact .fault_bind _
  · refine changeScope_sound ?_
    intro label
    refine .bind (.mapM (fun v hv => assignment_sound hnames hrecord label ?_))
      fun assignments hplaced => ?_
    · intro r hr
      exact hassignments ((Expr.field_subset hv).2 hr)
    refine .bind (condition_sound hnames hrecord label hfilter) fun filter hcondition => ?_
    have hassigned : AllPlaced [.ofChange u.record label dialect.aliasesMutationTarget]
        (columnsAll [] (assignments.map (·.2))) := by
      refine .all ?_
      intro t ht
      obtain ⟨a, ha, rfl⟩ := List.mem_map.mp ht
      exact hplaced a ha
    exact .pure ⟨table, label, rfl, .append hassigned hcondition⟩

theorem delete_sound {d : Delete} (hnames : RecordType.DistinctNames known)
    (hknown : (Statement.delete d).records ⊆ known) :
    Sound False 0 (Command.ChangePlaced d.record dialect.aliasesMutationTarget)
      (delete dialect true [] d) := by
  obtain ⟨hrecord, hfilter⟩ := List.cons_subset.mp hknown
  unfold delete
  refine .bind (.ofExcept False.elim) fun table _ => ?_
  refine changeScope_sound ?_
  intro label
  exact .bind (condition_sound hnames hrecord label hfilter) fun filter hcondition =>
    .pure ⟨table, label, rfl, hcondition⟩

end Resolve

/-- A change that resolves has its columns placed inside it. -/
theorem Statement.changePlaced_of_resolve {s : Statement} {dialect : Dialect} {command : Command}
    (hchange : s.changesRows = true) (hnames : RecordType.DistinctNames s.records)
    (h : s.resolve dialect = .ok command) :
    command.ChangePlaced s.record dialect.aliasesMutationTarget := by
  have hsound : Resolve.Sound False 0
      (Command.ChangePlaced s.record dialect.aliasesMutationTarget)
      (Resolve.statement dialect true [] s) := by
    cases s with
    | update u => exact Resolve.update_sound hnames (List.Subset.refl _)
    | delete d => exact Resolve.delete_sound hnames (List.Subset.refl _)
    | select _ | insert _ | createIndex _ | dropIndex _ => cases hchange
  unfold resolve at h
  cases hresolve : Resolve.statement dialect true [] s 0 with
  | error e next =>
      rw [hresolve] at h
      cases h
  | ok command' next =>
      rw [hresolve] at h
      cases h
      exact (hsound.ok (Nat.le_refl 0) hresolve).2

/-- Every column of a compiled update or deletion is read as the one of its field, unless a table of
a query around it captures it.  That befalls unqualified columns of the changed table alone, in
dialects that give this table no alias. -/
theorem Statement.columns_meant (s : Statement) (hchange : s.changesRows = true)
    (hnames : RecordType.DistinctNames s.records) (dialect : Dialect) {compiled : CompiledStatement}
    (hcompile : compile dialect s = .ok compiled) :
    ∃ command target, s.resolve dialect = .ok command ∧ compiled = command.compiled dialect ∧
      command.changed? = some target ∧ target.item.record = s.record ∧
      target.aliased = dialect.aliasesMutationTarget ∧
      ∀ u ∈ command.columns, (u.Means target ↔ ¬ u.Captured) ∧
        (u.Captured → target.aliased = false ∧ u.source.record = s.record) := by
  unfold compile at hcompile
  cases hresolve : s.resolve dialect with
  | error e =>
      rw [hresolve] at hcompile
      cases hcompile
  | ok command =>
      rw [hresolve] at hcompile
      obtain ⟨table, label, hchanged, hplaced⟩ := s.changePlaced_of_resolve hchange hnames hresolve
      refine ⟨command, _, rfl, (Except.ok.inj hcompile).symm, hchanged, rfl, rfl, ?_⟩
      intro u hu
      exact (hplaced u hu).means_iff

namespace Sample

/-- The deletion of items for which there are orders. -/
def orderedItems : Statement := .delete {
  record := schema.type
  filter := some (.existsRow {
    record := orders
    filter := some (.binary .eq (.col orders "item") (.col schema.type "id")) }) }

/-- With an alias for the items each column is read as it is meant. -/
theorem orderedItems_meant : ∃ command target, orderedItems.resolve .postgres = .ok command ∧
    command.columns.map PlacedColumn.qualifier = [1, 1, 1, 0].map some ∧
      ∀ u ∈ command.columns, u.Means target := by
  have hnames : RecordType.DistinctNames orderedItems.records := by decide
  obtain ⟨command, target, hresolve, -, -, -, haliased, hmeant⟩ :=
    orderedItems.columns_meant rfl hnames .postgres rfl
  refine ⟨command, target, hresolve, ?_, ?_⟩
  · cases hresolve
    decide
  · intro u hu
    obtain ⟨hmeans, hcapturable⟩ := hmeant u hu
    refine hmeans.mpr ?_
    intro hcaptured
    rw [(hcapturable hcaptured).1] at haliased
    cases haliased

/-- Without one the number of the item is read as the item of the order, so that one order is enough
to delete all items. -/
theorem orderedItems_captured : RecordType.DistinctNames orderedItems.records ∧
    compile .sqlite orderedItems = .ok ⟨"DELETE FROM \"items\" WHERE EXISTS (" ++
      "SELECT t1.\"order_id\", t1.\"item_id\" FROM \"orders\" t1 WHERE " ++
      "t1.\"item_id\" = \"item_id\")", []⟩ ∧
    ∃ command target, orderedItems.resolve .sqlite = .ok command ∧
      command.changed? = some target ∧ ∃ u ∈ command.columns,
        u.source = ⟨schema.type, "id"⟩ ∧ u.meant target = [orders] ∧ ¬ u.Means target := by
  refine ⟨by decide, rfl, _, _, rfl, rfl, _, List.mem_cons_of_mem _ (List.mem_cons_of_mem _
    (List.mem_cons_of_mem _ List.mem_cons_self)), rfl, by decide, fun hmeans => ?_⟩
  have hrecord : orders = schema.type := hmeans.unique orders (by decide)
  exact absurd hrecord (by decide)

end Sample

end RecordStore
