import Mathlib.Logic.Function.Basic
import RecordStore.Proofs.Sql.Listing
import RecordStore.Proofs.Sql.Parallel

/-! # Renaming aliases

`Term.rename ρ` and `Query.rename ρ` give every table in a term or a query another alias.  What an
expression resolves to is determined up to a renaming by the scopes around it: where these scopes
correspond under a renaming, so do the results (`Resolve.upToRenaming_lawful`).  The renaming has to
shift the aliases that are free (`ShiftsFrom`), since they are given to the tables of nested
queries. -/

namespace RecordStore

/-- The alias of a record type in a scope under another name. -/
def renameEntry (ρ : Alias → Alias) (entry : RecordType × Alias) : RecordType × Alias :=
  (entry.1, ρ entry.2)

/-- The table under another alias. -/
def TableItem.rename (ρ : Alias → Alias) (item : TableItem) : TableItem :=
  { item with label := ρ item.label }

section

variable (ρ : Alias → Alias)

mutual

/-- The term with other aliases. -/
def Term.rename : Term → Term
  | .column source qualifier name => .column source (qualifier.map ρ) name
  | .definition source sql => .definition source sql
  | .missing source => .missing source
  | .override source owner body => .override source (ρ owner) body.rename
  | .literal l => .literal l
  | .param b => .param b
  | .interval amount unit => .interval amount unit
  | .wildcard => .wildcard
  | .call function args => .call function (renameAll args)
  | .binary op left right => .binary op left.rename right.rename
  | .logical op operands => .logical op (renameAll operands)
  | .not operand => .not operand.rename
  | .isNull negated operand => .isNull negated operand.rename
  | .inNothing negated => .inNothing negated
  | .inChunks negated chunks => .inChunks negated (renameChunks chunks)
  | .inArray negated operand values => .inArray negated operand.rename values
  | .inTerms negated operand items => .inTerms negated operand.rename (renameAll items)
  | .inQuery negated operand query => .inQuery negated operand.rename (renameQuery query)
  | .caseWhen operand branches otherwise =>
    .caseWhen (renameOptional operand) (renameBranches branches) (renameOptional otherwise)
  | .search mode columns query => .search mode (renameAll columns) query
  | .temporal op operand => .temporal op operand.rename
  | .subquery query => .subquery (renameQuery query)
  | .existsRow query => .existsRow (renameQuery query)

/-- The terms with other aliases. -/
def renameAll : List Term → List Term
  | [] => []
  | t :: ts => t.rename :: renameAll ts

/-- A term that may be missing, with other aliases. -/
def renameOptional : Option Term → Option Term
  | none => none
  | some t => some t.rename

/-- Branches of a case distinction with other aliases. -/
def renameBranches : List (Term × Term) → List (Term × Term)
  | [] => []
  | (condition, result) :: rest => (condition.rename, result.rename) :: renameBranches rest

/-- Chunks of a list with other aliases. -/
def renameChunks : List (Term × List Value) → List (Term × List Value)
  | [] => []
  | (operand, values) :: rest => (operand.rename, values) :: renameChunks rest

/-- Result columns with other aliases. -/
def renameOutput : List (FieldExprOf Term) → List (FieldExprOf Term)
  | [] => []
  | { field, expr } :: rest => { field, expr := expr.rename } :: renameOutput rest

/-- A list of results that may be missing, with other aliases. -/
def renameResults : Option (List (FieldExprOf Term)) → Option (List (FieldExprOf Term))
  | none => none
  | some columns => some (renameOutput columns)

/-- Joins with other aliases. -/
def renameJoins : List (JoinedTableOf Term) → List (JoinedTableOf Term)
  | [] => []
  | { kind, item, on } :: rest =>
    { kind, item := item.rename ρ, on := on.rename } :: renameJoins rest

/-- Sort keys with other aliases. -/
def renameSortKeys : List (SortKeyOf Term) → List (SortKeyOf Term)
  | [] => []
  | { expr, descending } :: rest => { expr := expr.rename, descending } :: renameSortKeys rest

/-- The groups of a query with other aliases. -/
def renameGrouping : Option (List Term) → Option (List Term)
  | none => none
  | some ts => some (renameAll ts)

/-- The order of a query with other aliases. -/
def renameOrdering : Option (List (SortKeyOf Term)) → Option (List (SortKeyOf Term))
  | none => none
  | some keys => some (renameSortKeys keys)

/-- The query with other aliases. -/
def renameQuery : QueryOf Term → QueryOf Term
  | { record, scope, counted, labelled, distinct, output, tables, joins, filter, grouping, ordering,
      limit, locking } =>
    { record, scope := scope.map (renameEntry ρ), counted, labelled, distinct,
      output := renameResults output, tables := tables.map (TableItem.rename ρ),
      joins := renameJoins joins, filter := renameOptional filter,
      grouping := renameGrouping grouping, ordering := renameOrdering ordering, limit, locking }

end

end

/-! ### Aliases of a query -/

/-- The renaming shifts the aliases from this one on. -/
def ShiftsFrom (first : Alias) (ρ : Alias → Alias) : Prop :=
  ∀ next, first ≤ next → ∀ n, ρ (next + n) = ρ next + n

theorem ShiftsFrom.map_range {first next : Alias} {ρ : Alias → Alias} (h : ShiftsFrom first ρ)
    (hnext : first ≤ next) (n : Nat) :
    (List.range' next n).map ρ = List.range' (ρ next) n := by
  refine List.ext_getElem (by simp) fun i _ _ => ?_
  rw [List.getElem_map, List.getElem_range', List.getElem_range', Nat.one_mul, h next hnext]

/-- In a list that is numbered from `next` on, the first match has its position as its number. -/
theorem find_zip_range (p : RecordType → Bool) (rs : List RecordType) (next : Nat) :
    ((rs.zip (List.range' next rs.length)).find? (p ·.1)).map (·.2) =
      (rs.findIdx? p).map (next + ·) := by
  induction rs generalizing next with
  | nil => rfl
  | cons r rs ih =>
      rw [List.length_cons, List.range'_succ, List.zip_cons_cons, List.findIdx?_cons]
      cases hr : p r with
      | true => simp [hr]
      | false =>
          rw [List.find?_cons_of_neg (by simp [hr]), ih]
          cases rs.findIdx? p with
          | none => rfl
          | some i => simp [Nat.add_comm i 1, Nat.add_assoc]

namespace Select

variable (s : Select) {outer outer' : Scopes} {next : Alias}

/-- A record type has its position as its alias. -/
theorem aliasOf_eq (outer : Scopes) (next : Alias) (r : RecordType) :
    (s.innerScope outer next).aliasOf? r =
      ((s.scopeRecords outer).findIdx? (·.sameAs r)).map (next + ·) :=
  find_zip_range (·.sameAs r) _ next

/-- What has an entry is called by the alias of the entry. -/
theorem aliasOf_of_entry {r : RecordType} {a : Alias} (h : (r, a) ∈ s.entries outer next) :
    (s.innerScope outer next).aliasOf? r = some a := by
  obtain ⟨i, hentry⟩ := List.mem_iff_getElem?.mp h
  obtain ⟨hrecord, hlabel⟩ := List.getElem?_zip_eq_some.mp hentry
  obtain ⟨_, halias⟩ := List.getElem?_eq_some_iff.mp hlabel
  rw [List.getElem_range', Nat.one_mul] at halias
  rw [aliasOf_eq, s.findIdx_scopeRecords outer hrecord, Option.map_some, halias]

variable {ρ : Alias → Alias} {first : Alias}

theorem entries_rename (h : ShiftsFrom first ρ) (hnext : first ≤ next)
    (hrecords : s.scopeRecords outer' = s.scopeRecords outer) :
    s.entries outer' (ρ next) = (s.entries outer next).map (renameEntry ρ) := by
  unfold entries
  rw [hrecords, ← h.map_range hnext, List.zip_map_right]
  rfl

theorem tableItems_rename (entries : List (RecordType × Alias)) :
    s.tableItems (entries.map (renameEntry ρ)) =
      (s.tableItems entries).map (TableItem.rename ρ) := by
  unfold tableItems
  rw [List.filterMap_map, List.map_filterMap]
  refine List.filterMap_congr fun entry _ => ?_
  obtain ⟨record, label⟩ := entry
  dsimp only [Function.comp, renameEntry]
  cases record.table with
  | none => rfl
  | some table =>
      dsimp only
      rw [apply_ite (Option.map (TableItem.rename ρ))]
      rfl

theorem tableItems_perm {entries entries' : List (RecordType × Alias)}
    (h : entries.Perm entries') : (s.tableItems entries).Perm (s.tableItems entries') :=
  h.filterMap _

end Select

/-! ### The correspondence -/

namespace Scope

/-- The scope of a record type, under another alias. -/
structure Renamed (ρ : Alias → Alias) (owner owner' : Scope × Alias) : Prop where
  label : owner'.2 = ρ owner.2
  qualified : owner'.1.qualified = owner.1.qualified
  selected : owner'.1.selected = owner.1.selected
  overrides : owner'.1.overrides = owner.1.overrides

/-- Every record type has the same scope around both places, under another alias. -/
def AllRenamed (ρ : Alias → Alias) (scopes scopes' : Scopes) : Prop :=
  ∀ r, Option.Rel (Renamed ρ) (owner? scopes r) (owner? scopes' r)

variable {ρ : Alias → Alias} {scopes scopes' : Scopes}

theorem AllRenamed.lists (h : AllRenamed ρ scopes scopes') (r : RecordType) :
    Scope.lists scopes' r = Scope.lists scopes r := by
  rw [← isSome_owner, ← isSome_owner]
  have hr := h r
  revert hr
  cases owner? scopes r <;> cases owner? scopes' r <;> intro hr <;> first | rfl | cases hr

theorem AllRenamed.owner (h : AllRenamed ρ scopes scopes') {r : RecordType} {scope : Scope}
    {a : Alias} (howner : owner? scopes r = some (scope, a)) :
    ∃ scope', owner? scopes' r = some (scope', ρ a) ∧ scope'.qualified = scope.qualified ∧
      ∀ c, scope'.overrideOf? c = scope.overrideOf? c := by
  have hr := h r
  rw [howner] at hr
  generalize hscope : owner? scopes' r = owner' at hr
  cases hr with
  | @some _ owner' hrenamed =>
      obtain ⟨scope', a'⟩ := owner'
      obtain rfl : a' = ρ a := hrenamed.label
      refine ⟨scope', rfl, hrenamed.qualified, fun c => ?_⟩
      have hselected : scope'.selected = scope.selected := hrenamed.selected
      have hoverrides : scope'.overrides = scope.overrides := hrenamed.overrides
      unfold overrideOf?
      rw [hselected, hoverrides]

/-- Inside a query too, if the aliases that are free are shifted. -/
theorem AllRenamed.push {first next : Alias} (h : AllRenamed ρ scopes scopes')
    (hρ : ShiftsFrom first ρ) (hnext : first ≤ next) (s : Select) :
    AllRenamed ρ (s.innerScopes scopes next) (s.innerScopes scopes' (ρ next)) := by
  intro r
  have hr := h r
  unfold Select.innerScopes owner?
  rw [s.aliasOf_eq, s.aliasOf_eq, s.scopeRecords_congr fun r _ => h.lists r]
  cases (s.scopeRecords scopes).findIdx? (·.sameAs r) with
  | none => exact hr
  | some i => exact .some ⟨(hρ next hnext i).symm, rfl, rfl, rfl⟩

theorem AllRenamed.refl (scopes : Scopes) : AllRenamed id scopes scopes := by
  intro r
  cases owner? scopes r with
  | none => exact .none
  | some owner => exact .some ⟨rfl, rfl, rfl, rfl⟩

end Scope

namespace Resolve

/-- What is resolved in both places is the same under a renaming. -/
def upToRenaming (ρ : Alias → Alias) (first : Alias) : Comparison where
  Free next next' := first ≤ next ∧ next' = ρ next
  Labels a a' := a' = ρ a
  Around := Scope.AllRenamed ρ
  Terms _ t t' := t' = t.rename ρ
  Queries _ q q' := q' = renameQuery ρ q
  Admits _ := True

variable {ρ : Alias → Alias}

section

theorem renameAll_of_forall {ts ts' : List Term}
    (h : List.Forall₂ (fun t t' => t' = t.rename ρ) ts ts') : ts' = renameAll ρ ts := by
  induction h with
  | nil => rfl
  | cons h _ ih => rw [h, ih, renameAll]

theorem renameOptional_of_rel {t? t?' : Option Term}
    (h : Option.Rel (fun t t' => t' = t.rename ρ) t? t?') : t?' = renameOptional ρ t? := by
  cases h with
  | none => rfl
  | some h => rw [h, renameOptional]

theorem renameBranches_of_forall {branches branches' : List (Term × Term)}
    (h : List.Forall₂ (fun b b' => b'.1 = b.1.rename ρ ∧ b'.2 = b.2.rename ρ) branches branches') :
    branches' = renameBranches ρ branches := by
  induction h with
  | nil => rfl
  | @cons b b' _ _ h _ ih =>
      obtain ⟨condition', result'⟩ := b'
      obtain ⟨rfl, rfl⟩ := h
      rw [ih]
      rfl

theorem renameChunks_of_forall {chunks chunks' : List (Term × List Value)}
    (h : List.Forall₂ (fun c c' => c'.1 = c.1.rename ρ ∧ c'.2 = c.2) chunks chunks') :
    chunks' = renameChunks ρ chunks := by
  induction h with
  | nil => rfl
  | @cons c c' _ _ h _ ih =>
      obtain ⟨operand', values'⟩ := c'
      obtain ⟨rfl, rfl⟩ := h
      rw [ih]
      rfl

theorem renameResults_of_rel {columns? columns?' : Option (List (FieldExprOf Term))}
    (h : Option.Rel (List.Forall₂ fun c c' => c'.field = c.field ∧ c'.expr = c.expr.rename ρ)
      columns? columns?') : columns?' = renameResults ρ columns? := by
  cases h with
  | none => rfl
  | @some columns columns' h =>
      have heq : columns' = renameOutput ρ columns := by
        induction h with
        | nil => rfl
        | @cons c c' _ _ h _ ih =>
            obtain ⟨field', expr'⟩ := c'
            obtain ⟨rfl, rfl⟩ := h
            rw [ih]
            rfl
      rw [heq, renameResults]

theorem renameJoins_of_forall {joins joins' : List JoinedTable}
    (h : List.Forall₂ (fun j j' => j'.kind = j.kind ∧ j'.item.record = j.item.record ∧
      j'.item.table = j.item.table ∧ j'.item.label = ρ j.item.label ∧ j'.on = j.on.rename ρ)
      joins joins') : joins' = renameJoins ρ joins := by
  induction h with
  | nil => rfl
  | @cons j j' _ _ h _ ih =>
      obtain ⟨kind', ⟨record', table', label'⟩, on'⟩ := j'
      obtain ⟨rfl, rfl, rfl, rfl, rfl⟩ := h
      rw [ih]
      rfl

theorem renameGrouping_of_rel {ts? ts?' : Option (List Term)}
    (h : Option.Rel (List.Forall₂ fun t t' => t' = t.rename ρ) ts? ts?') :
    ts?' = renameGrouping ρ ts? := by
  cases h with
  | none => rfl
  | some h => rw [renameAll_of_forall h, renameGrouping]

theorem renameOrdering_of_rel {keys? keys?' : Option (List (SortKeyOf Term))}
    (h : Option.Rel (List.Forall₂ fun k k' => k'.expr = k.expr.rename ρ ∧
      k'.descending = k.descending) keys? keys?') : keys?' = renameOrdering ρ keys? := by
  cases h with
  | none => rfl
  | @some keys keys' h =>
      have heq : keys' = renameSortKeys ρ keys := by
        induction h with
        | nil => rfl
        | @cons k k' _ _ h _ ih =>
            obtain ⟨expr', descending'⟩ := k'
            obtain ⟨rfl, rfl⟩ := h
            rw [ih]
            rfl
      rw [heq, renameOrdering]

end

theorem upToRenaming_congruence (first : Alias) (scopes : Scopes) :
    (upToRenaming ρ first).Congruence scopes where
  literal _ := rfl
  param _ := rfl
  interval _ _ := rfl
  wildcard := rfl
  inNothing _ := rfl
  call hargs := by
    obtain rfl := renameAll_of_forall hargs
    rfl
  binary hleft hright := by
    obtain rfl := hleft
    obtain rfl := hright
    rfl
  logical hoperands := by
    obtain rfl := renameAll_of_forall hoperands
    rfl
  not h := by
    obtain rfl := h
    rfl
  isNull h := by
    obtain rfl := h
    rfl
  inChunks hchunks := by
    obtain rfl := renameChunks_of_forall hchunks
    rfl
  inArray h := by
    obtain rfl := h
    rfl
  inTerms h hitems := by
    obtain rfl := h
    obtain rfl := renameAll_of_forall hitems
    rfl
  inQuery h hquery := by
    obtain rfl := h
    obtain rfl := hquery
    rfl
  caseWhen hoperand hbranches hotherwise := by
    obtain rfl := renameOptional_of_rel hoperand
    obtain rfl := renameBranches_of_forall hbranches
    obtain rfl := renameOptional_of_rel hotherwise
    rfl
  search hcolumns := by
    obtain rfl := renameAll_of_forall hcolumns
    rfl
  temporal h := by
    obtain rfl := h
    rfl
  subquery h := by
    obtain rfl := h
    rfl
  existsRow h := by
    obtain rfl := h
    rfl

/-! ### Both rules for fields -/

variable {first : Alias}

/-- A rule for fields gives the same up to a renaming where it does so in single scopes. -/
theorem upToRenaming_lawful_of_column {rule : ColumnRule} (hρ : ShiftsFrom first ρ)
    (hcolumn : ∀ {scopes scopes'} (c : ColumnRef), Scope.AllRenamed ρ scopes scopes' →
      Parallel False (upToRenaming ρ first).Free (fun t t' => t' = t.rename ρ) (rule scopes c)
        (rule scopes' c)) :
    (upToRenaming ρ first).Lawful False rule rule where
  congruence := upToRenaming_congruence first
  column := hcolumn
  owner h howner := by
    obtain ⟨scope', howner', -⟩ := h.owner howner
    exact ⟨scope', _, howner', rfl⟩
  enterable := False.elim
  enter {outer outer' next _} s h _ hfree := by
    obtain ⟨hnext, rfl⟩ := hfree
    refine ⟨h.push hρ hnext s, Nat.le_add_right_of_le hnext, ?_⟩
    rw [s.scopeRecords_congr fun r _ => h.lists r, hρ next hnext]
  query {outer outer' next _ c c'} s labelled h _ hfree hclauses := by
    obtain ⟨hnext, rfl⟩ := hfree
    have hentries := s.entries_rename hρ hnext (s.scopeRecords_congr fun r _ => h.lists r)
    obtain ⟨output', joins', filter', grouping', ordering', limit'⟩ := c'
    obtain ⟨houtput, hjoins, hfilter, hgrouping, hordering, hlimit⟩ := hclauses
    obtain rfl := renameResults_of_rel houtput
    obtain rfl := renameJoins_of_forall hjoins
    obtain rfl := renameOptional_of_rel hfilter
    obtain rfl := renameGrouping_of_rel hgrouping
    obtain rfl := renameOrdering_of_rel hordering
    obtain rfl := hlimit
    unfold Select.query
    rw [hentries, s.tableItems_rename]
    rfl

theorem plainColumn_renamed {scopes scopes' : Scopes} (h : Scope.AllRenamed ρ scopes scopes')
    (c : ColumnRef) :
    Parallel False (upToRenaming ρ first).Free (fun t t' => t' = t.rename ρ) (plainColumn scopes c)
      (plainColumn scopes' c) := by
  refine plainColumn_parallel (fun _ => rfl) rfl fun {scope a} howner => ?_
  obtain ⟨scope', howner', hqualified, -⟩ := h.owner howner
  refine ⟨scope', _, howner', fun name => ?_⟩
  rw [hqualified]
  cases scope.qualified <;> rfl

/-- Where the scopes correspond under a renaming, so do the results, overrides included. -/
theorem upToRenaming_lawful (hρ : ShiftsFrom first ρ) (dialect : Dialect) :
    (upToRenaming ρ first).Lawful False (overriddenColumn dialect) (overriddenColumn dialect) := by
  have hplain : (upToRenaming ρ first).Lawful False plainColumn plainColumn :=
    upToRenaming_lawful_of_column hρ fun c h => plainColumn_renamed h c
  refine upToRenaming_lawful_of_column hρ fun {scopes scopes'} c h => ?_
  unfold overriddenColumn
  refine .ofExcept_bind _ fun field _ => ?_
  have hlists := h.lists c.record
  cases howner : Scope.owner? scopes c.record with
  | none =>
      have hnone : Scope.owner? scopes' c.record = none := by
        rw [← Scope.isSome_owner, ← Scope.isSome_owner, howner] at hlists
        exact Option.isNone_iff_eq_none.mp (Option.isSome_eq_false_iff.mp hlists)
      rw [hnone]
      exact plainColumn_renamed h c
  | some owner =>
      obtain ⟨scope, a⟩ := owner
      obtain ⟨scope', howner', -, hoverride⟩ := h.owner howner
      rw [howner']
      dsimp only
      rw [hoverride c]
      cases scope.overrideOf? c with
      | none => exact plainColumn_renamed h c
      | some body =>
          refine (exprWith_parallel hplain h body fun _ _ => trivial).bind fun t t' ht => .pure ?_
          rw [ht]
          rfl

end Resolve

end RecordStore
