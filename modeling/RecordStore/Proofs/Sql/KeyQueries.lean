import Mathlib.Data.List.Basic
import RecordStore.Key.Set
import RecordStore.Operation.Strategy
import RecordStore.Proofs.Sql.Resolves

/-! # The queries behind a query

Reading the records of a query by key first needs two other kinds of queries: the query for the keys
only, and the queries for the records of sets of keys.  Where the query itself compiles and can be
read by key, and its key fields are fields, these compile too (`Select.compile_keysOnly`,
`Select.compile_keySet`). -/

namespace RecordStore

/-! ### The record types in scope -/

theorem foldl_addRecord_cons (rs : List RecordType) (r : RecordType) (seen : List RecordType) :
    ∃ rest, rs.foldl addRecord (r :: seen) = r :: rest := by
  induction rs generalizing seen with
  | nil => exact ⟨seen, rfl⟩
  | cons r' rs ih =>
      rw [List.foldl_cons, addRecord]
      split
      · exact ih seen
      · exact ih (seen ++ [r'])

namespace Select

variable (s : Select) (outer : Scopes) (next : Alias)

/-- The record type that a query selects comes first in its scope. -/
theorem scopeRecords_cons : ∃ rest, s.scopeRecords outer = s.record :: rest := by
  obtain ⟨own, hown⟩ := foldl_addRecord_cons (s.joins.map (·.record)) s.record []
  unfold scopeRecords
  rw [hown]
  exact foldl_addRecord_cons _ _ _

/-- A query speaks of its own record type under its first alias. -/
theorem owner_record : Scope.owner? (s.innerScopes outer next) s.record =
    some (s.innerScope outer next, next) := by
  obtain ⟨rest, hrest⟩ := s.scopeRecords_cons outer
  have halias : (s.innerScope outer next).aliasOf? s.record = some next := by
    unfold Scope.aliasOf? innerScope entries
    rw [hrest, List.length_cons, List.range'_succ, List.zip_cons_cons, List.find?_cons_of_pos]
    · rfl
    · exact beq_self_eq_true _
  unfold innerScopes Scope.owner?
  rw [halias]

end Select

/-! ### Fields that can be read -/

/-- The field is read wherever there is a place for its record type. -/
def RecordType.Readable (r : RecordType) (field : String) : Prop :=
  ∀ scopes owner, Scope.owner? scopes r = some owner →
    ∃ t, Resolve.Resolves (Resolve.plainColumn scopes ⟨r, field⟩) t

namespace Resolve

variable {dialect : Dialect} {s : Select} {outer : Scopes} {next : Alias}

variable (dialect) in
/-- Fields that can be read make a list of results. -/
theorem resolves_output (hnone : s.definitions = []) {scopes : Scopes} {owner : Scope × Alias}
    {rule : ColumnRule} (howner : Scope.owner? scopes s.record = some owner)
    (hrule : ∀ c, rule scopes c = plainColumn scopes c)
    {fields : List String} (hfields : s.resultFields? = some fields)
    (hread : ∀ field ∈ fields, s.record.Readable field) :
    ∃ columns, Resolves (output dialect rule scopes s) columns := by
  obtain ⟨columns, hcolumns⟩ : ∃ columns, Resolves (outputColumns rule scopes s.record
      (fun field => definitionWith dialect rule scopes field s.definitions) fields) columns := by
    refine Resolves.mapM fun field hfield => ?_
    obtain ⟨t, ht⟩ := hread field hfield scopes owner howner
    refine ⟨⟨field, t⟩, ?_⟩
    unfold outputColumn
    rw [hnone]
    refine .bind (b := t) ?_ (.pure _)
    change Resolves (rule scopes ⟨s.record, field⟩) t
    rwa [hrule]
  unfold output
  rw [hfields]
  exact ⟨some columns, .bind hcolumns (.pure _)⟩

/-- The fields of a list of results that resolves can be read. -/
theorem readable_of_output (hnone : s.definitions = []) {scopes : Scopes} {rule : ColumnRule}
    (hrule : ∀ c, rule scopes c = plainColumn scopes c) {fields : List String}
    (hfields : s.resultFields? = some fields) {columns : Option (List (FieldExprOf Term))}
    {next' : Alias} (h : output dialect rule scopes s next = .ok columns next') :
    ∀ field ∈ fields, s.record.Readable field := by
  intro field hfield scopes' owner howner
  unfold output at h
  rw [hfields, hnone] at h
  obtain ⟨columns', n, hcolumns, -⟩ := bind_eq_ok.mp h
  obtain ⟨column, n₁, n₂, hcolumn⟩ := exists_of_mapM_eq_ok hcolumns hfield
  obtain ⟨t, n₃, ht, -⟩ := bind_eq_ok.mp hcolumn
  change rule scopes ⟨s.record, field⟩ n₁ = .ok t n₃ at ht
  rw [hrule] at ht
  exact plainColumn_resolves ht howner

variable (dialect next) in
/-- Without overrides fields are read as they are. -/
theorem overriddenColumn_of_no_overrides (h : s.overrides = []) (c : ColumnRef) :
    overriddenColumn dialect (s.innerScopes [] next) c = plainColumn (s.innerScopes [] next) c := by
  refine overriddenColumn_eq_plain dialect fun scope a howner => ?_
  unfold Select.innerScopes Scope.owner? at howner
  split at howner
  · cases howner
    unfold Scope.overrideOf? Select.innerScope
    rw [h]
    split <;> rfl
  · cases howner

end Resolve

/-! ### Queries by key -/

namespace Select

variable {dialect : Dialect} {s : Select}

theorem no_overrides (h : s.usesOverrides = false) : s.overrides = [] ∧ s.definitions = [] := by
  unfold usesOverrides at h
  simpa using h

/-- All fields of the records of a query can be read. -/
theorem readable_of_compile (hfields : s.selection = .fields) (hno : s.usesOverrides = false)
    {compiled : CompiledStatement} (h : s.compile dialect = .ok compiled) :
    ∀ field ∈ s.record.fieldNames, s.record.Readable field := by
  obtain ⟨hoverrides, hdefinitions⟩ := no_overrides hno
  obtain ⟨q, next, hselect, -⟩ := compile_eq_ok.mp h
  obtain ⟨-, -, columns, n₁, _, _, _, _, _, _, _, _, _, houtput, -⟩ :=
    Resolve.selectWith_eq_ok.mp hselect
  refine Resolve.readable_of_output hdefinitions
    (Resolve.overriddenColumn_of_no_overrides dialect 0 hoverrides) ?_ houtput
  unfold resultFields?
  rw [hfields]

/-- Without overrides a query compiles with another list of fields if these can be read. -/
theorem compile_selecting (hno : s.usesOverrides = false) {selection : Selection}
    {fields fields' : List String} (hfields : s.resultFields? = some fields)
    (hfields' : resultFields? { s with selection } = some fields')
    (hread : ∀ field ∈ fields', s.record.Readable field) {compiled : CompiledStatement}
    (h : s.compile dialect = .ok compiled) :
    ∃ statement, compile dialect { s with selection } = .ok statement := by
  obtain ⟨hoverrides, hdefinitions⟩ := no_overrides hno
  obtain ⟨q, next, hselect, -⟩ := compile_eq_ok.mp h
  obtain ⟨hlists, hjoin, columns, n₁, joins, n₂, filter, n₃, grouping, n₄, ordering, n₅, limit,
    houtput, hrest⟩ := Resolve.selectWith_eq_ok.mp hselect
  have hrule := Resolve.overriddenColumn_of_no_overrides dialect 0 hoverrides
  have howner := s.owner_record [] 0
  -- Neither list of results takes an alias, so that the rest resolves in the same way.
  obtain ⟨columns', hcolumns⟩ := Resolve.resolves_output dialect hdefinitions howner hrule hfields
    (Resolve.readable_of_output hdefinitions hrule hfields houtput)
  have hn₁ : n₁ = 0 + (s.scopeRecords []).length := by
    rw [hcolumns] at houtput
    cases houtput
    rfl
  obtain ⟨selected, hselected⟩ := Resolve.resolves_output dialect (s := { s with selection })
    hdefinitions howner hrule hfields' hread
  obtain ⟨hjoins, hfilter, hgrouping, hordering, hlimit, -⟩ := hrest
  refine ⟨_, compile_eq_ok.mpr ⟨_, next, Resolve.selectWith_eq_ok.mpr ⟨hlists, hjoin, selected, n₁,
    joins, n₂, filter, n₃, grouping, n₄, ordering, n₅, limit, ?_, hjoins, hfilter, hgrouping,
    hordering, hlimit, rfl⟩, rfl⟩⟩
  rw [hn₁]
  exact hselected _

/-- The list of results of a query for records. -/
theorem resultFields?_of_fields (h : s.selection = .fields) :
    s.resultFields? = some s.record.fieldNames := by
  unfold resultFields?
  rw [h]

/-- The query for the keys compiles with the query. -/
theorem compile_keysOnly (hfields : s.selection = .fields) (hno : s.usesOverrides = false)
    (hkey : ∀ field ∈ s.record.primaryKey, field ∈ s.record.fieldNames)
    {compiled : CompiledStatement} (h : s.compile dialect = .ok compiled) :
    ∃ statement, s.keysOnly.compile dialect = .ok statement :=
  compile_selecting hno (resultFields?_of_fields hfields) rfl
    (fun field hfield => readable_of_compile hfields hno h field (hkey field hfield)) h

/-- A query compiles with its query for the keys if all fields can be read. -/
theorem compile_of_keysOnly (hfields : s.selection = .fields) (hno : s.usesOverrides = false)
    (hread : ∀ field ∈ s.record.fieldNames, s.record.Readable field)
    {compiled : CompiledStatement} (h : s.keysOnly.compile dialect = .ok compiled) :
    ∃ statement, s.compile dialect = .ok statement := by
  have hself : s = { s.keysOnly with selection := .fields } := by
    cases s
    cases hfields
    rfl
  rw [hself]
  exact compile_selecting (s := s.keysOnly) hno rfl rfl hread h

end Select

/-! ### Conditions on keys -/

section

open Resolve

variable {dialect : Dialect} {rule : ColumnRule} {scopes : Scopes}

/-- A connective of operands that resolve and are no connectives of the same kind. -/
theorem Expr.resolves_connect {op : LogicalOp} {operands : List Expr}
    (hplain : ∀ e ∈ operands, e.operandsOf op = [e])
    (h : ∀ e ∈ operands, ∃ t, Resolves (exprWith dialect rule scopes e) t) :
    ∃ t, Resolves (exprWith dialect rule scopes (.connect op operands)) t := by
  have hflat : operands.flatMap (Expr.operandsOf op) = operands := by
    rw [List.flatMap_congr hplain]
    exact List.flatMap_singleton' operands
  obtain ⟨ts, hts⟩ := resolves_exprs h
  unfold Expr.connect
  rw [hflat]
  exact ⟨_, resolves_logical hts⟩

variable {r : RecordType}

/-- The condition on a key resolves where the key fields do. -/
theorem RecordType.resolves_keyCondition (values : List Value)
    (h : ∀ field ∈ r.primaryKey, ∃ t, Resolves (rule scopes ⟨r, field⟩) t) :
    ∃ t, Resolves (exprWith dialect rule scopes (r.keyCondition values)) t := by
  unfold RecordType.keyCondition
  refine Expr.resolves_connect (fun e he => ?_) fun e he => ?_
  · obtain ⟨⟨field, v⟩, -, rfl⟩ := List.mem_map.mp he
    rfl
  · obtain ⟨⟨field, v⟩, hmem, rfl⟩ := List.mem_map.mp he
    obtain ⟨t, ht⟩ := h field (List.of_mem_zip hmem).1
    exact ⟨_, resolves_binary (resolves_column ht) (resolves_bound v)⟩

/-- The condition on a set of keys resolves where the key fields do. -/
theorem KeySet.resolves_rowCondition (set : KeySet r)
    (h : ∀ field ∈ r.primaryKey, ∃ t, Resolves (rule scopes ⟨r, field⟩) t) :
    ∃ t, Resolves (exprWith dialect rule scopes set.rowCondition) t := by
  cases set with
  | empty => exact Expr.resolves_connect (fun e he => by cases he) fun e he => by cases he
  | single width values =>
      obtain ⟨t, ht⟩ := h _ (List.getElem_mem (show 0 < r.primaryKey.length by omega))
      exact resolves_inValues (resolves_column ht)
  | multi _ tuples =>
      refine Expr.resolves_connect (fun e he => ?_) fun e he => ?_
      · obtain ⟨values, -, rfl⟩ := List.mem_map.mp he
        rfl
      · obtain ⟨values, -, rfl⟩ := List.mem_map.mp he
        exact RecordType.resolves_keyCondition values h

/-- The query for the records of a set of keys compiles if all fields can be read. -/
theorem KeySet.compile_select (hread : ∀ field ∈ r.fieldNames, r.Readable field)
    (hkey : ∀ field ∈ r.primaryKey, field ∈ r.fieldNames) (set : KeySet r) (dialect : Dialect) :
    ∃ statement, set.select.compile dialect = .ok statement := by
  have hrule := overriddenColumn_of_no_overrides dialect 0 (s := set.select) rfl
  have howner := set.select.owner_record [] 0
  have hall : set.select.resultFields? = some r.fieldNames := rfl
  obtain ⟨columns, hcolumns⟩ := resolves_output dialect rfl howner hrule hall hread
  obtain ⟨t, ht⟩ : ∃ t, Resolves (exprWith dialect (overriddenColumn dialect)
      (set.select.innerScopes [] 0) set.rowCondition) t :=
    set.resolves_rowCondition fun field hfield => by
      rw [hrule]
      exact hread field (hkey field hfield) _ _ howner
  have hfilter : Resolves (optionalWith dialect (overriddenColumn dialect)
      (set.select.innerScopes [] 0) set.select.filter) (some t) := Resolves.bind ht (.pure _)
  exact ⟨_, Select.compile_eq_ok.mpr ⟨_, _, Resolve.selectWith_eq_ok.mpr ⟨rfl, Bool.and_false _,
    columns, _, [], _, some t, _, none, _, none, _, none, hcolumns _, rfl,
    hfilter _, rfl, rfl, rfl, rfl⟩, rfl⟩⟩

end

end RecordStore
