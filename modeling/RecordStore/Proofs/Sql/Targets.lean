import RecordStore.Proofs.Sql.Changes

/-! # The fields that a change refers to

A change lists the changed record type only, so that a field which is kept in the column of another
table is refused, while a field with an SQL definition is written as the definition wherever it
stands (`Statement.references_target`).  An empty list hides the faults of what is tested for
membership in it, as `compile_data` shows; nothing is said here of the references in such a place
(`Expr.RefersTo`). -/

namespace RecordStore

/-- The expression refers to the field outside nested queries, in a place that is not tested for
membership in an empty list. -/
inductive Expr.RefersTo (c : ColumnRef) : Expr → Prop where
  | column : RefersTo c (.column c)
  | call {function args e} (hmem : e ∈ args) (h : RefersTo c e) : RefersTo c (.call function args)
  | left {op left right} (h : RefersTo c left) : RefersTo c (.binary op left right)
  | right {op left right} (h : RefersTo c right) : RefersTo c (.binary op left right)
  | logical {op operands e} (hmem : e ∈ operands) (h : RefersTo c e) :
      RefersTo c (.logical op operands)
  | not {operand} (h : RefersTo c operand) : RefersTo c (.not operand)
  | isNull {negated operand} (h : RefersTo c operand) : RefersTo c (.isNull negated operand)
  | inValues {negated operand values} (hne : values ≠ []) (h : RefersTo c operand) :
      RefersTo c (.inValues negated operand values)
  | inExprs {negated operand items} (hne : items ≠ []) (h : RefersTo c operand) :
      RefersTo c (.inExprs negated operand items)
  | item {negated operand items e} (hmem : e ∈ items) (h : RefersTo c e) :
      RefersTo c (.inExprs negated operand items)
  | inSelect {negated operand select} (h : RefersTo c operand) :
      RefersTo c (.inSelect negated operand select)
  | compared {operand branches otherwise} (h : RefersTo c operand) :
      RefersTo c (.caseWhen (some operand) branches otherwise)
  | condition {operand branches otherwise b} (hmem : b ∈ branches) (h : RefersTo c b.1) :
      RefersTo c (.caseWhen operand branches otherwise)
  | result {operand branches otherwise b} (hmem : b ∈ branches) (h : RefersTo c b.2) :
      RefersTo c (.caseWhen operand branches otherwise)
  | otherwise {operand branches otherwise} (h : RefersTo c otherwise) :
      RefersTo c (.caseWhen operand branches (some otherwise))
  | search {mode columns query e} (hmem : e ∈ columns) (h : RefersTo c e) :
      RefersTo c (.search mode columns query)
  | temporal {op operand} (h : RefersTo c operand) : RefersTo c (.temporal op operand)

/-- An assignment or the condition of a change refers to the field. -/
def Statement.RefersTo (s : Statement) (c : ColumnRef) : Prop := ∃ e ∈ s.operands, e.RefersTo c

/-- The field has an SQL definition. -/
def ColumnRef.HasDefinition (c : ColumnRef) : Prop :=
  ∃ field sql required, c.record.field c.field = .ok field ∧
    field.kind = .computed (some sql) required

namespace Resolve

/-- Whatever an expression refers to is resolved. -/
def reading (rule : ColumnRule) : Invariant where
  Terms scopes e _ _ _ := ∀ c, e.RefersTo c → ∃ m t m', rule scopes c m = .ok t m'
  Queries _ _ _ _ _ := True

variable {rule : ColumnRule} {scopes : Scopes}

theorem reading_congruence (rule : ColumnRule) (scopes : Scopes) :
    (reading rule).Congruence scopes where
  literal _ h := by cases h
  bound _ h := by cases h
  fieldValue _ h := by cases h
  interval _ h := by cases h
  wildcard _ h := by cases h
  call hargs c h := by
    cases h with
    | call hmem h =>
        obtain ⟨_, _, _, he⟩ := hargs.of_mem hmem
        exact he c h
  binary hl hr c h := by
    cases h with
    | left h => exact hl c h
    | right h => exact hr c h
  logical hoperands c h := by
    cases h with
    | logical hmem h =>
        obtain ⟨_, _, _, he⟩ := hoperands.of_mem hmem
        exact he c h
  not he c h := by
    cases h with
    | not h => exact he c h
  isNull he c h := by
    cases h with
    | isNull h => exact he c h
  inNoValues c h := by
    cases h with
    | inValues hne _ => exact absurd rfl hne
  inNoExprs c h := by
    cases h with
    | inExprs hne _ => exact absurd rfl hne
    | item hmem _ => cases hmem
  inArray hne he c h := by
    cases h with
    | inValues _ h => exact he c h
  inChunks hne hpieces hchunks c h := by
    cases h with
    | inValues _ h =>
        obtain ⟨piece, hpiece⟩ := List.exists_mem_of_ne_nil _ hpieces
        obtain ⟨_, _, _, -, he⟩ := hchunks.of_mem hpiece
        exact he c h
  inTerms hne he hitems c h := by
    cases h with
    | inExprs _ h => exact he c h
    | item hmem h =>
        obtain ⟨_, _, _, hitem⟩ := hitems.of_mem hmem
        exact hitem c h
  inQuery he _ c h := by
    cases h with
    | inSelect h => exact he c h
  caseWhen hcompared hbranches hotherwise c h := by
    cases h with
    | compared h =>
        cases hcompared with
        | some he => exact he c h
    | condition hmem h =>
        obtain ⟨_, _, _, _, he, -⟩ := hbranches.of_mem hmem
        exact he c h
    | result hmem h =>
        obtain ⟨_, _, _, _, -, he⟩ := hbranches.of_mem hmem
        exact he c h
    | otherwise h =>
        cases hotherwise with
        | some he => exact he c h
  search _ hcolumns c h := by
    cases h with
    | search hmem h =>
        obtain ⟨_, _, _, he⟩ := hcolumns.of_mem hmem
        exact he c h
  temporal he c h := by
    cases h with
    | temporal h => exact he c h
  subquery _ c h := by cases h
  existsRow _ c h := by cases h

theorem reading_lawful (rule : ColumnRule) : (reading rule).Lawful rule where
  congruence := reading_congruence rule
  column h c hread := by
    cases hread
    exact ⟨_, _, _, h⟩
  query _ _ := trivial

end Resolve

/-- In a change that compiles every field that an assignment or the condition refers to belongs to
the changed record type, or it has an SQL definition, or its record type has no table. -/
theorem Statement.references_target (s : Statement) (dialect : Dialect)
    {compiled : CompiledStatement} (hcompile : compile dialect s = .ok compiled) {c : ColumnRef}
    (href : s.RefersTo c) :
    s.record.sameAs c.record = true ∨ c.record.isComputed = true ∨ c.HasDefinition := by
  obtain ⟨e, he, href⟩ := href
  obtain ⟨command, hresolve, -⟩ := resolve_of_compile hcompile
  obtain ⟨-, _, _, hoperands⟩ := operands_resolved hresolve
  obtain ⟨_, _, _, hresolved⟩ := hoperands.of_mem he
  obtain ⟨m, t, m', hcolumn⟩ :=
    Resolve.exprWith_keeps (Resolve.reading_lawful _) e hresolved c href
  rw [overriddenColumn_changeScopes] at hcolumn
  cases (Resolve.plainColumn_eq_ok hcolumn).1 with
  | definition hfield hkind => exact .inr (.inr ⟨_, _, _, hfield, hkind⟩)
  | missing _ _ hcomputed => exact .inr (.inl hcomputed)
  | column _ _ _ howner => exact .inl (owner_changeScopes howner).1

namespace Sample

/-- The deletion of the items of a name. -/
def namedItems (name : String) : Statement := .delete {
  record := schema.type
  filter := some (.binary .eq (.col schema.type "name") (.bound (.text name))) }

theorem namedItems_target : (∃ compiled, compile .postgres (namedItems "pen") = .ok compiled) ∧
    (namedItems "pen").RefersTo ⟨schema.type, "name"⟩ ∧
    ((namedItems "pen").record.sameAs schema.type = true ∨ schema.type.isComputed = true ∨
      ColumnRef.HasDefinition ⟨schema.type, "name"⟩) :=
  have href : (namedItems "pen").RefersTo ⟨schema.type, "name"⟩ :=
    ⟨_, List.mem_singleton_self _, .left .column⟩
  ⟨⟨_, rfl⟩, href, (namedItems "pen").references_target .postgres rfl href⟩

/-- Sales with a price in cents, which is computed. -/
def sales : RecordType where
  name := "Sale"
  table := some "sales"
  fields := [.stored "price" "price", .computed "cents" (some "price * 100") true]
  primaryKey := ["price"]

/-- The deletion of items on a condition that refers to sales. -/
def itemsBySale (filter : Expr) : Statement :=
  .delete { record := schema.type, filter := some filter }

/-- A deletion of items is not refused for the price of a sale in cents. -/
theorem itemsBySale_accepted :
    (itemsBySale (.isNull true (.col sales "cents"))).RefersTo ⟨sales, "cents"⟩ ∧
      compile .sqlite (itemsBySale (.isNull true (.col sales "cents"))) =
        .ok ⟨"DELETE FROM \"items\" WHERE (price * 100) IS NOT NULL", []⟩ ∧
      schema.type.sameAs sales = false ∧ sales.isComputed = false :=
  ⟨⟨_, List.mem_singleton_self _, .isNull .column⟩, rfl, rfl, rfl⟩

end Sample

end RecordStore
