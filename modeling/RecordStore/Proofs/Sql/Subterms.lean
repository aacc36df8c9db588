import RecordStore.Proofs.Sql.Changes

/-! # The terms inside a term

`Term.inner` lists the terms inside a term at any depth: its operands, those of nested queries, and
the expressions that stand for fields, each before the terms inside itself.  Resolving leaves no
list of columns or chunks empty in any of them (`Statement.filled_of_resolve`). -/

namespace RecordStore

mutual

/-- The terms inside a term. -/
def Term.inner : Term → List Term
  | .column .. | .definition .. | .missing _ | .literal _ | .param _ | .interval .. | .wildcard
  | .inNothing _ => []
  | .override _ _ body => body :: body.inner
  | .call _ args => innerAll args
  | .binary _ left right => left :: left.inner ++ right :: right.inner
  | .logical _ operands => innerAll operands
  | .not operand => operand :: operand.inner
  | .isNull _ operand => operand :: operand.inner
  | .inChunks _ chunks => innerChunks chunks
  | .inArray _ operand _ => operand :: operand.inner
  | .inTerms _ operand items => operand :: operand.inner ++ innerAll items
  | .inQuery _ operand query => operand :: operand.inner ++ innerQuery query
  | .caseWhen operand branches otherwise =>
    innerOptional operand ++ innerBranches branches ++ innerOptional otherwise
  | .search _ columns _ => innerAll columns
  | .temporal _ operand => operand :: operand.inner
  | .subquery query => innerQuery query
  | .existsRow query => innerQuery query

/-- The terms of a list, and those inside them. -/
def innerAll : List Term → List Term
  | [] => []
  | t :: ts => t :: t.inner ++ innerAll ts

/-- A term that may be missing, and those inside it. -/
def innerOptional : Option Term → List Term
  | none => []
  | some t => t :: t.inner

/-- The terms of the branches of a case distinction. -/
def innerBranches : List (Term × Term) → List Term
  | [] => []
  | (condition, result) :: rest =>
    condition :: condition.inner ++ result :: result.inner ++ innerBranches rest

/-- The operands of chunks of a list. -/
def innerChunks : List (Term × List Value) → List Term
  | [] => []
  | (operand, _) :: rest => operand :: operand.inner ++ innerChunks rest

/-- The terms of a list of results. -/
def innerOutput : List (FieldExprOf Term) → List Term
  | [] => []
  | { expr, .. } :: rest => expr :: expr.inner ++ innerOutput rest

/-- The terms of the conditions of joins. -/
def innerJoins : List (JoinedTableOf Term) → List Term
  | [] => []
  | { on, .. } :: rest => on :: on.inner ++ innerJoins rest

/-- The terms of sort keys. -/
def innerSortKeys : List (SortKeyOf Term) → List Term
  | [] => []
  | { expr, .. } :: rest => expr :: expr.inner ++ innerSortKeys rest

/-- The terms of a list of results that may be missing. -/
def innerResults : Option (List (FieldExprOf Term)) → List Term
  | none => []
  | some columns => innerOutput columns

/-- The terms of the groups of a query. -/
def innerGrouping : Option (List Term) → List Term
  | none => []
  | some ts => innerAll ts

/-- The terms of the order of a query. -/
def innerOrdering : Option (List (SortKeyOf Term)) → List Term
  | none => []
  | some keys => innerSortKeys keys

/-- The terms of a query; without a table nothing is joined. -/
def innerQuery : QueryOf Term → List Term
  | { output, tables, joins, filter, grouping, ordering, .. } =>
    innerResults output ++ (if tables.isEmpty then [] else innerJoins joins) ++
      innerOptional filter ++ innerGrouping grouping ++ innerOrdering ordering

end

/-- The term and the terms inside it. -/
def Term.subterms (t : Term) : List Term := t :: t.inner

/-- The terms of a command. -/
def Command.subterms : Command → List Term
  | .query q => innerQuery q
  | command => innerAll command.operands

/-! ### Lists that are not empty -/

/-- The term has a column if it is a search, and a chunk if it is a test against chunks. -/
def Term.isFilled : Term → Bool
  | .inChunks _ chunks => !chunks.isEmpty
  | .search _ columns _ => !columns.isEmpty
  | _ => true

/-- No list is empty in these terms. -/
abbrev Filled (ts : List Term) : Prop := ∀ t ∈ ts, t.isFilled = true

namespace Filled

open Resolve

/-- No list is empty in what expressions and queries resolve to. -/
def invariant : Resolve.Invariant where
  Terms _ _ _ t _ := Filled t.subterms
  Queries _ _ _ q _ := Filled (innerQuery q)

variable {scopes : Scopes} {first last : Alias} {t t' : Term} {ts ts' : List Term}

theorem append (h : Filled ts) (h' : Filled ts') : Filled (ts ++ ts') :=
  List.forall_mem_append.mpr ⟨h, h'⟩

theorem cons (ht : t.isFilled = true) (h : Filled ts) : Filled (t :: ts) :=
  List.forall_mem_cons.mpr ⟨ht, h⟩

theorem nil : Filled [] := fun _ h => by cases h

theorem all {es : List Expr} (h : InTurn (invariant.Terms scopes) es first ts last) :
    Filled (innerAll ts) := by
  induction h with
  | nil => exact nil
  | cons head _ ih => exact append head ih

theorem optional {e? : Option Expr} {t? : Option Term}
    (h : IfAny (invariant.Terms scopes) e? first t? last) : Filled (innerOptional t?) := by
  cases h with
  | none => exact nil
  | some h => exact h

theorem branches {es : List (Expr × Expr)} {ts : List (Term × Term)}
    (h : InTurn (invariant.Branches scopes) es first ts last) : Filled (innerBranches ts) := by
  induction h with
  | nil => exact nil
  | cons head _ ih =>
      obtain ⟨_, hcondition, hresult⟩ := head
      exact append (append hcondition hresult) ih

theorem chunks {operand : Expr} {pieces : List (List Value)} {chunks : List (Term × List Value)}
    (h : InTurn (invariant.Chunks scopes operand) pieces first chunks last) :
    Filled (innerChunks chunks) := by
  induction h with
  | nil => exact nil
  | cons head _ ih => exact append head.2 ih

theorem results {s : Select} {fields? : Option (List String)}
    {columns? : Option (List (FieldExprOf Term))}
    (h : IfAny (InTurn (invariant.Columns scopes s)) fields? first columns? last) :
    Filled (innerResults columns?) := by
  cases h with
  | none => exact nil
  | some h =>
      change Filled (innerOutput _)
      induction h with
      | nil => exact nil
      | cons head _ ih => exact append head.2 ih

theorem joins {js : List Join} {ts : List JoinedTable}
    (h : InTurn (invariant.Joins scopes) js first ts last) : Filled (innerJoins ts) := by
  induction h with
  | nil => exact nil
  | cons head _ ih => exact append head.2.2 ih

theorem grouping {es? : Option (List Expr)} {ts? : Option (List Term)}
    (h : IfAny (InTurn (invariant.Terms scopes)) es? first ts? last) :
    Filled (innerGrouping ts?) := by
  cases h with
  | none => exact nil
  | some h => exact all h

theorem ordering {keys? : Option (List SortKey)} {ts? : Option (List (SortKeyOf Term))}
    (h : IfAny (InTurn (invariant.SortKeys scopes)) keys? first ts? last) :
    Filled (innerOrdering ts?) := by
  cases h with
  | none => exact nil
  | some h =>
      change Filled (innerSortKeys _)
      induction h with
      | nil => exact nil
      | cons head _ ih => exact append head.2 ih

theorem isEmpty_eq_false {α β : Type} {P : α → Alias → β → Alias → Prop} {as : List α}
    {bs : List β} (h : InTurn P as first bs last) (hne : as ≠ []) : (!bs.isEmpty) = true := by
  cases h with
  | nil => exact absurd rfl hne
  | cons => rfl

theorem congruence (scopes : Scopes) : invariant.Congruence scopes where
  literal := cons rfl nil
  bound := cons rfl nil
  fieldValue := cons rfl nil
  interval := cons rfl nil
  wildcard := cons rfl nil
  call h := cons rfl (all h)
  binary h h' := cons rfl (append h h')
  logical h := cons rfl (all h)
  not h := cons rfl h
  isNull h := cons rfl h
  inNoValues := cons rfl nil
  inNoExprs := cons rfl nil
  inArray _ h := cons rfl h
  inChunks _ hpieces h := cons (isEmpty_eq_false h hpieces) (chunks h)
  inTerms _ h h' := cons rfl (append h (all h'))
  inQuery h h' := cons rfl (append h h')
  caseWhen h hbranches h' :=
    cons rfl (append (append (optional h) (branches hbranches)) (optional h'))
  search hne h := cons (isEmpty_eq_false h hne) (all h)
  temporal h := cons rfl h
  subquery h := cons rfl h
  existsRow h := cons rfl h

theorem of_clauses {s : Select} {outer : Scopes} {labelled : Bool} {c : Resolve.Clauses}
    (h : invariant.Clauses (s.innerScopes outer first) s
      (first + (s.scopeRecords outer).length) c last) :
    Filled (innerQuery (s.query outer first labelled c)) := by
  cases h with
  | mk houtput hjoins hfilter hgrouping hordering =>
      have hjoined : Filled (if (s.query outer first labelled c).tables.isEmpty then []
          else innerJoins c.joins) := by
        split
        · exact nil
        · exact joins hjoins
      exact append (append (append (append (results houtput) hjoined) (optional hfilter))
        (grouping hgrouping)) (ordering hordering)

theorem lawful_plain : invariant.Lawful plainColumn where
  congruence := congruence
  column h := by
    cases (plainColumn_eq_ok h).1 <;> exact cons rfl nil
  query _ h := of_clauses h

theorem lawful_overridden (dialect : Dialect) : invariant.Lawful (overriddenColumn dialect) where
  congruence := congruence
  column h := by
    rcases overriddenColumn_eq_ok h with ⟨scope, a, body, t, -, -, -, ht, rfl⟩ | ⟨-, h⟩
    · exact cons rfl (exprWith_keeps lawful_plain body ht)
    · exact lawful_plain.column h
  query _ h := of_clauses h

end Filled

theorem Command.subterms_of_change {command : Command} (h : command.isQuery = false) :
    command.subterms = innerAll command.operands := by
  cases command with
  | query q => cases h
  | insert | update | delete | createIndex | dropIndex => rfl

/-- No list is empty in what a statement resolves to. -/
theorem Statement.filled_of_resolve {s : Statement} {dialect : Dialect} {command : Command}
    (h : s.resolve dialect = .ok command) : Filled command.subterms := by
  cases hchange : s.isSelect with
  | true =>
      cases s with
      | select s =>
          obtain ⟨q, next, hselect, hresolve⟩ | ⟨e, next, -, hresolve⟩ := s.resolve_cases dialect
          · rw [hresolve] at h
            cases h
            exact Resolve.selectWith_keeps (Filled.lawful_overridden dialect) true s hselect
          · rw [hresolve] at h
            cases h
      | insert | update | delete | createIndex | dropIndex => cases hchange
  | false =>
      obtain ⟨hquery, first, last, hoperands⟩ := operands_resolved h
      rw [Command.subterms_of_change (hquery.trans hchange)]
      exact Filled.all (hoperands.mono fun e _ _ _ he =>
        Resolve.exprWith_keeps (Filled.lawful_overridden dialect) e he)

end RecordStore
