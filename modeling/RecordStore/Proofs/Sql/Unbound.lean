import RecordStore.Proofs.Sql.Relabelling
import RecordStore.Proofs.Sql.SearchColumns

/-! # Terms that bind nothing

If a term binds nothing, no term inside it does.  Then nothing is searched for in it, since a search
binds what is searched for, and the term stays whole if its functions have the names of functions
(`Term.stayWhole_of_unbound`). -/

namespace RecordStore

/-- None of these terms binds anything. -/
abbrev Unbound (dialect : Dialect) (ts : List Term) : Prop := ∀ t ∈ ts, t.bindings dialect = []

variable {dialect : Dialect}

theorem unbound_cons {t : Term} {ts : List Term} (ht : t.bindings dialect = [])
    (h : Unbound dialect ts) : Unbound dialect (t :: ts) := List.forall_mem_cons.mpr ⟨ht, h⟩

theorem unbound_append {ts ts' : List Term} (h : Unbound dialect ts) (h' : Unbound dialect ts') :
    Unbound dialect (ts ++ ts') := List.forall_mem_append.mpr ⟨h, h'⟩

/-- A search binds what is searched for, if it has columns. -/
theorem searched_of_unbound {mode : SearchMode} {columns : List Term} {query : String}
    (h : (Term.search mode columns query).bindings dialect = []) : columns = [] := by
  rw [Term.bindings, Term.lexemes] at h
  cases dialect with
  | postgres => cases mode <;> simp [searchLexemes, searchQuery] at h
  | mysql => simp [searchLexemes] at h
  | generic | sqlite =>
      cases columns with
      | nil => rfl
      | cons c columns =>
          rw [searchLexemes_tests rfl, bindings_testsLexemes, termsLexemes, List.map_cons,
            List.flatMap_cons, bindings_likeTest] at h
          simp at h

mutual

theorem Term.unbound_inner : ∀ t : Term, t.bindings dialect = [] → Unbound dialect t.inner
  | .column .. | .definition .. | .missing _ | .literal _ | .param _ | .interval .. | .wildcard
  | .inNothing _ => fun _ => List.forall_mem_nil _
  | .override source owner body => fun h =>
    have hbody := (Term.bindings_override dialect source owner body).symm.trans h
    unbound_cons hbody (Term.unbound_inner body hbody)
  | .call function args => fun h =>
    unbound_innerAll args ((Term.bindings_call dialect function args).symm.trans h)
  | .binary op left right => fun h => by
    rw [Term.bindings_binary, List.append_eq_nil_iff] at h
    exact unbound_append (unbound_cons h.1 (Term.unbound_inner left h.1))
      (unbound_cons h.2 (Term.unbound_inner right h.2))
  | .logical op operands => fun h =>
    unbound_innerAll operands ((Term.bindings_logical dialect op operands).symm.trans h)
  | .not operand => fun h => by
    rw [Term.bindings_not] at h
    exact unbound_cons h (Term.unbound_inner operand h)
  | .isNull _ operand => fun h => by
    rw [Term.bindings_isNull] at h
    exact unbound_cons h (Term.unbound_inner operand h)
  | .inChunks _ chunks => fun h => by
    rw [Term.bindings_inChunks] at h
    exact unbound_innerChunks chunks h
  | .inArray _ operand _ => fun h => by
    rw [Term.bindings_inArray, List.append_eq_nil_iff] at h
    exact unbound_cons h.1 (Term.unbound_inner operand h.1)
  | .inTerms _ operand items => fun h => by
    rw [Term.bindings_inTerms, List.append_eq_nil_iff] at h
    exact unbound_append (unbound_cons h.1 (Term.unbound_inner operand h.1))
      (unbound_innerAll items h.2)
  | .inQuery _ operand query => fun h => by
    rw [Term.bindings_inQuery, List.append_eq_nil_iff] at h
    exact unbound_append (unbound_cons h.1 (Term.unbound_inner operand h.1))
      (unbound_innerQuery query h.2)
  | .caseWhen operand branches otherwise => fun h => by
    rw [Term.bindings_caseWhen, List.append_eq_nil_iff, List.append_eq_nil_iff] at h
    obtain ⟨⟨hoperand, hbranches⟩, hotherwise⟩ := h
    exact unbound_append (unbound_append (unbound_innerOptional operand hoperand)
      (unbound_innerBranches branches hbranches)) (unbound_innerOptional otherwise hotherwise)
  | .search _ columns _ => fun h => by
    rw [searched_of_unbound h]
    exact List.forall_mem_nil _
  | .temporal _ operand => fun h => by
    rw [Term.bindings_temporal] at h
    exact unbound_cons h (Term.unbound_inner operand h)
  | .subquery query => fun h =>
    unbound_innerQuery query ((Term.bindings_subquery dialect query).symm.trans h)
  | .existsRow query => fun h =>
    unbound_innerQuery query ((Term.bindings_existsRow dialect query).symm.trans h)

theorem unbound_innerAll : ∀ ts : List Term, termsBindings dialect ts = [] →
    Unbound dialect (innerAll ts)
  | [] => fun _ => List.forall_mem_nil _
  | t :: ts => fun h => by
    rw [termsBindings, List.flatMap_cons, List.append_eq_nil_iff] at h
    exact unbound_append (unbound_cons h.1 (t.unbound_inner h.1)) (unbound_innerAll ts h.2)

theorem unbound_innerOptional : ∀ t? : Option Term, optionalBindings dialect t? = [] →
    Unbound dialect (innerOptional t?)
  | none => fun _ => List.forall_mem_nil _
  | some t => fun h => by
    rw [optionalBindings, Option.toList_some, List.flatMap_singleton] at h
    exact unbound_cons h (t.unbound_inner h)

theorem unbound_innerBranches : ∀ branches : List (Term × Term),
    branchesBindings dialect branches = [] → Unbound dialect (innerBranches branches)
  | [] => fun _ => List.forall_mem_nil _
  | (condition, result) :: rest => fun h => by
    rw [branchesBindings, List.flatMap_cons, List.append_eq_nil_iff, List.append_eq_nil_iff] at h
    obtain ⟨⟨hcondition, hresult⟩, hrest⟩ := h
    exact unbound_append (unbound_append
      (unbound_cons hcondition (condition.unbound_inner hcondition))
      (unbound_cons hresult (result.unbound_inner hresult))) (unbound_innerBranches rest hrest)

theorem unbound_innerChunks : ∀ chunks : List (Term × List Value),
    (chunks.flatMap fun c => c.1.bindings dialect ++ c.2.map Binding.value) = [] →
      Unbound dialect (innerChunks chunks)
  | [] => fun _ => List.forall_mem_nil _
  | (operand, _) :: rest => fun h => by
    rw [List.flatMap_cons, List.append_eq_nil_iff, List.append_eq_nil_iff] at h
    exact unbound_append (unbound_cons h.1.1 (operand.unbound_inner h.1.1))
      (unbound_innerChunks rest h.2)

theorem unbound_innerOutput : ∀ columns : List (FieldExprOf Term),
    outputBindings dialect columns = [] → Unbound dialect (innerOutput columns)
  | [] => fun _ => List.forall_mem_nil _
  | { expr, .. } :: rest => fun h => by
    rw [outputBindings, List.flatMap_cons, List.append_eq_nil_iff] at h
    exact unbound_append (unbound_cons h.1 (expr.unbound_inner h.1))
      (unbound_innerOutput rest h.2)

theorem unbound_innerJoins : ∀ joins : List (JoinedTableOf Term),
    joinsBindings dialect joins = [] → Unbound dialect (innerJoins joins)
  | [] => fun _ => List.forall_mem_nil _
  | { on, .. } :: rest => fun h => by
    rw [joinsBindings, List.flatMap_cons, List.append_eq_nil_iff] at h
    exact unbound_append (unbound_cons h.1 (on.unbound_inner h.1)) (unbound_innerJoins rest h.2)

theorem unbound_innerSortKeys : ∀ keys : List (SortKeyOf Term),
    sortKeysBindings dialect keys = [] → Unbound dialect (innerSortKeys keys)
  | [] => fun _ => List.forall_mem_nil _
  | { expr, .. } :: rest => fun h => by
    rw [sortKeysBindings, List.flatMap_cons, List.append_eq_nil_iff] at h
    exact unbound_append (unbound_cons h.1 (expr.unbound_inner h.1))
      (unbound_innerSortKeys rest h.2)

theorem unbound_innerResults : ∀ columns : Option (List (FieldExprOf Term)),
    resultsBindings dialect columns = [] → Unbound dialect (innerResults columns)
  | none => fun _ => List.forall_mem_nil _
  | some columns => fun h => by
    rw [resultsBindings, Option.toList_some, List.flatMap_singleton] at h
    exact unbound_innerOutput columns h

theorem unbound_innerGrouping : ∀ grouping : Option (List Term),
    groupingBindings dialect grouping = [] → Unbound dialect (innerGrouping grouping)
  | none => fun _ => List.forall_mem_nil _
  | some ts => fun h => by
    rw [groupingBindings, Option.toList_some, List.flatMap_singleton] at h
    exact unbound_innerAll ts h

theorem unbound_innerOrdering : ∀ ordering : Option (List (SortKeyOf Term)),
    orderingBindings dialect ordering = [] → Unbound dialect (innerOrdering ordering)
  | none => fun _ => List.forall_mem_nil _
  | some keys => fun h => by
    rw [orderingBindings, Option.toList_some, List.flatMap_singleton] at h
    exact unbound_innerSortKeys keys h

theorem unbound_innerQuery : ∀ q : QueryOf Term, Query.bindings dialect q = [] →
    Unbound dialect (innerQuery q)
  | { record, scope, counted, labelled, distinct, output, tables, joins, filter, grouping, ordering,
      limit, locking } => fun h => by
    rw [Query.bindings_eq] at h
    simp only [List.append_eq_nil_iff] at h
    obtain ⟨⟨⟨⟨⟨houtput, hjoins⟩, hfilter⟩, hgrouping⟩, hordering⟩, -⟩ := h
    have hjoined : Unbound dialect (if tables.isEmpty then [] else innerJoins joins) := by
      cases htables : tables.isEmpty with
      | true => exact List.forall_mem_nil _
      | false =>
          rw [htables] at hjoins
          exact unbound_innerJoins joins hjoins
    exact unbound_append (unbound_append (unbound_append (unbound_append
      (unbound_innerResults output houtput) hjoined) (unbound_innerOptional filter hfilter))
      (unbound_innerGrouping grouping hgrouping)) (unbound_innerOrdering ordering hordering)

end

/-- A term that binds nothing searches nothing, and stays whole if its functions have the names of
functions. -/
theorem Term.stayWhole_of_unbound {t : Term} (hbindings : t.bindings dialect = [])
    (hfilled : Filled t.subterms)
    (hnames : ∀ s ∈ t.subterms, ∀ f ∈ s.function?, isFunctionName f = true) :
    StayWhole t.subterms := by
  have hunbound : Unbound dialect t.subterms := unbound_cons hbindings (t.unbound_inner hbindings)
  intro s hs
  refine (staysWhole_iff (hfilled s hs)).mpr ⟨hnames s hs, ?_⟩
  cases s with
  | search mode columns query =>
      have hcolumns : columns = [] := searched_of_unbound (hunbound _ hs)
      rw [searched, hcolumns]
      exact List.forall_mem_nil _
  | _ => exact List.forall_mem_nil _

end RecordStore
