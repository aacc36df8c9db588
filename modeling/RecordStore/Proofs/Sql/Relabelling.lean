import RecordStore.Proofs.Sql.Bindings
import RecordStore.Proofs.Sql.Listing
import RecordStore.Proofs.Sql.Parallel
import RecordStore.Proofs.Sql.Patterns

/-! # Resolving again

Whether an expression resolves, and what it then binds, does not depend on the aliases: not on those
that are free, and not on those that the scopes around it give to their record types.  So an
expression that has been resolved can be resolved again further on, and it binds the same
(`Resolve.expr_again`). -/

namespace RecordStore

open Lexeme

/-! ### Scopes under other aliases -/

namespace Scope

/-- The scopes list the same record types, each under an alias of its own.  What overrides fields in
the first scope comes from what does so in the second. -/
structure Relabelled (overrides : List FieldExpr → List FieldExpr) (s s' : Scope) : Prop where
  records : s.entries.map (·.1) = s'.entries.map (·.1)
  selected : s.selected = s'.selected
  overridden : s.overrides = overrides s'.overrides

/-- Around both places the scopes correspond. -/
abbrev AllRelabelled (overrides : List FieldExpr → List FieldExpr) : Scopes → Scopes → Prop :=
  List.Forall₂ (Relabelled overrides)

variable {overrides : List FieldExpr → List FieldExpr} {scopes scopes' : Scopes}

theorem AllRelabelled.refl (scopes : Scopes) : AllRelabelled id scopes scopes :=
  List.forall₂_same.mpr fun _ _ => ⟨rfl, rfl, rfl⟩

theorem Relabelled.overrideOf {s s' : Scope} (h : Relabelled id s s') (c : ColumnRef) :
    s.overrideOf? c = s'.overrideOf? c := by
  unfold overrideOf?
  rw [h.selected, h.overridden]
  rfl

/-- A record type belongs to corresponding scopes in both places, or to none. -/
theorem AllRelabelled.owner (h : AllRelabelled overrides scopes scopes') (r : RecordType) :
    Option.Rel (fun o o' => Relabelled overrides o.1 o'.1)
      (owner? scopes r) (owner? scopes' r) := by
  induction h with
  | nil => exact .none
  | @cons s s' outer outer' hs _ ih =>
      have halias : (s.aliasOf? r).isSome = (s'.aliasOf? r).isSome := by
        rw [isSome_aliasOf, isSome_aliasOf, hs.records]
      unfold owner?
      cases ha : s.aliasOf? r with
      | none =>
          rw [ha] at halias
          rw [Option.not_isSome_iff_eq_none.mp (ne_true_of_eq_false halias.symm)]
          exact ih
      | some a =>
          rw [ha] at halias
          obtain ⟨a', ha'⟩ := Option.isSome_iff_exists.mp halias.symm
          rw [ha']
          exact .some hs

theorem AllRelabelled.lists (h : AllRelabelled overrides scopes scopes') (r : RecordType) :
    Scope.lists scopes r = Scope.lists scopes' r := by
  have howner := h.owner r
  rw [← isSome_owner, ← isSome_owner]
  generalize owner? scopes r = o at howner
  generalize owner? scopes' r = o' at howner
  cases howner <;> rfl

theorem AllRelabelled.scopeRecords (h : AllRelabelled id scopes scopes') (s : Select) :
    s.scopeRecords scopes' = s.scopeRecords scopes :=
  s.scopeRecords_congr fun r _ => (h.lists r).symm

/-- Inside a query too. -/
theorem AllRelabelled.push (h : AllRelabelled id scopes scopes') (s : Select) (next next' : Alias) :
    AllRelabelled id (s.innerScopes scopes next) (s.innerScopes scopes' next') := by
  refine .cons ⟨?_, rfl, rfl⟩ h
  exact (s.entries_records scopes next).trans
    ((h.scopeRecords s).symm.trans (s.entries_records scopes' next').symm)

/-- Whether a query reads a table without a join is the same in both places. -/
theorem AllRelabelled.isEmpty_tableItems (h : AllRelabelled id scopes scopes') (s : Select)
    (next next' : Alias) : (s.tableItems (s.entries scopes' next')).isEmpty =
      (s.tableItems (s.entries scopes next)).isEmpty := by
  rw [s.isEmpty_tableItems, s.isEmpty_tableItems, s.entries_records, s.entries_records,
    h.scopeRecords s]

end Scope

/-! ### What tests and searches bind -/

section

variable {dialect : Dialect}

/-- A search binds the same where its columns do. -/
theorem bindings_searchLexemes_congr {columns columns' : List (List Lexeme)}
    (h : List.Forall₂ (fun c c' => bindings c' = bindings c) columns columns') (mode : SearchMode)
    (query : String) : bindings (searchLexemes dialect mode query columns') =
      bindings (searchLexemes dialect mode query columns) := by
  have hcolumns : columns'.flatMap bindings = columns.flatMap bindings := flatMap_eq_of_forall h
  cases dialect with
  | postgres =>
      cases mode <;> simp [searchLexemes, searchDocument, searchQuery, textLiteral, hcolumns]
  | mysql => simp [searchLexemes, hcolumns]
  | generic | sqlite =>
      rw [searchLexemes_tests rfl, searchLexemes_tests rfl, bindings_testsLexemes,
        bindings_testsLexemes, List.flatMap_map, List.flatMap_map]
      exact flatMap_eq_of_forall (h.imp fun _ _ hc => by
        rw [bindings_likeTest, bindings_likeTest, hc])

/-- A test against a list in pieces binds its operand and the values of the piece, one piece after
the other. -/
theorem Term.bindings_inChunks (negated : Bool) (cs : List (Term × List Value)) :
    (inChunks negated cs).bindings dialect =
      cs.flatMap fun c => c.1.bindings dialect ++ c.2.map .value := by
  have hvalues (values : List Value) : Lexeme.bindings (valueLexemes values) =
      values.map .value := by
    rw [valueLexemes, bindings_commaSeparated, List.flatMap_map]
    exact List.flatMap_pure_eq_map _ _
  have hpieces : (chunksLexemes dialect negated cs).flatMap Lexeme.bindings =
      cs.flatMap fun c => c.1.bindings dialect ++ c.2.map .value := by
    induction cs with
    | nil => rfl
    | cons c cs ih =>
        rw [chunksLexemes, List.flatMap_cons, ih, bindings_membership, bindings_grouped, hvalues,
          List.flatMap_cons]
        rfl
  rw [bindings, lexemes, chunkLexemes, bindings_grouped, bindings_wordSeparated, hpieces]

theorem Term.bindings_inArray (negated : Bool) (operand : Term) (values : List Value) :
    (inArray negated operand values).bindings dialect =
      operand.bindings dialect ++ [.value (.array values)] := by
  rw [bindings, lexemes]
  cases negated <;> simp

end

/-! ### The correspondence -/

namespace Resolve

/-- What is resolved in both places binds the same. -/
def sameBindings (dialect : Dialect) : Comparison where
  Free _ _ := True
  Labels _ _ := True
  Around := Scope.AllRelabelled id
  Terms _ t t' := t'.bindings dialect = t.bindings dialect
  Queries _ q q' := q'.bindings dialect = q.bindings dialect
  Admits _ := True

variable {dialect : Dialect}

section

variable {scopes : Scopes}

/-- What corresponding parts bind alike, they bind alike where they are missing too. -/
theorem optional_flatMap_eq {α β γ : Type} {R : α → β → Prop} {f : α → List γ} {g : β → List γ}
    (hfg : ∀ a b, R a b → g b = f a) {a? : Option α} {b? : Option β} (h : Option.Rel R a? b?) :
    b?.toList.flatMap g = a?.toList.flatMap f := by
  cases h with
  | none => rfl
  | @some a b h => simpa using hfg a b h

theorem termsBindings_of_forall (ts ts' : List Term)
    (h : List.Forall₂ ((sameBindings dialect).Terms scopes) ts ts') :
    termsBindings dialect ts' = termsBindings dialect ts := flatMap_eq_of_forall h

theorem optionalBindings_of_rel {t? t?' : Option Term}
    (h : Option.Rel ((sameBindings dialect).Terms scopes) t? t?') :
    optionalBindings dialect t?' = optionalBindings dialect t? :=
  optional_flatMap_eq (fun _ _ ht => ht) h

theorem searchBindings_of_forall {ts ts' : List Term}
    (h : List.Forall₂ ((sameBindings dialect).Terms scopes) ts ts') (mode : SearchMode)
    (query : String) : (Term.search mode ts' query).bindings dialect =
      (Term.search mode ts query).bindings dialect := by
  rw [Term.bindings, Term.lexemes, Term.bindings, Term.lexemes, termsLexemes_eq_map,
    termsLexemes_eq_map]
  exact bindings_searchLexemes_congr (List.forall₂_map_left_iff.mpr
    (List.forall₂_map_right_iff.mpr h)) mode query

end

theorem sameBindings_congruence (scopes : Scopes) : (sameBindings dialect).Congruence scopes where
  literal _ := rfl
  param _ := rfl
  interval _ _ := rfl
  wildcard := rfl
  inNothing _ := rfl
  call hargs := by simpa [sameBindings] using termsBindings_of_forall _ _ hargs
  binary hleft hright := by simp_all [sameBindings]
  logical hoperands := by simpa [sameBindings] using termsBindings_of_forall _ _ hoperands
  not h := by simpa [sameBindings] using h
  isNull h := by simpa [sameBindings] using h
  inChunks hchunks := by
    simp only [sameBindings, Term.bindings_inChunks]
    exact flatMap_eq_of_forall (hchunks.imp fun _ _ ⟨hoperand, hvalues⟩ => by
      rw [hvalues]
      exact congrArg (· ++ _) hoperand)
  inArray h := by simpa [sameBindings, Term.bindings_inArray] using h
  inTerms h hitems := by
    simpa [sameBindings, termsBindings_of_forall _ _ hitems] using h
  inQuery h hquery := by simp_all [sameBindings]
  caseWhen hoperand hbranches hotherwise := by
    have hbranches' := flatMap_eq_of_forall (hbranches.imp fun _ _ ⟨hcondition, hresult⟩ =>
      congrArg₂ (· ++ ·) hcondition hresult)
    simp only [sameBindings, Term.bindings_caseWhen, optionalBindings_of_rel hoperand,
      optionalBindings_of_rel hotherwise]
    exact congrArg (fun bs => _ ++ bs ++ _) hbranches'
  search hcolumns := searchBindings_of_forall hcolumns _ _
  temporal h := by simpa [sameBindings] using h
  subquery h := by simpa [sameBindings] using h
  existsRow h := by simpa [sameBindings] using h

/-- A query binds what its clauses bind, wherever it is resolved. -/
theorem queryBindings_of_clauses {outer outer' : Scopes} {next next' : Alias} {c c' : Clauses}
    (s : Select) (labelled : Bool) (h : Scope.AllRelabelled id outer outer')
    (hclauses : (sameBindings dialect).Clauses (s.innerScopes outer next) c c') :
    (s.query outer' next' labelled c').bindings dialect =
      (s.query outer next labelled c).bindings dialect := by
  have houtput : resultsBindings dialect c'.output = resultsBindings dialect c.output :=
    optional_flatMap_eq (fun _ _ hcolumns =>
      flatMap_eq_of_forall (hcolumns.imp fun _ _ hcolumn => hcolumn.2)) hclauses.output
  have hjoins : joinsBindings dialect c'.joins = joinsBindings dialect c.joins :=
    flatMap_eq_of_forall (hclauses.joins.imp fun _ _ hjoin => hjoin.2.2.2.2)
  have hgrouping : groupingBindings dialect c'.grouping = groupingBindings dialect c.grouping :=
    optional_flatMap_eq termsBindings_of_forall hclauses.grouping
  have hordering : orderingBindings dialect c'.ordering = orderingBindings dialect c.ordering :=
    optional_flatMap_eq (fun _ _ hkeys =>
      flatMap_eq_of_forall (hkeys.imp fun _ _ hkey => hkey.1)) hclauses.ordering
  rw [Query.bindings_eq, Query.bindings_eq]
  unfold Select.query
  dsimp only
  rw [h.isEmpty_tableItems s next next', houtput, hjoins, optionalBindings_of_rel hclauses.filter,
    hgrouping, hordering, hclauses.limit]

/-- A query can be entered where the scopes around it correspond. -/
theorem enterable_of_relabelled {outer outer' : Scopes} {s : Select} {next : Alias}
    (h : Scope.AllRelabelled id outer outer') (next' : Alias) (henter : s.Enterable outer next) :
    s.Enterable outer' next' := by
  refine ⟨(h.lists s.record).symm.trans henter.unlisted, ?_⟩
  rw [h.isEmpty_tableItems s next next']
  exact henter.joinable

theorem sameBindings_lawful_of_column {rule : ColumnRule}
    (hcolumn : ∀ {scopes scopes'} (c : ColumnRef), Scope.AllRelabelled id scopes scopes' →
      Parallel True (fun _ _ => True) (fun t t' => t'.bindings dialect = t.bindings dialect)
        (rule scopes c) (rule scopes' c)) :
    (sameBindings dialect).Lawful True rule rule where
  congruence := sameBindings_congruence
  column := hcolumn
  owner {scopes scopes' r scope a} h howner := by
    have hrel := h.owner r
    rw [howner] at hrel
    generalize Scope.owner? scopes' r = o' at hrel
    cases hrel with
    | @some _ o' _ => exact ⟨o'.1, o'.2, rfl, trivial⟩
  enterable _ _ _ _ _ next' h _ _ henter := enterable_of_relabelled h next' henter
  enter s h _ _ := ⟨h.push s _ _, trivial⟩
  query s labelled h _ _ hclauses := queryBindings_of_clauses s labelled h hclauses

theorem plainColumn_sameBindings {scopes scopes' : Scopes}
    (h : Scope.AllRelabelled id scopes scopes') (c : ColumnRef) :
    Parallel True (fun _ _ => True) (fun t t' => t'.bindings dialect = t.bindings dialect)
      (plainColumn scopes c) (plainColumn scopes' c) := by
  refine plainColumn_parallel (fun _ => rfl) rfl fun {scope a} howner => ?_
  have hrel := h.owner c.record
  rw [howner] at hrel
  generalize Scope.owner? scopes' c.record = o' at hrel
  cases hrel with
  | @some _ o' _ => exact ⟨o'.1, o'.2, rfl, fun name => by simp⟩

/-- Whether overrides are applied or not, fields bind the same in both places. -/
theorem columnRule_sameBindings (dialect : Dialect) (overriding : Bool) :
    (sameBindings dialect).Lawful True (columnRule dialect overriding)
      (columnRule dialect overriding) := by
  have hplain : (sameBindings dialect).Lawful True plainColumn plainColumn :=
    sameBindings_lawful_of_column fun c h => plainColumn_sameBindings h c
  cases overriding with
  | false => exact hplain
  | true =>
      refine sameBindings_lawful_of_column fun {scopes scopes'} c h => ?_
      change Parallel True _ _ (overriddenColumn dialect scopes c)
        (overriddenColumn dialect scopes' c)
      unfold overriddenColumn
      refine .ofExcept_bind _ fun field _ => ?_
      have hrel := h.owner c.record
      generalize Scope.owner? scopes c.record = o at hrel
      generalize Scope.owner? scopes' c.record = o' at hrel
      cases hrel with
      | none => exact plainColumn_sameBindings h c
      | @some o o' hscope =>
          dsimp only
          rw [hscope.overrideOf c]
          cases o'.1.overrideOf? c with
          | none => exact plainColumn_sameBindings h c
          | some body =>
              refine (exprWith_parallel hplain h body fun _ _ => trivial).bind
                fun t t' ht => .pure ?_
              rw [Term.bindings_override, Term.bindings_override]
              exact ht

/-- Where every step over a list succeeds whatever aliases are free, the steps succeed one after the
other. -/
theorem exists_mapM_eq_ok {β γ : Type} {f : β → Resolve γ} {as : List β} {p : β → γ → Prop}
    (h : ∀ a ∈ as, ∀ next, ∃ c n, f a next = .ok c n ∧ p a c) (next : Alias) :
    ∃ cs n, as.mapM f next = .ok cs n ∧ List.Forall₂ p as cs := by
  induction as generalizing next with
  | nil => exact ⟨[], next, rfl, .nil⟩
  | cons a as ih =>
      obtain ⟨c, m, hc, hp⟩ := h a List.mem_cons_self next
      obtain ⟨cs, n, hcs, hps⟩ := ih (fun a' ha' => h a' (List.mem_cons_of_mem a ha')) m
      exact ⟨c :: cs, n, mapM_cons_eq_ok.mpr ⟨c, cs, m, hc, hcs, rfl⟩, .cons hp hps⟩

/-- An expression that has been resolved can be resolved again whatever aliases are free, and it
binds the same. -/
theorem expr_again {overriding : Bool} {scopes : Scopes} {e : Expr} {t : Term} {next n : Alias}
    (h : expr dialect overriding scopes e next = .ok t n) (next' : Alias) :
    ∃ t' n', expr dialect overriding scopes e next' = .ok t' n' ∧
      t'.bindings dialect = t.bindings dialect := by
  have hparallel : Parallel True (fun _ _ => True)
      (fun t t' => t'.bindings dialect = t.bindings dialect)
      (expr dialect overriding scopes e) (expr dialect overriding scopes e) :=
    exprWith_parallel (columnRule_sameBindings dialect overriding)
      (Scope.AllRelabelled.refl scopes) e fun _ _ => trivial
  have hagain : ∃ t' n', expr dialect overriding scopes e next' = .ok t' n' :=
    hparallel.succeeds trivial trivial h
  obtain ⟨t', n', ht'⟩ := hagain
  exact ⟨t', n', ht', (hparallel.agree trivial h ht').2⟩

end Resolve

end RecordStore
