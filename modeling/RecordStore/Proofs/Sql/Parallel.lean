import Mathlib.Data.List.Forall2
import Mathlib.Data.Option.Basic
import RecordStore.Proofs.Sql.Inversion
import RecordStore.Proofs.Sql.Nested

/-! # Resolving the same in two places

An expression that is resolved twice, in different scopes and with different aliases free, gives
terms that have much in common.  `Parallel total Free post x y` compares two steps of resolving: if
the first succeeds, so does the second in the total sense, and where both succeed the results are as
`post` asks and the aliases that are free afterwards correspond as `Free` says.

What two places have to do with one another is described by a `Comparison`: which aliases, scopes,
terms and queries correspond.  If the correspondence is kept by the ways of building terms and by
entering a query (`Comparison.Lawful`), it holds of the results wherever the same expression is
resolved (`exprWith_parallel`, `selectWith_parallel`). -/

namespace RecordStore

namespace Resolve

variable {β β' γ γ' : Type} {total : Prop} {Free : Alias → Alias → Prop}

/-! ### Two steps -/

/-- From aliases that correspond: if the first step succeeds, the second one does, if total; and
where both succeed, the results are as asked. -/
structure Parallel (total : Prop) (Free : Alias → Alias → Prop) (post : β → γ → Prop)
    (x : Resolve β) (y : Resolve γ) : Prop where
  succeeds : total → ∀ {next next' b n}, Free next next' → x next = .ok b n →
    ∃ c n', y next' = .ok c n'
  agree : ∀ {next next' b n c n'}, Free next next' → x next = .ok b n → y next' = .ok c n' →
    Free n n' ∧ post b c

namespace Parallel

variable {post : β → γ → Prop} {post' : β' → γ' → Prop}

theorem pure {b : β} {c : γ} (h : post b c) :
    Parallel total Free post (Pure.pure b) (Pure.pure c) where
  succeeds _ _ next' _ _ _ _ := ⟨c, next', rfl⟩
  agree hfree hx hy := by
    obtain ⟨rfl, rfl⟩ := pure_eq_ok.mp hx
    obtain ⟨rfl, rfl⟩ := pure_eq_ok.mp hy
    exact ⟨hfree, h⟩

/-- A step that never succeeds. -/
theorem of_ne_ok {x : Resolve β} {y : Resolve γ} (h : ∀ next b n, x next ≠ .ok b n) :
    Parallel total Free post x y where
  succeeds _ _ _ _ _ _ hx := absurd hx (h _ _ _)
  agree _ hx _ := absurd hx (h _ _ _)

theorem throw {e : StatementError} {y : Resolve γ} :
    Parallel total Free post (MonadExcept.throw e) y := of_ne_ok fun _ _ _ => throw_ne_ok

theorem fault {f : ClauseFault} {y : Resolve γ} : Parallel total Free post (Resolve.fault f) y :=
  throw

theorem bind {x : Resolve β} {y : Resolve γ} {f : β → Resolve β'} {g : γ → Resolve γ'}
    (hx : Parallel total Free post x y)
    (hf : ∀ b c, post b c → Parallel total Free post' (f b) (g c)) :
    Parallel total Free post' (x >>= f) (y >>= g) where
  succeeds ht _ _ _ _ hfree heq := by
    obtain ⟨b, m, hb, hrest⟩ := bind_eq_ok.mp heq
    obtain ⟨c, m', hc⟩ := hx.succeeds ht hfree hb
    obtain ⟨hfree', hpost⟩ := hx.agree hfree hb hc
    obtain ⟨c', n', hc'⟩ := (hf b c hpost).succeeds ht hfree' hrest
    exact ⟨c', n', bind_eq_ok.mpr ⟨c, m', hc, hc'⟩⟩
  agree hfree heq heq' := by
    obtain ⟨b, m, hb, hrest⟩ := bind_eq_ok.mp heq
    obtain ⟨c, m', hc, hrest'⟩ := bind_eq_ok.mp heq'
    obtain ⟨hfree', hpost⟩ := hx.agree hfree hb hc
    exact (hf b c hpost).agree hfree' hrest hrest'

/-- What was computed beforehand is the same on both sides. -/
theorem ofExcept_bind (x : Except StatementError β) {f : β → Resolve β'} {g : β → Resolve γ'}
    (h : ∀ b, x = .ok b → Parallel total Free post' (f b) (g b)) :
    Parallel total Free post' (MonadExcept.ofExcept x >>= f) (MonadExcept.ofExcept x >>= g) := by
  cases x with
  | ok b => exact h b rfl
  | error e => exact of_ne_ok fun _ _ _ hx => by cases hx

theorem mapM {f : β' → Resolve β} {g : β' → Resolve γ} (as : List β')
    (h : ∀ a, Parallel total Free post (f a) (g a)) :
    Parallel total Free (List.Forall₂ post) (as.mapM f) (as.mapM g) := by
  induction as with
  | nil => exact .pure .nil
  | cons a as ih =>
      rw [List.mapM_cons, List.mapM_cons]
      exact (h a).bind fun b c hbc => ih.bind fun bs cs hbcs => .pure (.cons hbc hbcs)

theorem optionally {f : β' → Resolve β} {g : β' → Resolve γ}
    (h : ∀ a, Parallel total Free post (f a) (g a)) : ∀ a? : Option β',
    Parallel total Free (Option.Rel post) (Resolve.optionally f a?) (Resolve.optionally g a?)
  | none => .pure .none
  | some a => (h a).bind fun _ _ hbc => .pure (.some hbc)

theorem getD {x? : Option (Resolve β)} {y? : Option (Resolve γ)} {x : Resolve β} {y : Resolve γ}
    (h? : Option.Rel (Parallel total Free post) x? y?) (h : Parallel total Free post x y) :
    Parallel total Free post (x?.getD x) (y?.getD y) := by
  cases h? with
  | none => exact h
  | some h => exact h

end Parallel

/-! ### Single parts -/

theorem limitNumber_parallel (part : LimitPart) (n : Nat) :
    Parallel total Free Eq (limitNumber part n) (limitNumber part n) := by
  unfold limitNumber
  split
  · exact .pure rfl
  · exact .fault

theorem window_parallel (l : Limit) : Parallel total Free Eq (window l) (window l) := by
  unfold window
  refine (limitNumber_parallel _ _).bind fun count count' hcount => ?_
  subst hcount
  split
  · refine (limitNumber_parallel _ _).bind fun offset offset' hoffset => ?_
    subst hoffset
    exact .pure rfl
  · exact .pure rfl

theorem interval_parallel {post : Term → Term → Prop} (dialect : Dialect) {amount : Int64}
    {unit : CalendarUnit} (h : post (.interval amount unit) (.interval amount unit)) :
    Parallel total Free post (interval dialect amount unit) (interval dialect amount unit) := by
  unfold interval
  cases dialect with
  | postgres | mysql => exact .pure h
  | generic | sqlite =>
      dsimp only
      split
      · exact .of_ne_ok fun _ _ _ hx => by cases hx
      · exact .pure h

theorem literal_parallel {post : Term → Term → Prop} (dialect : Dialect) (v : Value)
    (h : ∀ l, post (.literal l) (.literal l)) :
    Parallel total Free post (literal dialect v) (literal dialect v) := by
  unfold literal
  split
  · exact .pure (h _)
  · exact .throw

/-- A field that is read as it is, where the owners of its record type correspond. -/
theorem plainColumn_parallel {post : Term → Term → Prop} {scopes scopes' : Scopes} {c : ColumnRef}
    (hdefinition : ∀ sql, post (.definition c sql) (.definition c sql))
    (hmissing : post (.missing c) (.missing c))
    (howner : ∀ {scope a}, Scope.owner? scopes c.record = some (scope, a) →
      ∃ scope' a', Scope.owner? scopes' c.record = some (scope', a') ∧ ∀ name,
        post (.column c (if scope.qualified then some a else none) name)
          (.column c (if scope'.qualified then some a' else none) name)) :
    Parallel total Free post (plainColumn scopes c) (plainColumn scopes' c) := by
  unfold plainColumn
  refine .ofExcept_bind _ fun field _ => ?_
  obtain ⟨name, column, kind⟩ := field
  cases kind with
  | computed definition required =>
      cases definition with
      | some sql => exact .pure (hdefinition sql)
      | none =>
          dsimp only
          split
          · exact .pure hmissing
          · exact .fault
  | stored | generated =>
      dsimp only
      split
      · exact .of_ne_ok fun _ _ _ hx => by cases hx
      · cases hscope : Scope.owner? scopes c.record with
        | none => exact .throw
        | some owner =>
            obtain ⟨scope', a', howner', hcolumn⟩ := howner hscope
            rw [howner']
            exact .pure (hcolumn column)

/-! ### Comparisons -/

/-- How two places correspond.  Terms and queries may correspond in a way that depends on the scopes
in which the first one stands. -/
structure Comparison where
  /-- The aliases that are free. -/
  Free : Alias → Alias → Prop
  /-- The aliases that tables have. -/
  Labels : Alias → Alias → Prop
  Around : Scopes → Scopes → Prop
  Terms : Scopes → Term → Term → Prop
  Queries : Scopes → Query → Query → Prop
  /-- What is known of the queries nested in the expressions that are compared. -/
  Admits : Select → Prop

namespace Comparison

variable (C : Comparison) (scopes : Scopes)

abbrev Branches (b b' : Term × Term) : Prop := C.Terms scopes b.1 b'.1 ∧ C.Terms scopes b.2 b'.2

abbrev Chunks (c c' : Term × List Value) : Prop := C.Terms scopes c.1 c'.1 ∧ c'.2 = c.2

abbrev Columns (c c' : FieldExprOf Term) : Prop :=
  c'.field = c.field ∧ C.Terms scopes c.expr c'.expr

abbrev SortKeys (k k' : SortKeyOf Term) : Prop :=
  C.Terms scopes k.expr k'.expr ∧ k'.descending = k.descending

abbrev Joins (j j' : JoinedTable) : Prop :=
  j'.kind = j.kind ∧ j'.item.record = j.item.record ∧ j'.item.table = j.item.table ∧
    C.Labels j.item.label j'.item.label ∧ C.Terms scopes j.on j'.on

/-- The correspondence is kept by the ways of building terms. -/
structure Congruence : Prop where
  literal : ∀ l, C.Terms scopes (.literal l) (.literal l)
  param : ∀ b, C.Terms scopes (.param b) (.param b)
  interval : ∀ amount unit, C.Terms scopes (.interval amount unit) (.interval amount unit)
  wildcard : C.Terms scopes .wildcard .wildcard
  inNothing : ∀ negated, C.Terms scopes (.inNothing negated) (.inNothing negated)
  call : ∀ {function args args'}, List.Forall₂ (C.Terms scopes) args args' →
    C.Terms scopes (.call function args) (.call function args')
  binary : ∀ {op left left' right right'}, C.Terms scopes left left' →
    C.Terms scopes right right' → C.Terms scopes (.binary op left right) (.binary op left' right')
  logical : ∀ {op operands operands'}, List.Forall₂ (C.Terms scopes) operands operands' →
    C.Terms scopes (.logical op operands) (.logical op operands')
  not : ∀ {t t'}, C.Terms scopes t t' → C.Terms scopes (.not t) (.not t')
  isNull : ∀ {negated t t'}, C.Terms scopes t t' →
    C.Terms scopes (.isNull negated t) (.isNull negated t')
  inChunks : ∀ {negated chunks chunks'}, List.Forall₂ (C.Chunks scopes) chunks chunks' →
    C.Terms scopes (.inChunks negated chunks) (.inChunks negated chunks')
  inArray : ∀ {negated t t' values}, C.Terms scopes t t' →
    C.Terms scopes (.inArray negated t values) (.inArray negated t' values)
  inTerms : ∀ {negated t t' items items'}, C.Terms scopes t t' →
    List.Forall₂ (C.Terms scopes) items items' →
    C.Terms scopes (.inTerms negated t items) (.inTerms negated t' items')
  inQuery : ∀ {negated t t' q q'}, C.Terms scopes t t' → C.Queries scopes q q' →
    C.Terms scopes (.inQuery negated t q) (.inQuery negated t' q')
  caseWhen : ∀ {operand operand' branches branches' otherwise otherwise'},
    Option.Rel (C.Terms scopes) operand operand' →
    List.Forall₂ (C.Branches scopes) branches branches' →
    Option.Rel (C.Terms scopes) otherwise otherwise' →
    C.Terms scopes (.caseWhen operand branches otherwise) (.caseWhen operand' branches' otherwise')
  search : ∀ {mode columns columns' query}, List.Forall₂ (C.Terms scopes) columns columns' →
    C.Terms scopes (.search mode columns query) (.search mode columns' query)
  temporal : ∀ {op t t'}, C.Terms scopes t t' → C.Terms scopes (.temporal op t) (.temporal op t')
  subquery : ∀ {q q'}, C.Queries scopes q q' → C.Terms scopes (.subquery q) (.subquery q')
  existsRow : ∀ {q q'}, C.Queries scopes q q' → C.Terms scopes (.existsRow q) (.existsRow q')

/-- The clauses of two queries correspond. -/
structure Clauses (c c' : Resolve.Clauses) : Prop where
  output : Option.Rel (List.Forall₂ (C.Columns scopes)) c.output c'.output
  joins : List.Forall₂ (C.Joins scopes) c.joins c'.joins
  filter : Option.Rel (C.Terms scopes) c.filter c'.filter
  grouping : Option.Rel (List.Forall₂ (C.Terms scopes)) c.grouping c'.grouping
  ordering : Option.Rel (List.Forall₂ (C.SortKeys scopes)) c.ordering c'.ordering
  limit : c'.limit = c.limit

/-- The correspondence is kept wherever an expression is resolved, by one rule for fields in the
first place and by another one in the second. -/
structure Lawful (total : Prop) (rule rule' : ColumnRule) : Prop where
  congruence : ∀ scopes, C.Congruence scopes
  column : ∀ {scopes scopes'} (c : ColumnRef), C.Around scopes scopes' →
    Parallel total C.Free (C.Terms scopes) (rule scopes c) (rule' scopes' c)
  owner : ∀ {scopes scopes' r scope a}, C.Around scopes scopes' →
    Scope.owner? scopes r = some (scope, a) →
    ∃ scope' a', Scope.owner? scopes' r = some (scope', a') ∧ C.Labels a a'
  /-- A query can be entered in the second place if it can be in the first. -/
  enterable : total → ∀ {outer outer' s next next'}, C.Around outer outer' → C.Admits s →
    C.Free next next' → s.Enterable outer next → s.Enterable outer' next'
  enter : ∀ {outer outer' next next'} (s : Select), C.Around outer outer' → C.Admits s →
    C.Free next next' → C.Around (s.innerScopes outer next) (s.innerScopes outer' next') ∧
      C.Free (next + (s.scopeRecords outer).length) (next' + (s.scopeRecords outer').length)
  query : ∀ {outer outer' next next' c c'} (s : Select) (labelled : Bool),
    C.Around outer outer' → C.Admits s → C.Free next next' →
    C.Clauses (s.innerScopes outer next) c c' →
    C.Queries outer (s.query outer next labelled c) (s.query outer' next' labelled c')

/-- These queries are admitted. -/
def Admitted (ss : List Select) : Prop := ∀ s ∈ ss, C.Admits s

variable {C}

theorem Admitted.append {ss ss' : List Select} (h : C.Admitted (ss ++ ss')) :
    C.Admitted ss ∧ C.Admitted ss' := List.forall_mem_append.mp h

end Comparison

/-! ### The traversal -/

section

variable {C : Comparison} {dialect : Dialect} {rule rule' : ColumnRule}

/-- A list of results corresponds where the expression of each field does. -/
theorem output_parallel {s : Select} {scopes scopes' : Scopes}
    (hdefined : ∀ field, Option.Rel (Parallel total C.Free (C.Terms scopes))
      (definitionWith dialect rule scopes field s.definitions)
      (definitionWith dialect rule' scopes' field s.definitions))
    (hread : ∀ field, Parallel total C.Free (C.Terms scopes) (rule scopes ⟨s.record, field⟩)
      (rule' scopes' ⟨s.record, field⟩)) :
    Parallel total C.Free (Option.Rel (List.Forall₂ (C.Columns scopes)))
      (output dialect rule scopes s) (output dialect rule' scopes' s) := by
  refine Parallel.optionally (fun fields => Parallel.mapM fields fun field => ?_) s.resultFields?
  exact (Parallel.getD (hdefined field) (hread field)).bind fun _ _ ht => .pure ⟨rfl, ht⟩

/-- The clauses of a query correspond where each of them does. -/
theorem clauses_parallel {s : Select} {scopes scopes' : Scopes}
    (houtput : Parallel total C.Free (Option.Rel (List.Forall₂ (C.Columns scopes)))
      (output dialect rule scopes s) (output dialect rule' scopes' s))
    (hjoins : Parallel total C.Free (List.Forall₂ (C.Joins scopes))
      (joinsWith dialect rule scopes s.joins) (joinsWith dialect rule' scopes' s.joins))
    (hfilter : Parallel total C.Free (Option.Rel (C.Terms scopes))
      (optionalWith dialect rule scopes s.filter) (optionalWith dialect rule' scopes' s.filter))
    (hgrouping : Parallel total C.Free (Option.Rel (List.Forall₂ (C.Terms scopes)))
      (groupingWith dialect rule scopes s.grouping)
      (groupingWith dialect rule' scopes' s.grouping))
    (hordering : Parallel total C.Free (Option.Rel (List.Forall₂ (C.SortKeys scopes)))
      (orderingWith dialect rule scopes s.ordering)
      (orderingWith dialect rule' scopes' s.ordering)) :
    Parallel total C.Free (C.Clauses scopes) (clauses dialect rule scopes s)
      (clauses dialect rule' scopes' s) := by
  unfold clauses
  refine houtput.bind fun _ _ houtput => ?_
  refine hjoins.bind fun _ _ hjoins => ?_
  refine hfilter.bind fun _ _ hfilter => ?_
  refine hgrouping.bind fun _ _ hgrouping => ?_
  refine hordering.bind fun _ _ hordering => ?_
  refine (Parallel.optionally window_parallel s.limit).bind fun limit limit' hlimit => ?_
  have heq : limit' = limit := by
    cases hlimit with
    | none => rfl
    | some h => rw [h]
  exact .pure ⟨houtput, hjoins, hfilter, hgrouping, hordering, heq⟩

/-- A query corresponds where its clauses do, inside it. -/
theorem selectWith_parallel_of_clauses (hC : C.Lawful total rule rule') {outer outer' : Scopes}
    (h : C.Around outer outer') {s : Select} (hadmits : C.Admits s) (labelled : Bool)
    (hclauses : ∀ {scopes scopes'}, C.Around scopes scopes' →
      Parallel total C.Free (C.Clauses scopes) (clauses dialect rule scopes s)
        (clauses dialect rule' scopes' s)) :
    Parallel total C.Free (C.Queries outer) (selectWith dialect rule outer labelled s)
      (selectWith dialect rule' outer' labelled s) where
  succeeds ht next next' _ _ hfree hx := by
    obtain ⟨henter, c, hc, -⟩ := selectWith_eq_ok_clauses.mp hx
    obtain ⟨hinner, hfree'⟩ := hC.enter s h hadmits hfree
    obtain ⟨c', n', hc'⟩ := (hclauses hinner).succeeds ht hfree' hc
    have henter' := hC.enterable ht h hadmits hfree henter
    exact ⟨_, n', selectWith_eq_ok_clauses.mpr ⟨henter', c', hc', rfl⟩⟩
  agree {next next' _ _ _ _} hfree hx hy := by
    obtain ⟨-, c, hc, rfl⟩ := selectWith_eq_ok_clauses.mp hx
    obtain ⟨-, c', hc', rfl⟩ := selectWith_eq_ok_clauses.mp hy
    obtain ⟨hinner, hfree'⟩ := hC.enter s h hadmits hfree
    obtain ⟨hfree'', hrel⟩ := (hclauses hinner).agree hfree' hc hc'
    exact ⟨hfree'', hC.query s labelled h hadmits hfree hrel⟩

mutual

/-- An expression corresponds to itself wherever it is resolved. -/
theorem exprWith_parallel (hC : C.Lawful total rule rule') {scopes scopes' : Scopes}
    (h : C.Around scopes scopes') : ∀ e : Expr, C.Admitted e.queries →
    Parallel total C.Free (C.Terms scopes) (exprWith dialect rule scopes e)
      (exprWith dialect rule' scopes' e)
  | .column c, _ => hC.column c h
  | .literal v, _ => literal_parallel dialect v (hC.congruence scopes).literal
  | .bound _, _ | .fieldValue .., _ => .pure ((hC.congruence scopes).param _)
  | .interval amount unit, _ =>
    interval_parallel dialect ((hC.congruence scopes).interval amount unit)
  | .wildcard, _ => .pure (hC.congruence scopes).wildcard
  | .call _ args, ha => (exprsWith_parallel hC h args ha).bind fun _ _ hargs =>
    .pure ((hC.congruence scopes).call hargs)
  | .binary _ left right, ha =>
    (exprWith_parallel hC h left ha.append.1).bind fun _ _ hleft =>
      (exprWith_parallel hC h right ha.append.2).bind fun _ _ hright =>
        .pure ((hC.congruence scopes).binary hleft hright)
  | .logical _ operands, ha => (exprsWith_parallel hC h operands ha).bind fun _ _ hts =>
    .pure ((hC.congruence scopes).logical hts)
  | .not operand, ha => (exprWith_parallel hC h operand ha).bind fun _ _ ht =>
    .pure ((hC.congruence scopes).not ht)
  | .isNull _ operand, ha => (exprWith_parallel hC h operand ha).bind fun _ _ ht =>
    .pure ((hC.congruence scopes).isNull ht)
  | .inValues negated operand values, ha => by
    have hoperand := exprWith_parallel hC h operand ha
    rw [exprWith, exprWith]
    split
    · exact .pure ((hC.congruence scopes).inNothing negated)
    · split
      · exact hoperand.bind fun _ _ ht => .pure ((hC.congruence scopes).inArray ht)
      · refine (Parallel.mapM _ fun chunk => ?_).bind fun _ _ hchunks =>
          .pure ((hC.congruence scopes).inChunks hchunks)
        exact hoperand.bind fun _ _ ht => .pure ⟨ht, rfl⟩
  | .inExprs negated operand items, ha => by
    have hoperand := exprWith_parallel hC h operand ha.append.1
    have hitems := exprsWith_parallel hC h items ha.append.2
    rw [exprWith, exprWith]
    split
    · exact .pure ((hC.congruence scopes).inNothing negated)
    · exact hoperand.bind fun _ _ ht => hitems.bind fun _ _ hts =>
        .pure ((hC.congruence scopes).inTerms ht hts)
  | .inSelect _ operand select, ha =>
    (exprWith_parallel hC h operand ha.append.1).bind fun _ _ ht =>
      (selectWith_parallel hC h false select ha.append.2).bind fun _ _ hq =>
        .pure ((hC.congruence scopes).inQuery ht hq)
  | .caseWhen operand branches otherwise, ha => by
    have hoperand := optionalWith_parallel hC h operand ha.append.1.append.1
    have hbranches := branchesWith_parallel hC h branches ha.append.1.append.2
    have hotherwise := optionalWith_parallel hC h otherwise ha.append.2
    rw [exprWith, exprWith]
    split
    · exact .fault
    · exact hoperand.bind fun _ _ ht => hbranches.bind fun _ _ hts =>
        hotherwise.bind fun _ _ ht' => .pure ((hC.congruence scopes).caseWhen ht hts ht')
  | .search _ columns _, ha => by
    have hcolumns := exprsWith_parallel hC h columns ha
    rw [exprWith, exprWith]
    split
    · exact .fault
    · exact hcolumns.bind fun _ _ hts => .pure ((hC.congruence scopes).search hts)
  | .temporal _ operand, ha => (exprWith_parallel hC h operand ha).bind fun _ _ ht =>
    .pure ((hC.congruence scopes).temporal ht)
  | .subquery select, ha => (selectWith_parallel hC h false select ha).bind fun _ _ hq =>
    .pure ((hC.congruence scopes).subquery hq)
  | .existsRow select, ha => (selectWith_parallel hC h false select ha).bind fun _ _ hq =>
    .pure ((hC.congruence scopes).existsRow hq)

theorem exprsWith_parallel (hC : C.Lawful total rule rule') {scopes scopes' : Scopes}
    (h : C.Around scopes scopes') : ∀ es : List Expr, C.Admitted (Expr.queriesAll es) →
    Parallel total C.Free (List.Forall₂ (C.Terms scopes)) (exprsWith dialect rule scopes es)
      (exprsWith dialect rule' scopes' es)
  | [], _ => .pure .nil
  | e :: es, ha =>
    (exprWith_parallel hC h e ha.append.1).bind fun _ _ ht =>
      (exprsWith_parallel hC h es ha.append.2).bind fun _ _ hts => .pure (.cons ht hts)

theorem optionalWith_parallel (hC : C.Lawful total rule rule') {scopes scopes' : Scopes}
    (h : C.Around scopes scopes') : ∀ e? : Option Expr,
    C.Admitted (Expr.queriesOptional e?) →
    Parallel total C.Free (Option.Rel (C.Terms scopes)) (optionalWith dialect rule scopes e?)
      (optionalWith dialect rule' scopes' e?)
  | none, _ => .pure .none
  | some e, ha => (exprWith_parallel hC h e ha).bind fun _ _ ht => .pure (.some ht)

theorem branchesWith_parallel (hC : C.Lawful total rule rule') {scopes scopes' : Scopes}
    (h : C.Around scopes scopes') : ∀ branches : List (Expr × Expr),
    C.Admitted (Expr.queriesBranches branches) →
    Parallel total C.Free (List.Forall₂ (C.Branches scopes))
      (branchesWith dialect rule scopes branches) (branchesWith dialect rule' scopes' branches)
  | [], _ => .pure .nil
  | (condition, result) :: rest, ha =>
    (exprWith_parallel hC h condition ha.append.1.append.1).bind fun _ _ hcondition =>
      (exprWith_parallel hC h result ha.append.1.append.2).bind fun _ _ hresult =>
        (branchesWith_parallel hC h rest ha.append.2).bind fun _ _ hrest =>
          .pure (.cons ⟨hcondition, hresult⟩ hrest)

theorem definitionWith_parallel (hC : C.Lawful total rule rule') {scopes scopes' : Scopes}
    (h : C.Around scopes scopes') (field : String) : ∀ definitions : List (FieldExprOf Expr),
    C.Admitted (Expr.queriesFields definitions) →
    Option.Rel (Parallel total C.Free (C.Terms scopes))
      (definitionWith dialect rule scopes field definitions)
      (definitionWith dialect rule' scopes' field definitions)
  | [], _ => .none
  | { field := defined, expr } :: rest, ha => by
    have hexpr := exprWith_parallel hC h expr ha.append.1
    have hrest := definitionWith_parallel hC h field rest ha.append.2
    rw [definitionWith, definitionWith]
    split
    · exact .some hexpr
    · exact hrest

theorem joinsWith_parallel (hC : C.Lawful total rule rule') {scopes scopes' : Scopes}
    (h : C.Around scopes scopes') : ∀ joins : List (JoinOf Expr),
    C.Admitted (Expr.queriesJoins joins) →
    Parallel total C.Free (List.Forall₂ (C.Joins scopes)) (joinsWith dialect rule scopes joins)
      (joinsWith dialect rule' scopes' joins)
  | [], _ => .pure .nil
  | { kind, record, on } :: rest, ha => by
    have hon := exprWith_parallel hC h on ha.append.1
    have hrest := joinsWith_parallel hC h rest ha.append.2
    rw [joinsWith, joinsWith]
    refine .ofExcept_bind _ fun table _ => ?_
    cases howner : Scope.owner? scopes record with
    | none => exact .throw
    | some owner =>
        obtain ⟨scope', a', howner', hlabels⟩ := hC.owner h howner
        rw [howner']
        exact hon.bind fun _ _ ht => hrest.bind fun _ _ hts =>
          .pure (.cons ⟨rfl, rfl, rfl, hlabels, ht⟩ hts)

theorem sortKeysWith_parallel (hC : C.Lawful total rule rule') {scopes scopes' : Scopes}
    (h : C.Around scopes scopes') : ∀ keys : List (SortKeyOf Expr),
    C.Admitted (Expr.queriesSortKeys keys) →
    Parallel total C.Free (List.Forall₂ (C.SortKeys scopes))
      (sortKeysWith dialect rule scopes keys) (sortKeysWith dialect rule' scopes' keys)
  | [], _ => .pure .nil
  | { expr, .. } :: rest, ha =>
    (exprWith_parallel hC h expr ha.append.1).bind fun _ _ ht =>
      (sortKeysWith_parallel hC h rest ha.append.2).bind fun _ _ hts =>
        .pure (.cons ⟨ht, rfl⟩ hts)

theorem groupingWith_parallel (hC : C.Lawful total rule rule') {scopes scopes' : Scopes}
    (h : C.Around scopes scopes') : ∀ grouping : Option (List Expr),
    C.Admitted (Expr.queriesGrouping grouping) →
    Parallel total C.Free (Option.Rel (List.Forall₂ (C.Terms scopes)))
      (groupingWith dialect rule scopes grouping) (groupingWith dialect rule' scopes' grouping)
  | none, _ => .pure .none
  | some es, ha => (exprsWith_parallel hC h es ha).bind fun _ _ hts => .pure (.some hts)

theorem orderingWith_parallel (hC : C.Lawful total rule rule') {scopes scopes' : Scopes}
    (h : C.Around scopes scopes') : ∀ ordering : Option (List (SortKeyOf Expr)),
    C.Admitted (Expr.queriesOrdering ordering) →
    Parallel total C.Free (Option.Rel (List.Forall₂ (C.SortKeys scopes)))
      (orderingWith dialect rule scopes ordering) (orderingWith dialect rule' scopes' ordering)
  | none, _ => .pure .none
  | some keys, ha => (sortKeysWith_parallel hC h keys ha).bind fun _ _ hts => .pure (.some hts)

/-- A query corresponds to itself wherever it is resolved. -/
theorem selectWith_parallel (hC : C.Lawful total rule rule') {outer outer' : Scopes}
    (h : C.Around outer outer') (labelled : Bool) : ∀ s : SelectOf Expr,
    C.Admitted (Expr.queriesSelect s) →
    Parallel total C.Free (C.Queries outer) (selectWith dialect rule outer labelled s)
      (selectWith dialect rule' outer' labelled s)
  | { record, selection, filter, joins, grouping, ordering, limit, locking, distinct, overrides,
      definitions }, ha => by
    have hadmits : C.Admits _ := ha _ List.mem_cons_self
    have ha : C.Admitted (Expr.queriesFields definitions ++ Expr.queriesJoins joins ++
        Expr.queriesOptional filter ++ Expr.queriesGrouping grouping ++
        Expr.queriesOrdering ordering) := fun s hs => ha s (List.mem_cons_of_mem _ hs)
    obtain ⟨ha, hordered⟩ := ha.append
    obtain ⟨ha, hgrouped⟩ := ha.append
    obtain ⟨ha, hfiltered⟩ := ha.append
    obtain ⟨hdefined, hjoined⟩ := ha.append
    refine selectWith_parallel_of_clauses hC h hadmits labelled fun {scopes scopes'} hinner => ?_
    refine clauses_parallel ?_ (joinsWith_parallel hC hinner joins hjoined)
      (optionalWith_parallel hC hinner filter hfiltered)
      (groupingWith_parallel hC hinner grouping hgrouped)
      (orderingWith_parallel hC hinner ordering hordered)
    exact output_parallel
      (fun field => definitionWith_parallel hC hinner field definitions hdefined)
      fun field => hC.column _ hinner

end

end

end Resolve

end RecordStore
