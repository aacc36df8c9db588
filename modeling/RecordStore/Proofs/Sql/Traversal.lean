import RecordStore.Proofs.Sql.Surroundings

/-! # What holds of everything that is resolved

An `Invariant` says something of an expression in its scopes and of the term it resolves to, with
the aliases that are free before and afterwards, and likewise of a query.  Where it is kept by the
ways of building terms, by the rule for fields and by entering a query (`Invariant.Lawful`), it
holds wherever an expression or a query resolves (`Resolve.exprWith_keeps`,
`Resolve.selectWith_keeps`).

The parts of an expression are resolved from left to right, each with the aliases that the one
before has left free: `InTurn` and `IfAny` say so of lists and of parts that may be missing. -/

namespace RecordStore

/-- The expression for a column of the list of results: the field's definition, or the field. -/
def Select.outputExpr (s : Select) (field : String) : Expr :=
  ((s.definitionFor? field).map (·.expr)).getD (.column ⟨s.record, field⟩)

namespace Resolve

section

variable {α β : Type}

/-- A list of steps, each with the aliases that the one before has left free. -/
inductive InTurn (P : α → Alias → β → Alias → Prop) : List α → Alias → List β → Alias → Prop where
  | nil {next : Alias} : InTurn P [] next [] next
  | cons {a : α} {as : List α} {b : β} {bs : List β} {first next last : Alias}
      (head : P a first b next) (tail : InTurn P as next bs last) :
      InTurn P (a :: as) first (b :: bs) last

/-- A step that is left out where its part is missing. -/
inductive IfAny (P : α → Alias → β → Alias → Prop) :
    Option α → Alias → Option β → Alias → Prop where
  | none {next : Alias} : IfAny P none next none next
  | some {a : α} {b : β} {first last : Alias} (h : P a first b last) :
      IfAny P (some a) first (some b) last

variable {P : α → Alias → β → Alias → Prop} {f : α → Resolve β} {first last : Alias}

theorem InTurn.of_mapM (hf : ∀ a first b last, f a first = .ok b last → P a first b last)
    {as : List α} {bs : List β} (h : as.mapM f first = .ok bs last) :
    InTurn P as first bs last := by
  induction as generalizing first bs with
  | nil =>
      obtain ⟨rfl, rfl⟩ := pure_eq_ok.mp h
      exact .nil
  | cons a as ih =>
      obtain ⟨b, rest, next, hb, hrest, rfl⟩ := mapM_cons_eq_ok.mp h
      exact .cons (hf _ _ _ _ hb) (ih hrest)

theorem InTurn.append {as as' : List α} {bs bs' : List β} {next : Alias}
    (h : InTurn P as first bs next) (h' : InTurn P as' next bs' last) :
    InTurn P (as ++ as') first (bs ++ bs') last := by
  induction h with
  | nil => exact h'
  | cons head _ ih => exact .cons head (ih h')

theorem InTurn.mono {Q : α → Alias → β → Alias → Prop}
    (hPQ : ∀ a first b last, P a first b last → Q a first b last) {as : List α} {bs : List β}
    (h : InTurn P as first bs last) : InTurn Q as first bs last := by
  induction h with
  | nil => exact .nil
  | cons head _ ih => exact .cons (hPQ _ _ _ _ head) ih

theorem InTurn.of_mem {as : List α} {bs : List β} (h : InTurn P as first bs last) {a : α}
    (ha : a ∈ as) : ∃ m b m', P a m b m' := by
  induction h with
  | nil => cases ha
  | cons head _ ih =>
      rcases List.mem_cons.mp ha with rfl | ha
      · exact ⟨_, _, _, head⟩
      · exact ih ha

theorem InTurn.of_mem_right {as : List α} {bs : List β} (h : InTurn P as first bs last) {b : β}
    (hb : b ∈ bs) : ∃ a m m', P a m b m' := by
  induction h with
  | nil => cases hb
  | cons head _ ih =>
      rcases List.mem_cons.mp hb with rfl | hb
      · exact ⟨_, _, _, head⟩
      · exact ih hb

theorem InTurn.map_eq (g : β → α) (hP : ∀ a first b last, P a first b last → g b = a) {as : List α}
    {bs : List β} (h : InTurn P as first bs last) : bs.map g = as := by
  induction h with
  | nil => rfl
  | cons head _ ih => rw [List.map_cons, hP _ _ _ _ head, ih]

/-- What holds of each step, pair by pair. -/
theorem InTurn.zip (R : α → β → Prop) (hPR : ∀ a first b last, P a first b last → R a b)
    {as : List α} {bs : List β} (h : InTurn P as first bs last) :
    as.length = bs.length ∧ ∀ p ∈ as.zip bs, R p.1 p.2 := by
  induction h with
  | nil => exact ⟨rfl, fun p hp => by cases hp⟩
  | cons head _ ih =>
      refine ⟨congrArg (· + 1) ih.1, ?_⟩
      rw [List.zip_cons_cons]
      exact List.forall_mem_cons.mpr ⟨hPR _ _ _ _ head, ih.2⟩

theorem IfAny.toList {a? : Option α} {b? : Option β} (h : IfAny P a? first b? last) :
    InTurn P a?.toList first b?.toList last := by
  cases h with
  | none => exact .nil
  | some h => exact .cons h .nil

theorem IfAny.getD {as? : Option (List α)} {bs? : Option (List β)}
    (h : IfAny (InTurn P) as? first bs? last) :
    InTurn P (as?.getD []) first (bs?.getD []) last := by
  cases h with
  | none => exact .nil
  | some h => exact h

theorem IfAny.of_optionally (hf : ∀ a first b last, f a first = .ok b last → P a first b last)
    {a? : Option α} {b? : Option β} (h : optionally f a? first = .ok b? last) :
    IfAny P a? first b? last := by
  cases a? with
  | none =>
      obtain ⟨rfl, rfl⟩ := pure_eq_ok.mp h
      exact .none
  | some a =>
      obtain ⟨b, next, hb, h⟩ := bind_eq_ok.mp h
      obtain ⟨rfl, rfl⟩ := pure_eq_ok.mp h
      exact .some (hf _ _ _ _ hb)

end

/-! ### Steps that take no alias -/

theorem limitNumber_next {part : LimitPart} {n : Nat} {i : Int64} {first last : Alias}
    (h : limitNumber part n first = .ok i last) : last = first := by
  unfold limitNumber at h
  by_cases hn : n < 0x8000_0000_0000_0000
  · rw [if_pos hn] at h
    exact (pure_eq_ok.mp h).2.symm
  · rw [if_neg hn] at h
    exact absurd h fault_ne_ok

theorem window_next {l : Limit} {w : Window} {first last : Alias}
    (h : window l first = .ok w last) : last = first := by
  obtain ⟨count, offset?⟩ := l
  obtain ⟨i, next, hcount, hrest⟩ := bind_eq_ok.mp h
  rw [← limitNumber_next hcount]
  cases offset? with
  | none => exact (pure_eq_ok.mp hrest).2.symm
  | some offset =>
      obtain ⟨i', next', hoffset, hrest⟩ := bind_eq_ok.mp hrest
      rw [← limitNumber_next hoffset]
      exact (pure_eq_ok.mp hrest).2.symm

theorem limit_next {l? : Option Limit} {w? : Option Window} {first last : Alias}
    (h : optionally window l? first = .ok w? last) : last = first := by
  cases l? with
  | none => exact (pure_eq_ok.mp h).2.symm
  | some l =>
      obtain ⟨w, next, hw, h⟩ := bind_eq_ok.mp h
      rw [← (pure_eq_ok.mp h).2]
      exact window_next hw

theorem interval_eq_ok {dialect : Dialect} {amount : Int64} {unit : CalendarUnit} {t : Term}
    {first last : Alias} (h : interval dialect amount unit first = .ok t last) :
    t = .interval amount unit ∧ last = first := by
  have hpure {first : Alias} (h : (pure (Term.interval amount unit) : Resolve Term) first =
      .ok t last) : t = .interval amount unit ∧ last = first :=
    ⟨(pure_eq_ok.mp h).1.symm, (pure_eq_ok.mp h).2.symm⟩
  unfold interval at h
  cases dialect with
  | postgres | mysql => exact hpure h
  | generic | sqlite =>
      dsimp only at h
      split at h
      · cases h
      · exact hpure h

theorem literal_eq_ok {dialect : Dialect} {v : Value} {t : Term} {first last : Alias}
    (h : literal dialect v first = .ok t last) : (∃ l, t = .literal l) ∧ last = first := by
  unfold literal at h
  cases hv : v.toLiteral? with
  | some l =>
      rw [hv] at h
      exact ⟨⟨l, (pure_eq_ok.mp h).1.symm⟩, (pure_eq_ok.mp h).2.symm⟩
  | none =>
      rw [hv] at h
      exact absurd h throw_ne_ok

/-! ### Invariants -/

/-- What is said of resolving an expression, and of resolving a query: the scopes around it, the
aliases that are free before and afterwards, and the result. -/
structure Invariant where
  Terms : Scopes → Expr → Alias → Term → Alias → Prop
  Queries : Scopes → Select → Alias → Query → Alias → Prop

namespace Invariant

variable (I : Invariant) (scopes : Scopes)

abbrev Branches (b : Expr × Expr) (first : Alias) (b' : Term × Term) (last : Alias) : Prop :=
  ∃ next, I.Terms scopes b.1 first b'.1 next ∧ I.Terms scopes b.2 next b'.2 last

abbrev Chunks (operand : Expr) (values : List Value) (first : Alias) (c : Term × List Value)
    (last : Alias) : Prop :=
  c.2 = values ∧ I.Terms scopes operand first c.1 last

abbrev Columns (s : Select) (field : String) (first : Alias) (c : FieldExprOf Term)
    (last : Alias) : Prop :=
  c.field = field ∧ I.Terms scopes (s.outputExpr field) first c.expr last

abbrev SortKeys (k : SortKey) (first : Alias) (k' : SortKeyOf Term) (last : Alias) : Prop :=
  k'.descending = k.descending ∧ I.Terms scopes k.expr first k'.expr last

abbrev Joins (j : Join) (first : Alias) (j' : JoinedTable) (last : Alias) : Prop :=
  j'.kind = j.kind ∧ Scope.joinItem? scopes j = some j'.item ∧ I.Terms scopes j.on first j'.on last

/-- What is said of the clauses of a query. -/
inductive Clauses (s : Select) : Alias → Resolve.Clauses → Alias → Prop where
  | mk {c : Resolve.Clauses} {first n₁ n₂ n₃ n₄ last : Alias}
      (output : IfAny (InTurn (I.Columns scopes s)) s.resultFields? first c.output n₁)
      (joins : InTurn (I.Joins scopes) s.joins n₁ c.joins n₂)
      (filter : IfAny (I.Terms scopes) s.filter n₂ c.filter n₃)
      (grouping : IfAny (InTurn (I.Terms scopes)) s.grouping n₃ c.grouping n₄)
      (ordering : IfAny (InTurn (I.SortKeys scopes)) s.ordering n₄ c.ordering last) :
      Clauses s first c last

/-- The invariant is kept by the ways of building terms. -/
structure Congruence : Prop where
  literal : ∀ {v l first}, I.Terms scopes (.literal v) first (.literal l) first
  bound : ∀ {v first}, I.Terms scopes (.bound v) first (.param (.value v)) first
  fieldValue : ∀ {field v first},
    I.Terms scopes (.fieldValue field v) first (.param (.field field v)) first
  interval : ∀ {amount unit first},
    I.Terms scopes (.interval amount unit) first (.interval amount unit) first
  wildcard : ∀ {first}, I.Terms scopes .wildcard first .wildcard first
  call : ∀ {function es ts first last}, InTurn (I.Terms scopes) es first ts last →
    I.Terms scopes (.call function es) first (.call function ts) last
  binary : ∀ {op e e' t t' first next last}, I.Terms scopes e first t next →
    I.Terms scopes e' next t' last → I.Terms scopes (.binary op e e') first (.binary op t t') last
  logical : ∀ {op es ts first last}, InTurn (I.Terms scopes) es first ts last →
    I.Terms scopes (.logical op es) first (.logical op ts) last
  not : ∀ {e t first last}, I.Terms scopes e first t last →
    I.Terms scopes (.not e) first (.not t) last
  isNull : ∀ {negated e t first last}, I.Terms scopes e first t last →
    I.Terms scopes (.isNull negated e) first (.isNull negated t) last
  inNoValues : ∀ {negated e first},
    I.Terms scopes (.inValues negated e []) first (.inNothing negated) first
  inNoExprs : ∀ {negated e first},
    I.Terms scopes (.inExprs negated e []) first (.inNothing negated) first
  inArray : ∀ {negated e values t first last}, values ≠ [] → I.Terms scopes e first t last →
    I.Terms scopes (.inValues negated e values) first (.inArray negated t values) last
  /-- The operand is resolved for each of the chunks, of which there is one at least. -/
  inChunks : ∀ {negated e values pieces chunks first last}, values ≠ [] → pieces ≠ [] →
    InTurn (I.Chunks scopes e) pieces first chunks last →
    I.Terms scopes (.inValues negated e values) first (.inChunks negated chunks) last
  inTerms : ∀ {negated e es t ts first next last}, es ≠ [] → I.Terms scopes e first t next →
    InTurn (I.Terms scopes) es next ts last →
    I.Terms scopes (.inExprs negated e es) first (.inTerms negated t ts) last
  inQuery : ∀ {negated e s t q first next last}, I.Terms scopes e first t next →
    I.Queries scopes s next q last →
    I.Terms scopes (.inSelect negated e s) first (.inQuery negated t q) last
  caseWhen : ∀ {e? es e?' t? ts t?' first n₁ n₂ last}, IfAny (I.Terms scopes) e? first t? n₁ →
    InTurn (I.Branches scopes) es n₁ ts n₂ → IfAny (I.Terms scopes) e?' n₂ t?' last →
    I.Terms scopes (.caseWhen e? es e?') first (.caseWhen t? ts t?') last
  search : ∀ {mode es query ts first last}, es ≠ [] → InTurn (I.Terms scopes) es first ts last →
    I.Terms scopes (.search mode es query) first (.search mode ts query) last
  temporal : ∀ {op e t first last}, I.Terms scopes e first t last →
    I.Terms scopes (.temporal op e) first (.temporal op t) last
  subquery : ∀ {s q first last}, I.Queries scopes s first q last →
    I.Terms scopes (.subquery s) first (.subquery q) last
  existsRow : ∀ {s q first last}, I.Queries scopes s first q last →
    I.Terms scopes (.existsRow s) first (.existsRow q) last

/-- The invariant is kept wherever expressions are resolved by this rule for fields. -/
structure Lawful (rule : ColumnRule) : Prop where
  congruence : ∀ scopes, I.Congruence scopes
  column : ∀ {scopes c first t last}, rule scopes c first = .ok t last →
    I.Terms scopes (.column c) first t last
  query : ∀ {outer s labelled c first last}, s.Enterable outer first →
    I.Clauses (s.innerScopes outer first) s (first + (s.scopeRecords outer).length) c last →
    I.Queries outer s first (s.query outer first labelled c) last

end Invariant

/-! ### The traversal -/

section

variable {I : Invariant} {dialect : Dialect} {rule : ColumnRule}

/-- A list of results obeys the invariant where the expression of each field does. -/
theorem output_keeps {s : Select} {scopes : Scopes} {columns : Option (List (FieldExprOf Term))}
    {first last : Alias}
    (hfield : ∀ field first t last, ((definitionWith dialect rule scopes field s.definitions).getD
        (rule scopes ⟨s.record, field⟩)) first = .ok t last →
      I.Terms scopes (s.outputExpr field) first t last)
    (h : output dialect rule scopes s first = .ok columns last) :
    IfAny (InTurn (I.Columns scopes s)) s.resultFields? first columns last := by
  refine IfAny.of_optionally ?_ h
  intro fields first columns last hcolumns
  refine InTurn.of_mapM ?_ hcolumns
  intro field first column last hcolumn
  obtain ⟨t, n, ht, hrest⟩ := bind_eq_ok.mp hcolumn
  obtain ⟨rfl, rfl⟩ := pure_eq_ok.mp hrest
  exact ⟨rfl, hfield field _ _ _ ht⟩

mutual

/-- What an expression resolves to obeys the invariant. -/
theorem exprWith_keeps (hI : I.Lawful rule) {scopes : Scopes} :
    ∀ (e : Expr) {first last : Alias} {t : Term},
    exprWith dialect rule scopes e first = .ok t last → I.Terms scopes e first t last
  | .column _, _, _, _, h => hI.column h
  | .literal _, _, _, _, h => by
    obtain ⟨⟨l, rfl⟩, rfl⟩ := literal_eq_ok h
    exact (hI.congruence _).literal
  | .bound _, _, _, _, h => by
    obtain ⟨rfl, rfl⟩ := pure_eq_ok.mp h
    exact (hI.congruence _).bound
  | .fieldValue .., _, _, _, h => by
    obtain ⟨rfl, rfl⟩ := pure_eq_ok.mp h
    exact (hI.congruence _).fieldValue
  | .interval .., _, _, _, h => by
    obtain ⟨rfl, rfl⟩ := interval_eq_ok h
    exact (hI.congruence _).interval
  | .wildcard, _, _, _, h => by
    obtain ⟨rfl, rfl⟩ := pure_eq_ok.mp h
    exact (hI.congruence _).wildcard
  | .call _ args, _, _, _, h => by
    obtain ⟨ts, n, hargs, h⟩ := bind_eq_ok.mp h
    obtain ⟨rfl, rfl⟩ := pure_eq_ok.mp h
    exact (hI.congruence _).call (exprsWith_keeps hI args hargs)
  | .binary _ left right, _, _, _, h => by
    obtain ⟨l, n, hleft, h⟩ := bind_eq_ok.mp h
    obtain ⟨r, n', hright, h⟩ := bind_eq_ok.mp h
    obtain ⟨rfl, rfl⟩ := pure_eq_ok.mp h
    exact (hI.congruence _).binary (exprWith_keeps hI left hleft) (exprWith_keeps hI right hright)
  | .logical _ operands, _, _, _, h => by
    obtain ⟨ts, n, hoperands, h⟩ := bind_eq_ok.mp h
    obtain ⟨rfl, rfl⟩ := pure_eq_ok.mp h
    exact (hI.congruence _).logical (exprsWith_keeps hI operands hoperands)
  | .not operand, _, _, _, h => by
    obtain ⟨t, n, hoperand, h⟩ := bind_eq_ok.mp h
    obtain ⟨rfl, rfl⟩ := pure_eq_ok.mp h
    exact (hI.congruence _).not (exprWith_keeps hI operand hoperand)
  | .isNull _ operand, _, _, _, h => by
    obtain ⟨t, n, hoperand, h⟩ := bind_eq_ok.mp h
    obtain ⟨rfl, rfl⟩ := pure_eq_ok.mp h
    exact (hI.congruence _).isNull (exprWith_keeps hI operand hoperand)
  | .inValues _ operand values, _, _, _, h => by
    have hoperand {first last : Alias} {t : Term}
        (h : exprWith dialect rule scopes operand first = .ok t last) :
        I.Terms scopes operand first t last := exprWith_keeps hI operand h
    rw [exprWith] at h
    split at h
    · next hempty =>
        obtain rfl := List.isEmpty_iff.mp hempty
        obtain ⟨rfl, rfl⟩ := pure_eq_ok.mp h
        exact (hI.congruence _).inNoValues
    · next hvalues =>
        have hvalues : values ≠ [] := fun hnil => hvalues (List.isEmpty_iff.mpr hnil)
        split at h
        · obtain ⟨t, n, ht, h⟩ := bind_eq_ok.mp h
          obtain ⟨rfl, rfl⟩ := pure_eq_ok.mp h
          exact (hI.congruence _).inArray hvalues (hoperand ht)
        · obtain ⟨cs, n, hcs, h⟩ := bind_eq_ok.mp h
          obtain ⟨rfl, rfl⟩ := pure_eq_ok.mp h
          have hpieces : chunks dialect.maxInList values ≠ [] := by
            intro hnil
            have hflat := flatten_chunks dialect.maxInList values
            rw [hnil] at hflat
            exact hvalues hflat.symm
          refine (hI.congruence _).inChunks hvalues hpieces (InTurn.of_mapM ?_ hcs)
          intro chunk first c last h
          obtain ⟨t, n, ht, h⟩ := bind_eq_ok.mp h
          obtain ⟨rfl, rfl⟩ := pure_eq_ok.mp h
          exact ⟨rfl, hoperand ht⟩
  | .inExprs _ operand items, _, _, _, h => by
    have hoperand {first last : Alias} {t : Term}
        (h : exprWith dialect rule scopes operand first = .ok t last) :
        I.Terms scopes operand first t last := exprWith_keeps hI operand h
    have hitems {first last : Alias} {ts : List Term}
        (h : exprsWith dialect rule scopes items first = .ok ts last) :
        InTurn (I.Terms scopes) items first ts last := exprsWith_keeps hI items h
    rw [exprWith] at h
    split at h
    · next hempty =>
        obtain rfl := List.isEmpty_iff.mp hempty
        obtain ⟨rfl, rfl⟩ := pure_eq_ok.mp h
        exact (hI.congruence _).inNoExprs
    · next hne =>
        obtain ⟨t, n, ht, h⟩ := bind_eq_ok.mp h
        obtain ⟨ts, n', hts, h⟩ := bind_eq_ok.mp h
        obtain ⟨rfl, rfl⟩ := pure_eq_ok.mp h
        exact (hI.congruence _).inTerms (fun hnil => hne (List.isEmpty_iff.mpr hnil)) (hoperand ht)
          (hitems hts)
  | .inSelect _ operand select, _, _, _, h => by
    obtain ⟨t, n, ht, h⟩ := bind_eq_ok.mp h
    obtain ⟨q, n', hq, h⟩ := bind_eq_ok.mp h
    obtain ⟨rfl, rfl⟩ := pure_eq_ok.mp h
    exact (hI.congruence _).inQuery (exprWith_keeps hI operand ht)
      (selectWith_keeps hI false select hq)
  | .caseWhen operand branches otherwise, _, _, _, h => by
    have hoperand {first last : Alias} {t? : Option Term}
        (h : optionalWith dialect rule scopes operand first = .ok t? last) :
        IfAny (I.Terms scopes) operand first t? last := optionalWith_keeps hI operand h
    have hbranches {first last : Alias} {ts : List (Term × Term)}
        (h : branchesWith dialect rule scopes branches first = .ok ts last) :
        InTurn (I.Branches scopes) branches first ts last := branchesWith_keeps hI branches h
    have hotherwise {first last : Alias} {t? : Option Term}
        (h : optionalWith dialect rule scopes otherwise first = .ok t? last) :
        IfAny (I.Terms scopes) otherwise first t? last := optionalWith_keeps hI otherwise h
    rw [exprWith] at h
    split at h
    · exact absurd h fault_ne_ok
    · obtain ⟨t, n, ht, h⟩ := bind_eq_ok.mp h
      obtain ⟨ts, n', hts, h⟩ := bind_eq_ok.mp h
      obtain ⟨t', n'', ht', h⟩ := bind_eq_ok.mp h
      obtain ⟨rfl, rfl⟩ := pure_eq_ok.mp h
      exact (hI.congruence _).caseWhen (hoperand ht) (hbranches hts) (hotherwise ht')
  | .search _ columns _, _, _, _, h => by
    have hcolumns {first last : Alias} {ts : List Term}
        (h : exprsWith dialect rule scopes columns first = .ok ts last) :
        InTurn (I.Terms scopes) columns first ts last := exprsWith_keeps hI columns h
    rw [exprWith] at h
    split at h
    · exact absurd h fault_ne_ok
    · next hne =>
        obtain ⟨ts, n, hts, h⟩ := bind_eq_ok.mp h
        obtain ⟨rfl, rfl⟩ := pure_eq_ok.mp h
        exact (hI.congruence _).search (fun hnil => hne (List.isEmpty_iff.mpr hnil)) (hcolumns hts)
  | .temporal _ operand, _, _, _, h => by
    obtain ⟨t, n, hoperand, h⟩ := bind_eq_ok.mp h
    obtain ⟨rfl, rfl⟩ := pure_eq_ok.mp h
    exact (hI.congruence _).temporal (exprWith_keeps hI operand hoperand)
  | .subquery select, _, _, _, h => by
    obtain ⟨q, n, hq, h⟩ := bind_eq_ok.mp h
    obtain ⟨rfl, rfl⟩ := pure_eq_ok.mp h
    exact (hI.congruence _).subquery (selectWith_keeps hI false select hq)
  | .existsRow select, _, _, _, h => by
    obtain ⟨q, n, hq, h⟩ := bind_eq_ok.mp h
    obtain ⟨rfl, rfl⟩ := pure_eq_ok.mp h
    exact (hI.congruence _).existsRow (selectWith_keeps hI false select hq)

theorem exprsWith_keeps (hI : I.Lawful rule) {scopes : Scopes} :
    ∀ (es : List Expr) {first last : Alias} {ts : List Term},
    exprsWith dialect rule scopes es first = .ok ts last →
    InTurn (I.Terms scopes) es first ts last
  | [], _, _, _, h => by
    obtain ⟨rfl, rfl⟩ := pure_eq_ok.mp h
    exact .nil
  | e :: es, _, _, _, h => by
    obtain ⟨t, n, ht, h⟩ := bind_eq_ok.mp h
    obtain ⟨ts, n', hts, h⟩ := bind_eq_ok.mp h
    obtain ⟨rfl, rfl⟩ := pure_eq_ok.mp h
    exact .cons (exprWith_keeps hI e ht) (exprsWith_keeps hI es hts)

theorem optionalWith_keeps (hI : I.Lawful rule) {scopes : Scopes} :
    ∀ (e? : Option Expr) {first last : Alias} {t? : Option Term},
    optionalWith dialect rule scopes e? first = .ok t? last →
    IfAny (I.Terms scopes) e? first t? last
  | none, _, _, _, h => by
    obtain ⟨rfl, rfl⟩ := pure_eq_ok.mp h
    exact .none
  | some e, _, _, _, h => by
    obtain ⟨t, n, ht, h⟩ := bind_eq_ok.mp h
    obtain ⟨rfl, rfl⟩ := pure_eq_ok.mp h
    exact .some (exprWith_keeps hI e ht)

theorem branchesWith_keeps (hI : I.Lawful rule) {scopes : Scopes} :
    ∀ (branches : List (Expr × Expr)) {first last : Alias} {ts : List (Term × Term)},
    branchesWith dialect rule scopes branches first = .ok ts last →
    InTurn (I.Branches scopes) branches first ts last
  | [], _, _, _, h => by
    obtain ⟨rfl, rfl⟩ := pure_eq_ok.mp h
    exact .nil
  | (condition, result) :: rest, _, _, _, h => by
    obtain ⟨t, n, ht, h⟩ := bind_eq_ok.mp h
    obtain ⟨t', n', ht', h⟩ := bind_eq_ok.mp h
    obtain ⟨ts, n'', hts, h⟩ := bind_eq_ok.mp h
    obtain ⟨rfl, rfl⟩ := pure_eq_ok.mp h
    exact .cons ⟨n, exprWith_keeps hI condition ht, exprWith_keeps hI result ht'⟩
      (branchesWith_keeps hI rest hts)

/-- A field with these definitions obeys the invariant, defined or not. -/
theorem definitionWith_keeps (hI : I.Lawful rule) (scopes : Scopes) (c : ColumnRef)
    (field : String) : ∀ (definitions : List (FieldExprOf Expr)) {first last : Alias} {t : Term},
    ((definitionWith dialect rule scopes field definitions).getD (rule scopes c)) first =
      .ok t last →
    I.Terms scopes (((definitions.find? (·.field == field)).map (·.expr)).getD (.column c)) first t
      last
  | [], _, _, _, h => hI.column h
  | { field := defined, expr } :: rest, _, _, _, h => by
    have hexpr {first last : Alias} {t : Term}
        (h : exprWith dialect rule scopes expr first = .ok t last) :
        I.Terms scopes expr first t last := exprWith_keeps hI expr h
    have hrest := @definitionWith_keeps hI scopes c field rest
    rw [definitionWith] at h
    rw [List.find?_cons]
    dsimp only
    by_cases hfield : defined = field
    · rw [if_pos hfield] at h
      rw [beq_iff_eq.mpr hfield]
      exact hexpr h
    · rw [if_neg hfield] at h
      rw [beq_false_of_ne hfield]
      exact hrest h

theorem joinsWith_keeps (hI : I.Lawful rule) {scopes : Scopes} :
    ∀ (joins : List (JoinOf Expr)) {first last : Alias} {ts : List JoinedTable},
    joinsWith dialect rule scopes joins first = .ok ts last →
    InTurn (I.Joins scopes) joins first ts last
  | [], _, _, _, h => by
    obtain ⟨rfl, rfl⟩ := pure_eq_ok.mp h
    exact .nil
  | { kind, record, on } :: rest, _, _, _, h => by
    have hon {first last : Alias} {t : Term}
        (h : exprWith dialect rule scopes on first = .ok t last) :
        I.Terms scopes on first t last := exprWith_keeps hI on h
    have hrest {first last : Alias} {ts : List JoinedTable}
        (h : joinsWith dialect rule scopes rest first = .ok ts last) :
        InTurn (I.Joins scopes) rest first ts last := joinsWith_keeps hI rest h
    rw [joinsWith] at h
    obtain ⟨table, n, hnamed, h⟩ := bind_eq_ok.mp h
    obtain ⟨htable, rfl⟩ := ofExcept_eq_ok.mp hnamed
    cases howner : Scope.owner? scopes record with
    | none =>
        rw [howner] at h
        exact absurd h throw_ne_ok
    | some owner =>
        rw [howner] at h
        obtain ⟨t, n', ht, h⟩ := bind_eq_ok.mp h
        obtain ⟨ts, n'', hts, h⟩ := bind_eq_ok.mp h
        obtain ⟨rfl, rfl⟩ := pure_eq_ok.mp h
        refine .cons ⟨rfl, ?_, hon ht⟩ (hrest hts)
        unfold Scope.joinItem?
        rw [RecordType.table_of_tableName htable, howner]
        rfl

theorem sortKeysWith_keeps (hI : I.Lawful rule) {scopes : Scopes} :
    ∀ (keys : List (SortKeyOf Expr)) {first last : Alias} {ts : List (SortKeyOf Term)},
    sortKeysWith dialect rule scopes keys first = .ok ts last →
    InTurn (I.SortKeys scopes) keys first ts last
  | [], _, _, _, h => by
    obtain ⟨rfl, rfl⟩ := pure_eq_ok.mp h
    exact .nil
  | { expr, descending } :: rest, _, _, _, h => by
    obtain ⟨t, n, ht, h⟩ := bind_eq_ok.mp h
    obtain ⟨ts, n', hts, h⟩ := bind_eq_ok.mp h
    obtain ⟨rfl, rfl⟩ := pure_eq_ok.mp h
    exact .cons ⟨rfl, exprWith_keeps hI expr ht⟩ (sortKeysWith_keeps hI rest hts)

theorem groupingWith_keeps (hI : I.Lawful rule) {scopes : Scopes} :
    ∀ (grouping : Option (List Expr)) {first last : Alias} {ts? : Option (List Term)},
    groupingWith dialect rule scopes grouping first = .ok ts? last →
    IfAny (InTurn (I.Terms scopes)) grouping first ts? last
  | none, _, _, _, h => by
    obtain ⟨rfl, rfl⟩ := pure_eq_ok.mp h
    exact .none
  | some es, _, _, _, h => by
    obtain ⟨ts, n, hts, h⟩ := bind_eq_ok.mp h
    obtain ⟨rfl, rfl⟩ := pure_eq_ok.mp h
    exact .some (exprsWith_keeps hI es hts)

theorem orderingWith_keeps (hI : I.Lawful rule) {scopes : Scopes} :
    ∀ (ordering : Option (List (SortKeyOf Expr))) {first last : Alias}
      {ts? : Option (List (SortKeyOf Term))},
    orderingWith dialect rule scopes ordering first = .ok ts? last →
    IfAny (InTurn (I.SortKeys scopes)) ordering first ts? last
  | none, _, _, _, h => by
    obtain ⟨rfl, rfl⟩ := pure_eq_ok.mp h
    exact .none
  | some keys, _, _, _, h => by
    obtain ⟨ts, n, hts, h⟩ := bind_eq_ok.mp h
    obtain ⟨rfl, rfl⟩ := pure_eq_ok.mp h
    exact .some (sortKeysWith_keeps hI keys hts)

/-- What a query resolves to obeys the invariant. -/
theorem selectWith_keeps (hI : I.Lawful rule) {outer : Scopes} (labelled : Bool) :
    ∀ (s : SelectOf Expr) {first last : Alias} {q : Query},
    selectWith dialect rule outer labelled s first = .ok q last →
    I.Queries outer s first q last
  | { record, selection, filter, joins, grouping, ordering, limit, locking, distinct, overrides,
      definitions }, _, _, _, h => by
    have hdefined (scopes : Scopes) (c : ColumnRef) (field : String) {first last : Alias} {t : Term}
        (h : ((definitionWith dialect rule scopes field definitions).getD (rule scopes c)) first =
          .ok t last) := definitionWith_keeps hI scopes c field definitions h
    have hjoins {scopes : Scopes} {first last : Alias} {ts : List JoinedTable}
        (h : joinsWith dialect rule scopes joins first = .ok ts last) :=
      joinsWith_keeps hI joins h
    have hfilter {scopes : Scopes} {first last : Alias} {t? : Option Term}
        (h : optionalWith dialect rule scopes filter first = .ok t? last) :=
      optionalWith_keeps hI filter h
    have hgrouping {scopes : Scopes} {first last : Alias} {ts? : Option (List Term)}
        (h : groupingWith dialect rule scopes grouping first = .ok ts? last) :=
      groupingWith_keeps hI grouping h
    have hordering {scopes : Scopes} {first last : Alias} {ts? : Option (List (SortKeyOf Term))}
        (h : orderingWith dialect rule scopes ordering first = .ok ts? last) :=
      orderingWith_keeps hI ordering h
    obtain ⟨henter, c, hclauses, rfl⟩ := selectWith_eq_ok_clauses.mp h
    refine hI.query henter ?_
    unfold clauses at hclauses
    obtain ⟨output, n₁, houtput, h⟩ := bind_eq_ok.mp hclauses
    obtain ⟨joins, n₂, hjoined, h⟩ := bind_eq_ok.mp h
    obtain ⟨filter, n₃, hfiltered, h⟩ := bind_eq_ok.mp h
    obtain ⟨grouping, n₄, hgrouped, h⟩ := bind_eq_ok.mp h
    obtain ⟨ordering, n₅, hordered, h⟩ := bind_eq_ok.mp h
    obtain ⟨limit, n₆, hlimit, h⟩ := bind_eq_ok.mp h
    obtain ⟨rfl, rfl⟩ := pure_eq_ok.mp h
    obtain rfl := limit_next hlimit
    exact .mk (output_keeps (fun field _ _ _ ht => hdefined _ _ field ht) houtput) (hjoins hjoined)
      (hfilter hfiltered) (hgrouping hgrouped) (hordering hordered)

end

end

end Resolve

end RecordStore
