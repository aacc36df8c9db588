import RecordStore.Proofs.Sql.Assembly
import RecordStore.Proofs.Sql.Changes

/-! # How far overriding goes

The expression that overrides a field is no part of the expression that mentions the field, and it
may mention the field itself.  Resolving it comes to an end since nothing is overridden inside it
(`Resolve.reenter_twice`).  `Expands` describes what an expression becomes where overrides apply and
where they do not: outside overriding expressions every field is overridden that can be, and inside
them none is, at any depth (`Statement.overriding_stops`). -/

namespace RecordStore

/-! ### Resolving an overriding expression -/

/-- What is done with a field in one go, where the fields of an overriding expression are left to
the rules one level deeper. -/
def Resolve.reenter (dialect : Dialect) (deeper : Bool → ColumnRule) (overriding : Bool) :
    ColumnRule := fun scopes c => do
  let _ ← ofExcept (c.record.field c.field)
  match Scope.owner? scopes c.record with
  | some (scope, a) =>
    match (if overriding then scope.overrideOf? c else none) with
    | some body => return .override c a (← exprWith dialect (deeper false) scopes body)
    | none => plainColumn scopes c
  | none => plainColumn scopes c

namespace Resolve

variable (dialect : Dialect) (deeper : Bool → ColumnRule)

/-- Where nothing is overridden no expression is entered. -/
theorem reenter_false : reenter dialect deeper false = plainColumn := by
  funext scopes c
  unfold reenter
  cases hfield : c.record.field c.field with
  | error e =>
      unfold plainColumn
      rw [hfield]
      rfl
  | ok field =>
      cases Scope.owner? scopes c.record with
      | none => rfl
      | some owner => rfl

/-- An overriding expression is entered once: what would be done two levels deeper does not
matter. -/
theorem reenter_twice : reenter dialect (reenter dialect deeper) = columnRule dialect := by
  funext overriding
  cases overriding with
  | false => exact reenter_false dialect _
  | true =>
      funext scopes c
      rw [reenter, reenter_false dialect deeper]
      rfl

end Resolve

/-! ### What expressions become -/

mutual

/-- An expression becomes this term in these scopes, with fields overridden or not. -/
inductive Expands : (overriding : Bool) → Scopes → Expr → Term → Prop where
  /-- The innermost scope that lists the record type selects it and overrides the field. -/
  | override {scopes c scope a body t} (hfield : ∃ field, c.record.field c.field = .ok field)
      (howner : Scope.owner? scopes c.record = some (scope, a))
      (hbody : scope.overrideOf? c = some body) (h : Expands false scopes body t) :
      Expands true scopes (.column c) (.override c a t)
  | read {overriding scopes c t}
      (hplain : overriding = true → ∀ scope a, Scope.owner? scopes c.record = some (scope, a) →
        scope.overrideOf? c = none)
      (h : Resolve.Reads scopes c t) : Expands overriding scopes (.column c) t
  | literal {overriding scopes v l} : Expands overriding scopes (.literal v) (.literal l)
  | bound {overriding scopes v} : Expands overriding scopes (.bound v) (.param (.value v))
  | fieldValue {overriding scopes field v} :
      Expands overriding scopes (.fieldValue field v) (.param (.field field v))
  | interval {overriding scopes amount unit} :
      Expands overriding scopes (.interval amount unit) (.interval amount unit)
  | wildcard {overriding scopes} : Expands overriding scopes .wildcard .wildcard
  | call {overriding scopes function es ts} (hlength : es.length = ts.length)
      (h : ∀ p ∈ es.zip ts, Expands overriding scopes p.1 p.2) :
      Expands overriding scopes (.call function es) (.call function ts)
  | binary {overriding scopes op e e' t t'} (h : Expands overriding scopes e t)
      (h' : Expands overriding scopes e' t') :
      Expands overriding scopes (.binary op e e') (.binary op t t')
  | logical {overriding scopes op es ts} (hlength : es.length = ts.length)
      (h : ∀ p ∈ es.zip ts, Expands overriding scopes p.1 p.2) :
      Expands overriding scopes (.logical op es) (.logical op ts)
  | not {overriding scopes e t} (h : Expands overriding scopes e t) :
      Expands overriding scopes (.not e) (.not t)
  | isNull {overriding scopes negated e t} (h : Expands overriding scopes e t) :
      Expands overriding scopes (.isNull negated e) (.isNull negated t)
  | inNoValues {overriding scopes negated e} :
      Expands overriding scopes (.inValues negated e []) (.inNothing negated)
  | inNoExprs {overriding scopes negated e} :
      Expands overriding scopes (.inExprs negated e []) (.inNothing negated)
  | inArray {overriding scopes negated e values t} (h : Expands overriding scopes e t) :
      Expands overriding scopes (.inValues negated e values) (.inArray negated t values)
  | inChunks {overriding scopes negated e values chunks}
      (h : ∀ chunk ∈ chunks, Expands overriding scopes e chunk.1) :
      Expands overriding scopes (.inValues negated e values) (.inChunks negated chunks)
  | inTerms {overriding scopes negated e es t ts} (h : Expands overriding scopes e t)
      (hlength : es.length = ts.length) (hes : ∀ p ∈ es.zip ts, Expands overriding scopes p.1 p.2) :
      Expands overriding scopes (.inExprs negated e es) (.inTerms negated t ts)
  | inQuery {overriding scopes negated e s t q} (h : Expands overriding scopes e t)
      (hquery : ExpandsQuery overriding scopes s q) :
      Expands overriding scopes (.inSelect negated e s) (.inQuery negated t q)
  | caseWhen {overriding scopes e? es e?' t? ts t?'} (hlength : e?.toList.length = t?.toList.length)
      (h : ∀ p ∈ e?.toList.zip t?.toList, Expands overriding scopes p.1 p.2)
      (hbranches : es.length = ts.length)
      (hconditions : ∀ p ∈ es.zip ts, Expands overriding scopes p.1.1 p.2.1)
      (hresults : ∀ p ∈ es.zip ts, Expands overriding scopes p.1.2 p.2.2)
      (hlength' : e?'.toList.length = t?'.toList.length)
      (h' : ∀ p ∈ e?'.toList.zip t?'.toList, Expands overriding scopes p.1 p.2) :
      Expands overriding scopes (.caseWhen e? es e?') (.caseWhen t? ts t?')
  | search {overriding scopes mode es query ts} (hlength : es.length = ts.length)
      (h : ∀ p ∈ es.zip ts, Expands overriding scopes p.1 p.2) :
      Expands overriding scopes (.search mode es query) (.search mode ts query)
  | temporal {overriding scopes op e t} (h : Expands overriding scopes e t) :
      Expands overriding scopes (.temporal op e) (.temporal op t)
  | subquery {overriding scopes s q} (h : ExpandsQuery overriding scopes s q) :
      Expands overriding scopes (.subquery s) (.subquery q)
  | existsRow {overriding scopes s q} (h : ExpandsQuery overriding scopes s q) :
      Expands overriding scopes (.existsRow s) (.existsRow q)

/-- A query inside these scopes becomes this one. -/
inductive ExpandsQuery : (overriding : Bool) → Scopes → Select → Query → Prop where
  | query {overriding outer s first labelled c}
      (hfields : c.output.map (·.map (·.field)) = s.resultFields?)
      (houtput : ∀ column ∈ c.output.getD [],
        Expands overriding (s.innerScopes outer first) (s.outputExpr column.field) column.expr)
      (hjoined : s.joins.length = c.joins.length)
      (hjoins : ∀ p ∈ s.joins.zip c.joins,
        Expands overriding (s.innerScopes outer first) p.1.on p.2.on)
      (hfiltered : s.filter.toList.length = c.filter.toList.length)
      (hfilter : ∀ p ∈ s.filter.toList.zip c.filter.toList,
        Expands overriding (s.innerScopes outer first) p.1 p.2)
      (hgrouped : (s.grouping.getD []).length = (c.grouping.getD []).length)
      (hgrouping : ∀ p ∈ (s.grouping.getD []).zip (c.grouping.getD []),
        Expands overriding (s.innerScopes outer first) p.1 p.2)
      (hordered : (s.ordering.getD []).length = (c.ordering.getD []).length)
      (hordering : ∀ p ∈ (s.ordering.getD []).zip (c.ordering.getD []),
        Expands overriding (s.innerScopes outer first) p.1.expr p.2.expr) :
      ExpandsQuery overriding outer s (s.query outer first labelled c)

end

namespace Expands

/-- What expressions and queries become, as an invariant of resolving. -/
def invariant (overriding : Bool) : Resolve.Invariant where
  Terms scopes e _ t _ := Expands overriding scopes e t
  Queries scopes s _ q _ := ExpandsQuery overriding scopes s q

theorem all {overriding : Bool} {scopes : Scopes} {es : List Expr} {ts : List Term}
    {first last : Alias}
    (h : Resolve.InTurn ((invariant overriding).Terms scopes) es first ts last) :
    es.length = ts.length ∧ ∀ p ∈ es.zip ts, Expands overriding scopes p.1 p.2 :=
  h.zip (Expands overriding scopes) fun _ _ _ _ h => h

theorem congruence (overriding : Bool) (scopes : Scopes) :
    (invariant overriding).Congruence scopes where
  literal := .literal
  bound := .bound
  fieldValue := .fieldValue
  interval := .interval
  wildcard := .wildcard
  call h := .call (all h).1 (all h).2
  binary h h' := .binary h h'
  logical h := .logical (all h).1 (all h).2
  not h := .not h
  isNull h := .isNull h
  inNoValues := .inNoValues
  inNoExprs := .inNoExprs
  inArray _ h := .inArray h
  inChunks _ _ h := by
    refine .inChunks fun chunk hchunk => ?_
    obtain ⟨_, _, _, -, he⟩ := h.of_mem_right hchunk
    exact he
  inTerms _ h h' := .inTerms h (all h').1 (all h').2
  inQuery h h' := .inQuery h h'
  caseWhen h hbranches h' := by
    obtain ⟨hlength, hconditions⟩ := hbranches.zip
      (fun b b' => Expands overriding scopes b.1 b'.1) fun _ _ _ _ ⟨_, h, _⟩ => h
    obtain ⟨-, hresults⟩ := hbranches.zip
      (fun b b' => Expands overriding scopes b.2 b'.2) fun _ _ _ _ ⟨_, _, h⟩ => h
    exact .caseWhen (all h.toList).1 (all h.toList).2 hlength hconditions hresults (all h'.toList).1
      (all h'.toList).2
  search _ h := .search (all h).1 (all h).2
  temporal h := .temporal h
  subquery h := .subquery h
  existsRow h := .existsRow h

/-- The fields of a list of results, with what their expressions become. -/
theorem output {overriding : Bool} {scopes : Scopes} {s : Select} {fields? : Option (List String)}
    {columns? : Option (List (FieldExprOf Term))} {first last : Alias}
    (h : Resolve.IfAny (Resolve.InTurn ((invariant overriding).Columns scopes s)) fields? first
      columns? last) :
    columns?.map (·.map (·.field)) = fields? ∧ ∀ column ∈ columns?.getD [],
      Expands overriding scopes (s.outputExpr column.field) column.expr := by
  cases h with
  | none => exact ⟨rfl, fun _ h => by cases h⟩
  | some h =>
      constructor
      · exact congrArg some (h.map_eq (·.field) fun _ _ _ _ h => h.1)
      · intro column hcolumn
        obtain ⟨field, _, _, hfield, hexpr⟩ := h.of_mem_right hcolumn
        rw [hfield]
        exact hexpr

/-- A query becomes what its clauses become inside it. -/
theorem of_clauses {overriding : Bool} {outer : Scopes} {s : Select} {labelled : Bool}
    {c : Resolve.Clauses} {first last : Alias}
    (h : (invariant overriding).Clauses (s.innerScopes outer first) s
      (first + (s.scopeRecords outer).length) c last) :
    ExpandsQuery overriding outer s (s.query outer first labelled c) := by
  cases h with
  | mk houtput hjoins hfilter hgrouping hordering =>
      obtain ⟨hjoined, hon⟩ := hjoins.zip
        (fun j j' => Expands overriding (s.innerScopes outer first) j.on j'.on)
        fun _ _ _ _ h => h.2.2
      obtain ⟨hordered, hkeys⟩ := hordering.getD.zip
        (fun k k' => Expands overriding (s.innerScopes outer first) k.expr k'.expr)
        fun _ _ _ _ h => h.2
      exact .query (output houtput).1 (output houtput).2 hjoined hon (all hfilter.toList).1
        (all hfilter.toList).2 (all hgrouping.getD).1 (all hgrouping.getD).2 hordered hkeys

theorem lawful_plain : (invariant false).Lawful Resolve.plainColumn where
  congruence := congruence false
  column h := .read (fun h => by cases h) (Resolve.plainColumn_eq_ok h).1
  query _ h := of_clauses h

theorem lawful_overridden (dialect : Dialect) :
    (invariant true).Lawful (Resolve.overriddenColumn dialect) where
  congruence := congruence true
  column h := by
    rcases Resolve.overriddenColumn_eq_ok h with
      ⟨scope, a, body, t, howner, hbody, hfield, ht, rfl⟩ | ⟨hno, h⟩
    · exact .override hfield howner hbody (Resolve.exprWith_keeps lawful_plain _ ht)
    · exact .read (fun _ => hno) (Resolve.plainColumn_eq_ok h).1
  query _ h := of_clauses h

end Expands

/-! ### Whole statements -/

/-- The parts of a command. -/
def Command.parts : Command → List Part
  | query q => q.parts
  | command => partsAll [] command.operands

theorem Command.parts_of_change {command : Command} (h : command.isQuery = false) :
    command.parts = partsAll [] command.operands := by
  cases command with
  | query q => cases h
  | insert | update | delete | createIndex | dropIndex => rfl

/-- The part is an overriding expression. -/
def Part.isOverride : Part → Bool
  | override .. => true
  | column _ | query .. => false

/-- A statement becomes this command, with its fields overridden. -/
inductive ExpandsStatement (dialect : Dialect) : Statement → Command → Prop where
  | select {s q} (h : ExpandsQuery true [] s q) : ExpandsStatement dialect (.select s) (.query q)
  | change {s command} (hchange : s.isSelect = false) (hquery : command.isQuery = false)
      (hlength : s.operands.length = command.operands.length)
      (h : ∀ p ∈ s.operands.zip command.operands, Expands true (s.changeScopes dialect) p.1 p.2) :
      ExpandsStatement dialect s command

namespace Parts

/-- Where nothing is overridden there is no overriding expression. -/
theorem plain : Additive fun _ _ _ ps _ => ∀ p ∈ ps, p.isOverride = false where
  nil _ h := by cases h
  append h h' := List.forall_mem_append.mpr ⟨h, h'⟩
  column _ := List.forall_mem_singleton.mpr rfl
  query _ _ h := List.forall_mem_cons.mpr ⟨rfl, h⟩

/-- There is no overriding expression inside another. -/
theorem overriddenOnce (dialect : Dialect) : Overriding dialect fun _ _ _ ps _ =>
    ∀ c a body, .override c a body ∈ ps → ∀ p ∈ body.parts [], p.isOverride = false where
  nil _ _ _ h := by cases h
  append h h' c a body hmem := (List.mem_append.mp hmem).elim (h c a body) (h' c a body)
  column _ c a body h := by cases List.mem_singleton.mp h
  query _ _ h c a body hmem := h c a body ((List.mem_cons.mp hmem).resolve_left (by simp))
  override hbody h c a body hmem := by
    rcases List.mem_cons.mp hmem with heq | hmem
    · cases heq
      exact Resolve.exprWith_keeps (lawful_plain plain) _ hbody []
    · exact h c a body hmem

end Parts

/-- A change becomes what its expressions become, in whose parts nothing is overridden twice. -/
theorem Statement.change_expands {s : Statement} {dialect : Dialect} {command : Command}
    (hchange : s.isSelect = false) (h : s.resolve dialect = .ok command) :
    ExpandsStatement dialect s command ∧ ∀ c a body, .override c a body ∈ command.parts →
      ∀ p ∈ body.parts [], p.isOverride = false := by
  obtain ⟨hquery, first, last, hoperands⟩ := operands_resolved h
  rw [hchange] at hquery
  have hexpands := Expands.all (hoperands.mono fun e _ _ _ he =>
    Resolve.exprWith_keeps (Expands.lawful_overridden dialect) e he)
  have honce := Parts.overriddenOnce dialect
  have hparts := Parts.all honce.toAdditive (hoperands.mono fun e _ _ _ he =>
    Resolve.exprWith_keeps (Parts.lawful_overridden honce) e he) []
  rw [Command.parts_of_change hquery]
  exact ⟨.change hchange hquery hexpands.1 hexpands.2, hparts⟩

/-- Overriding goes one level deep: an overriding expression is entered once, a statement becomes
what overriding its fields makes of it, and no overriding expression holds another. -/
theorem Statement.overriding_stops (s : Statement) (dialect : Dialect) :
    (∀ deeper, Resolve.reenter dialect (Resolve.reenter dialect deeper) =
      Resolve.columnRule dialect) ∧
    ∀ compiled, compile dialect s = .ok compiled → ∃ command, s.resolve dialect = .ok command ∧
      compiled = command.compiled dialect ∧ ExpandsStatement dialect s command ∧
      ∀ c a body, .override c a body ∈ command.parts →
        ∀ p ∈ body.parts [], p.isOverride = false := by
  refine ⟨Resolve.reenter_twice dialect, fun compiled hcompile => ?_⟩
  cases hchange : s.isSelect with
  | true =>
      cases s with
      | select s =>
          obtain ⟨q, next, hselect, hresolve, hcompiled⟩ := Select.resolve_of_compile hcompile
          have hexpands :=
            Resolve.selectWith_keeps (Expands.lawful_overridden dialect) true s hselect
          have hparts := Resolve.selectWith_keeps
            (Parts.lawful_overridden (Parts.overriddenOnce dialect)) true s hselect []
          exact ⟨_, hresolve, hcompiled, .select hexpands, hparts⟩
      | insert | update | delete | createIndex | dropIndex => cases hchange
  | false =>
      obtain ⟨command, hresolve, hcompiled⟩ := resolve_of_compile hcompile
      exact ⟨command, hresolve, hcompiled, change_expands hchange hresolve⟩

namespace Sample

/-- Orders whose fields stand for each other, in one case by way of a query that overrides a field
of its own. -/
def twistedOrders : Select where
  record := orders
  overrides :=
    [⟨"id", .binary .add (.col orders "id") (.col orders "item")⟩,
      ⟨"item", .subquery {
        record := tags
        selection := .count
        overrides := [⟨"item", .col orders "item"⟩]
        filter := some (.binary .eq (.col tags "item") (.col orders "id")) }⟩]

/-- Either field is overridden once. -/
theorem twistedOrders_overridden : ∃ command,
    (Statement.select twistedOrders).resolve .sqlite = .ok command ∧
    ExpandsStatement .sqlite (.select twistedOrders) command ∧
    (command.parts.filter Part.isOverride).length = 2 ∧
    ∀ c a body, .override c a body ∈ command.parts →
      ∀ p ∈ body.parts [], p.isOverride = false := by
  obtain ⟨command, hcommand, -, hexpands, hplain⟩ :=
    ((Statement.select twistedOrders).overriding_stops .sqlite).2 _ rfl
  refine ⟨command, hcommand, hexpands, ?_, hplain⟩
  cases hcommand
  rfl

end Sample

end RecordStore
