import RecordStore.Proofs.Sql.Capture
import RecordStore.Proofs.Sql.Resolves
import RecordStore.Proofs.Sql.Traversal

/-! # The expressions of a change

An insertion, an update or a deletion has expressions that are resolved one after the other, in a
scope that lists the changed record type only (`Statement.operands_resolved`). -/

namespace RecordStore

namespace Statement

/-- The expressions of a change. -/
def operands : Statement → List Expr
  | insert i => i.values.map (·.expr)
  | update u => u.assignments.map (·.expr) ++ u.filter.toList
  | delete d => d.filter.toList
  | select _ | createIndex _ | dropIndex _ => []

/-- The statement is a query. -/
def isSelect : Statement → Bool
  | select _ => true
  | insert _ | update _ | delete _ | createIndex _ | dropIndex _ => false

/-- The scope of a change. -/
def changeScopes (s : Statement) (dialect : Dialect) : Scopes :=
  match s with
  | insert i => [.ofChange i.record 0 false]
  | update u => [.ofChange u.record 0 dialect.aliasesMutationTarget]
  | delete d => [.ofChange d.record 0 dialect.aliasesMutationTarget]
  | select _ | createIndex _ | dropIndex _ => []

/-- A change lists the record type that it changes, and overrides nothing. -/
theorem owner_changeScopes {s : Statement} {dialect : Dialect} {r : RecordType} {scope : Scope}
    {a : Alias} (h : Scope.owner? (s.changeScopes dialect) r = some (scope, a)) :
    s.record.sameAs r = true ∧ scope.overrides = [] := by
  cases s with
  | insert _ | update _ | delete _ =>
      obtain ⟨rfl, -, hsame⟩ := Scope.owner_ofChange h
      exact ⟨hsame, rfl⟩
  | select _ | createIndex _ | dropIndex _ => cases h

theorem resolve_of_compile {s : Statement} {dialect : Dialect} {compiled : CompiledStatement}
    (h : compile dialect s = .ok compiled) :
    ∃ command, s.resolve dialect = .ok command ∧ compiled = command.compiled dialect := by
  unfold compile at h
  cases hresolve : s.resolve dialect with
  | error e =>
      rw [hresolve] at h
      cases h
  | ok command =>
      rw [hresolve] at h
      exact ⟨command, rfl, (Except.ok.inj h).symm⟩

/-- Nothing stands for a field of a change. -/
theorem overriddenColumn_changeScopes (s : Statement) (dialect : Dialect) (c : ColumnRef) :
    Resolve.overriddenColumn dialect (s.changeScopes dialect) c =
      Resolve.plainColumn (s.changeScopes dialect) c := by
  refine Resolve.overriddenColumn_eq_plain dialect fun scope a howner => ?_
  unfold Scope.overrideOf?
  rw [(owner_changeScopes howner).2]
  split <;> rfl

end Statement

/-- The command is a query. -/
def Command.isQuery : Command → Bool
  | query _ => true
  | insert .. | update .. | delete .. | createIndex .. | dropIndex .. => false

/-- What the expressions of a change resolve to. -/
def Command.operands : Command → List Term
  | insert _ _ values => values
  | update _ _ assignments filter => assignments.map (·.2) ++ filter.toList
  | delete _ _ filter => filter.toList
  | query _ | createIndex .. | dropIndex .. => []

namespace Resolve

/-- The expression resolves to the term in these scopes, as it does in a statement. -/
abbrev Resolved (dialect : Dialect) (scopes : Scopes) (e : Expr) (first : Alias) (t : Term)
    (last : Alias) : Prop :=
  exprWith dialect (overriddenColumn dialect) scopes e first = .ok t last

variable {dialect : Dialect} {scopes : Scopes} {first last : Alias}

theorem exprs_resolved {es : List Expr} {ts : List Term}
    (h : exprs dialect true scopes es first = .ok ts last) :
    InTurn (Resolved dialect scopes) es first ts last := by
  induction es generalizing first ts with
  | nil =>
      obtain ⟨rfl, rfl⟩ := pure_eq_ok.mp h
      exact .nil
  | cons e es ih =>
      obtain ⟨t, n, ht, h⟩ := bind_eq_ok.mp h
      obtain ⟨ts, n', hts, h⟩ := bind_eq_ok.mp h
      obtain ⟨rfl, rfl⟩ := pure_eq_ok.mp h
      exact .cons ht (ih hts)

theorem condition_resolved {e? : Option Expr} {t? : Option Term}
    (h : condition dialect true scopes e? first = .ok t? last) :
    InTurn (Resolved dialect scopes) e?.toList first t?.toList last := by
  cases e? with
  | none =>
      obtain ⟨rfl, rfl⟩ := pure_eq_ok.mp h
      exact .nil
  | some e =>
      obtain ⟨t, n, ht, h⟩ := bind_eq_ok.mp h
      obtain ⟨rfl, rfl⟩ := pure_eq_ok.mp h
      exact .cons ht .nil

theorem assignments_resolved {record : RecordType} {vs : List FieldExpr}
    {assignments : List (String × Term)}
    (h : vs.mapM (assignment dialect true scopes record) first = .ok assignments last) :
    InTurn (Resolved dialect scopes) (vs.map (·.expr)) first (assignments.map (·.2)) last := by
  induction vs generalizing first assignments with
  | nil =>
      obtain ⟨rfl, rfl⟩ := pure_eq_ok.mp h
      exact .nil
  | cons v vs ih =>
      obtain ⟨a, rest, next, ha, hrest, rfl⟩ := mapM_cons_eq_ok.mp h
      obtain ⟨column, n, hcolumn, ha⟩ := bind_eq_ok.mp ha
      obtain ⟨-, rfl⟩ := ofExcept_eq_ok.mp hcolumn
      obtain ⟨t, n', ht, ha⟩ := bind_eq_ok.mp ha
      obtain ⟨rfl, rfl⟩ := pure_eq_ok.mp ha
      exact .cons ht (ih hrest)

/-- Steps that only look fields up take no alias. -/
theorem lookups_next {α β : Type} {f : α → Except StatementError β} {as : List α} {bs : List β}
    (h : as.mapM (fun a => (ofExcept (f a) : Resolve β)) first = .ok bs last) : last = first := by
  induction as generalizing first bs with
  | nil => exact (pure_eq_ok.mp h).2.symm
  | cons a as ih =>
      obtain ⟨b, rest, next, hb, hrest, -⟩ := mapM_cons_eq_ok.mp h
      rw [ih hrest, (ofExcept_eq_ok.mp hb).2]

theorem changeScope_bind {β : Type} (record : RecordType) (aliased : Bool)
    (f : Scope × Alias → Resolve β) : (changeScope record aliased >>= f) first =
      f (.ofChange record first aliased, first) (first + 1) :=
  bind_of_ok rfl

theorem insert_resolved {i : Insert} {command : Command} {next : Alias}
    (h : insert dialect true [] i 0 = .ok command next) : command.isQuery = false ∧ ∃ first last,
    InTurn (Resolved dialect [.ofChange i.record 0 false]) (i.values.map (·.expr)) first
      command.operands last := by
  unfold insert at h
  obtain ⟨table, n, htable, h⟩ := bind_eq_ok.mp h
  obtain ⟨-, rfl⟩ := ofExcept_eq_ok.mp htable
  split at h
  · next hempty =>
      obtain ⟨rfl, -⟩ := pure_eq_ok.mp h
      rw [List.isEmpty_iff.mp hempty]
      exact ⟨rfl, 0, 0, .nil⟩
  · obtain ⟨columns, n, hcolumns, h⟩ := bind_eq_ok.mp h
    obtain rfl := lookups_next hcolumns
    rw [changeScope_bind] at h
    obtain ⟨values, n', hvalues, h⟩ := bind_eq_ok.mp h
    obtain ⟨rfl, -⟩ := pure_eq_ok.mp h
    exact ⟨rfl, _, _, exprs_resolved hvalues⟩

theorem update_resolved {u : Update} {command : Command} {next : Alias}
    (h : update dialect true [] u 0 = .ok command next) : command.isQuery = false ∧ ∃ first last,
    InTurn (Resolved dialect [.ofChange u.record 0 dialect.aliasesMutationTarget])
      (u.assignments.map (·.expr) ++ u.filter.toList) first command.operands last := by
  unfold update at h
  obtain ⟨table, n, htable, h⟩ := bind_eq_ok.mp h
  obtain ⟨-, rfl⟩ := ofExcept_eq_ok.mp htable
  dsimp only at h
  split at h
  · cases h
  · rw [changeScope_bind] at h
    obtain ⟨assignments, n, hassignments, h⟩ := bind_eq_ok.mp h
    obtain ⟨filter, n', hfilter, h⟩ := bind_eq_ok.mp h
    obtain ⟨rfl, -⟩ := pure_eq_ok.mp h
    exact ⟨rfl, _, _, (assignments_resolved hassignments).append (condition_resolved hfilter)⟩

theorem delete_resolved {d : Delete} {command : Command} {next : Alias}
    (h : delete dialect true [] d 0 = .ok command next) : command.isQuery = false ∧ ∃ first last,
    InTurn (Resolved dialect [.ofChange d.record 0 dialect.aliasesMutationTarget])
      d.filter.toList first command.operands last := by
  unfold delete at h
  obtain ⟨table, n, htable, h⟩ := bind_eq_ok.mp h
  obtain ⟨-, rfl⟩ := ofExcept_eq_ok.mp htable
  rw [changeScope_bind] at h
  obtain ⟨filter, n, hfilter, h⟩ := bind_eq_ok.mp h
  obtain ⟨rfl, -⟩ := pure_eq_ok.mp h
  exact ⟨rfl, _, _, condition_resolved hfilter⟩

end Resolve

/-- The expressions of a change are resolved one after the other, in the scope of the change. -/
theorem Statement.operands_resolved {s : Statement} {dialect : Dialect} {command : Command}
    (h : s.resolve dialect = .ok command) : command.isQuery = s.isSelect ∧ ∃ first last,
    Resolve.InTurn (Resolve.Resolved dialect (s.changeScopes dialect)) s.operands first
      command.operands last := by
  unfold resolve at h
  cases hstatement : Resolve.statement dialect true [] s 0 with
  | error e next =>
      rw [hstatement] at h
      cases h
  | ok command' next =>
      rw [hstatement] at h
      obtain rfl := Except.ok.inj h
      cases s with
      | insert i => exact Resolve.insert_resolved hstatement
      | update u => exact Resolve.update_resolved hstatement
      | delete d => exact Resolve.delete_resolved hstatement
      | select s =>
          obtain ⟨q, n, -, hstatement⟩ := bind_eq_ok.mp hstatement
          obtain ⟨rfl, -⟩ := pure_eq_ok.mp hstatement
          exact ⟨rfl, 0, 0, .nil⟩
      | createIndex i =>
          obtain ⟨-, n, -, h⟩ := bind_eq_ok.mp hstatement
          obtain ⟨table, n', -, h⟩ := bind_eq_ok.mp h
          dsimp only at h
          split at h
          · cases h
          · obtain ⟨columns, n'', -, h⟩ := bind_eq_ok.mp h
            obtain ⟨rfl, -⟩ := pure_eq_ok.mp h
            exact ⟨rfl, 0, 0, .nil⟩
      | dropIndex i =>
          obtain ⟨-, n, -, h⟩ := bind_eq_ok.mp hstatement
          split at h
          · obtain ⟨table, n', -, h⟩ := bind_eq_ok.mp h
            obtain ⟨rfl, -⟩ := pure_eq_ok.mp h
            exact ⟨rfl, 0, 0, .nil⟩
          · obtain ⟨rfl, -⟩ := pure_eq_ok.mp h
            exact ⟨rfl, 0, 0, .nil⟩

end RecordStore
