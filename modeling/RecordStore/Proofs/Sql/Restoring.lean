import RecordStore.Proofs.Sql.Identifiers
import RecordStore.Proofs.Sql.OnePass

/-! # What compiling restores

A field is read, or overridden with overrides switched off (`OnePass.column_follows`), and every
change opens a scope of its own.  So one pass over a statement follows how it resolves
(`OnePass.statement_follows`), and whatever is added to a compilation leaves its scopes and its
switch as they were, also after an error (`OnePass.compiling_restores`). -/

namespace RecordStore

open Lexeme

namespace OnePass

variable {dialect : Dialect} {overriding : Bool} {scopes : Scopes}

/-! ### Fields -/

theorem atomic_plainColumn : Atomic Resolve.plainColumn := by
  intro scopes c n t n' h
  obtain ⟨hreads, -⟩ := Resolve.plainColumn_eq_ok h
  cases hreads <;> exact ⟨rfl, rfl⟩

theorem plainColumn_follows (dialect : Dialect) (overriding : Bool) :
    FollowsRule dialect overriding plainColumn Resolve.plainColumn where
  column scopes c := .write (fun _ _ hscopes => by rw [hscopes]) (plainColumn_steady scopes c)
  atomic := atomic_plainColumn

theorem atomic_columnRule (dialect : Dialect) (overriding : Bool) :
    Atomic (Resolve.columnRule dialect overriding) := by
  intro scopes c n t n' h
  cases overriding with
  | false => exact atomic_plainColumn h
  | true =>
      rcases Resolve.overriddenColumn_eq_ok h with ⟨_, _, _, _, -, -, -, -, rfl⟩ | ⟨-, hplain⟩
      · exact ⟨rfl, rfl⟩
      · exact atomic_plainColumn hplain

/-- Reading a field looks it up first. -/
theorem field_plainColumn (scopes : Scopes) (c : ColumnRef) : (do
    let _ ← ofExcept (c.record.field c.field)
    Resolve.plainColumn scopes c) = Resolve.plainColumn scopes c := by
  unfold Resolve.plainColumn
  cases c.record.field c.field <;> rfl

/-- Overrides are off where a field is overridden, and on again afterwards. -/
theorem column_follows (dialect : Dialect) (overriding : Bool) :
    FollowsRule dialect overriding column (Resolve.columnRule dialect overriding) where
  column scopes c := by
    have hplain := (plainColumn_follows dialect overriding).column scopes c
    cases overriding with
    | false =>
        change Follows dialect false scopes (column c)
          (Term.lexemes dialect <$> Resolve.plainColumn scopes c)
        rw [← field_plainColumn, map_bind]
        refine .ofExcept_bind _ fun _ => .get_bind fun c' _ hoverriding _ => ?_
        rw [hoverriding]
        exact hplain
    | true =>
        change Follows dialect true scopes (column c)
          (Term.lexemes dialect <$> Resolve.overriddenColumn dialect scopes c)
        unfold Resolve.overriddenColumn
        rw [map_bind]
        refine .ofExcept_bind _ fun _ => .get_bind fun c' _ hoverriding hscopes => ?_
        rw [hoverriding, hscopes]
        cases Scope.owner? scopes c.record with
        | none => exact hplain
        | some owner =>
            obtain ⟨scope, a⟩ := owner
            dsimp only [Option.bind_some, if_true]
            cases scope.overrideOf? c with
            | none => exact hplain
            | some body =>
                have hbody := exprWith_follows (plainColumn_follows dialect false) scopes body
                refine (hbody.operand atomic_plainColumn).withoutOverrides.congr ?_
                unfold Term.operand
                simp [Term.lexemes]
  atomic := atomic_columnRule dialect overriding

/-! ### Expressions -/

theorem expr_follows (e : Expr) : Follows dialect overriding scopes (expr e)
    (Term.lexemes dialect <$> Resolve.expr dialect overriding scopes e) :=
  exprWith_follows (column_follows dialect overriding) scopes e

theorem exprs_follows (es : List Expr) : Follows dialect overriding scopes (exprs es)
    ((fun ts => commaSeparated (termsLexemes dialect ts)) <$>
      Resolve.exprs dialect overriding scopes es) :=
  (exprsWith_follows (column_follows dialect overriding) scopes es).listed.congr
    (Functor.map_map ..)

theorem condition_follows (e? : Option Expr) : Follows dialect overriding scopes
    (optionalWith column (clause ["WHERE"] []) e?)
    ((fun t? => optionalClause ["WHERE"] (t?.map (Term.lexemes dialect))) <$>
      Resolve.condition dialect overriding scopes e?) := by
  cases e? with
  | none => exact .pure
  | some e =>
      refine ((Follows.put _).bind (expr_follows e)).congr ?_
      simp [Resolve.condition, optionalClause, clause]

/-! ### Changes -/

theorem writableColumn_follows (record : RecordType) (field : String) :
    Follows dialect overriding scopes (writableColumn record field)
      ((fun column => [identifier column]) <$>
        (ofExcept (record.writableColumn field) : Resolve String)) := by
  refine (Follows.ofExcept_bind _ fun column => .put _).congr ?_
  rw [map_eq_pure_bind]

/-- The columns that are written to, for the fields of a list. -/
theorem writableColumns_follow {α : Type} (record : RecordType) (field : α → String)
    (items : List α) : FollowsAll dialect overriding scopes
      (items.map fun item => writableColumn record (field item))
      ((List.map fun column => [identifier column]) <$> items.mapM fun item =>
        (ofExcept (record.writableColumn (field item)) : Resolve String)) :=
  FollowsAll.map rfl (fun _ _ => rfl) fun item _ => writableColumn_follows record (field item)

theorem targetLexemes_eq (target : TableItem) (aliased : Bool) : targetLexemes target aliased =
    identifier target.table :: if aliased then [space, tableAlias target.label] else [] := by
  cases aliased <;> rfl

theorem insert_follows (i : Insert) : Follows dialect overriding scopes (insert i)
    (Command.lexemes dialect <$> Resolve.insert dialect overriding scopes i) := by
  unfold Resolve.insert
  rw [map_bind]
  refine .ofExcept_bind _ fun table => ?_
  cases hvalues : i.values with
  | nil =>
      refine ((Follows.put _).bind (.put _)).congr ?_
      simp [Command.lexemes]
  | cons v vs =>
      have hcolumns : FollowsAll dialect overriding scopes _ _ :=
        writableColumns_follow i.record FieldExprOf.field (v :: vs)
      refine ((Follows.put _).bind ((Follows.put _).bind (hcolumns.listed.bind ((Follows.put _).bind
        ((Follows.inScope (fun _ => rfl) fun _ => exprs_follows _).bind (.put _)))))).congr ?_
      simp [Command.lexemes, columnNames, parenthesized, Resolve.changeScope, changeScope]

theorem assignment_follows (record : RecordType) (v : FieldExpr) :
    Follows dialect overriding scopes (assignment record v)
      ((fun (column, value) => identifier column :: space :: symbol "=" :: space ::
        value.lexemes dialect) <$> Resolve.assignment dialect overriding scopes record v) := by
  refine ((writableColumn_follows _ _).bind ((Follows.put _).bind (expr_follows _))).congr ?_
  simp [Resolve.assignment]

theorem update_follows (u : Update) : Follows dialect overriding scopes (update u)
    (Command.lexemes dialect <$> Resolve.update dialect overriding scopes u) := by
  have hassignments scopes : FollowsAll dialect overriding scopes
      (u.assignments.map (assignment u.record))
      ((List.map fun (column, value) => identifier column :: space :: symbol "=" :: space ::
        Term.lexemes dialect value) <$>
          u.assignments.mapM (Resolve.assignment dialect overriding scopes u.record)) :=
    FollowsAll.map rfl (fun _ _ => rfl) fun v _ => assignment_follows u.record v
  have hchange (table : String) (aliased : Bool) : Follows dialect overriding scopes
      (do
        put [word "UPDATE", space, identifier table]
        inScope (changeScope u.record aliased) fun a => do
          put (if aliased then [space, tableAlias a] else [])
          put (clause ["SET"] [])
          listed (u.assignments.map (assignment u.record))
          optionalWith column (clause ["WHERE"] []) u.filter) _ :=
    (Follows.put _).bind (.inScope (fun _ => rfl) fun a => (Follows.put _).bind
      ((Follows.put _).bind ((hassignments _).listed.bind (condition_follows _))))
  unfold Resolve.update
  rw [map_bind]
  refine .ofExcept_bind _ fun table => (Follows.refuseIf _ _ (.get_bind fun c hdialect _ _ => by
    rw [hdialect]
    exact hchange table _)).congr ?_
  cases u.assignments.isEmpty with
  | true => rfl
  | false =>
      simp [Command.lexemes, Resolve.changeScope, changeScope, targetLexemes_eq, clause]

theorem delete_follows (d : Delete) : Follows dialect overriding scopes (delete d)
    (Command.lexemes dialect <$> Resolve.delete dialect overriding scopes d) := by
  have hchange (table : String) (aliased : Bool) : Follows dialect overriding scopes
      (do
        put (words ["DELETE", "FROM"] ++ [space, identifier table])
        inScope (changeScope d.record aliased) fun a => do
          put (if aliased then [space, tableAlias a] else [])
          optionalWith column (clause ["WHERE"] []) d.filter) _ :=
    (Follows.put _).bind (.inScope (fun _ => rfl) fun a => (Follows.put _).bind
      (condition_follows _))
  unfold Resolve.delete
  rw [map_bind]
  refine .ofExcept_bind _ fun table => .get_bind fun c hdialect _ _ => ?_
  rw [hdialect]
  refine (hchange table _).congr ?_
  simp [Command.lexemes, Resolve.changeScope, changeScope, targetLexemes_eq]

/-! ### Indexes -/

theorem createIndex_follows (i : CreateIndex) : Follows dialect overriding scopes (createIndex i)
    (Command.lexemes dialect <$> Resolve.createIndex dialect i) := by
  have hcolumns : FollowsAll dialect overriding scopes _ _ :=
    writableColumns_follow i.record id i.fields
  have hindex (table : String) (ifMissing : Bool) : Follows dialect overriding scopes
      (do
        put (word "CREATE" :: space :: if i.unique then [word "UNIQUE", space] else [])
        put (word "INDEX" :: space ::
          if ifMissing then words ["IF", "NOT", "EXISTS"] ++ [space] else [])
        put [identifier i.name, space, word "ON", space, identifier table, space, symbol "("]
        listed (i.fields.map (writableColumn i.record))
        put [symbol ")"]) _ :=
    (Follows.put _).bind ((Follows.put _).bind ((Follows.put _).bind (hcolumns.listed.bind
      (.put _))))
  unfold Resolve.createIndex
  rw [map_bind]
  refine .ofExcept_bind _ fun _ => ?_
  rw [map_bind]
  refine .ofExcept_bind _ fun table => (Follows.refuseIf _ _ (.get_bind fun c hdialect _ _ => by
    rw [hdialect]
    exact hindex table _)).congr ?_
  cases i.fields.isEmpty with
  | true => rfl
  | false => simp [Command.lexemes, columnNames, parenthesized]

theorem dropIndex_follows (i : DropIndex) : Follows dialect overriding scopes (dropIndex i)
    (Command.lexemes dialect <$> Resolve.dropIndex dialect i) := by
  have htable (byTable : Bool) : Follows dialect overriding scopes
      (if byTable then do
        let table ← ofExcept i.record.tableName
        put [space, word "ON", space, identifier table] else pure ())
      (if byTable then do
        let table ← ofExcept i.record.tableName
        pure [space, word "ON", space, identifier table] else pure []) := by
    cases byTable with
    | false => exact .pure
    | true => exact .ofExcept_bind _ fun table => .put _
  unfold Resolve.dropIndex
  rw [map_bind]
  refine .ofExcept_bind _ fun _ => ((Follows.put _).bind (.get_bind fun c hdialect _ _ => by
    rw [hdialect]
    exact htable _)).congr ?_
  cases dialect.dropsIndexByTable with
  | false => simp [Command.lexemes]
  | true => simp [Command.lexemes]

theorem statement_follows (s : Statement) : Follows dialect overriding scopes (statement s)
    (Command.lexemes dialect <$> Resolve.statement dialect overriding scopes s) := by
  cases s with
  | select s =>
      refine (selectWith_follows (column_follows dialect overriding) scopes true s).congr ?_
      simp [Resolve.statement, Resolve.select, Command.lexemes, Query.lexemes]
  | insert i => exact insert_follows i
  | update u => exact update_follows u
  | delete d => exact delete_follows d
  | createIndex i => exact createIndex_follows i
  | dropIndex i => exact dropIndex_follows i

end OnePass

/-! ### Whole compilations -/

/-- What is added to a compilation at a time. -/
inductive Addition where
  | expr (e : Expr)
  | exprs (es : List Expr)
  | statement (s : Statement)

namespace Addition

/-- The step that adds it. -/
def add : Addition → Compiler.Step Unit
  | expr e => Compiler.expr e
  | exprs es => Compiler.exprs es
  | statement s => Compiler.statement s

/-- The step that adds it in one pass. -/
def addInOnePass : Addition → OnePass.Step Unit
  | expr e => OnePass.expr e
  | exprs es => OnePass.exprs es
  | statement s => OnePass.statement s

end Addition

/-- The text so far is the beginning of the text that it is extended to. -/
theorem Compiler.Extends.sql {c c' : Compiler} (h : c.Extends c') :
    c.finish.sql.toList <+: c'.finish.sql.toList := by
  obtain ⟨added, hadded⟩ := h.tokens
  obtain ⟨n, htexts⟩ := CompiledStatement.texts_append_tokens c.dialect c.tokens added 0
  have hsql : c'.finish.sql =
      c.finish.sql ++ String.join (CompiledStatement.texts c.dialect n added) := by
    change String.join (CompiledStatement.texts c'.dialect 0 c'.tokens) = _
    rw [h.dialect, ← hadded, htexts, String.join_append]
    rfl
  rw [hsql, String.toList_append]
  exact List.prefix_append _ _

namespace OnePass

/-- The compilation after these additions, whether or not each of them has failed. -/
def addAll : OnePass → List Addition → OnePass
  | c, [] => c
  | c, a :: as => (finalState (a.addInOnePass c)).addAll as

/-- One pass over this compilation ends as resolving beforehand does, with the same text or with the
same error.  After an error the same aliases are taken, but resolving beforehand has added no text.
-/
inductive EndsLike (c : OnePass) : EStateM.Result StatementError OnePass Unit →
    EStateM.Result StatementError Compiler Unit → Prop where
  | ok {c' : OnePass} : EndsLike c (.ok () c') (.ok () c'.toCompiler)
  | error {e : StatementError} {c' : OnePass} :
      EndsLike c (.error e c') (.error e { c.toCompiler with nextAlias := c'.nextAlias })

/-- A step that adds what is resolved beforehand. -/
theorem Follows.endsLike {α : Type} {step : Step Unit} {c : OnePass} (r : Compiler → Resolve α)
    (lexemes : Dialect → α → List Lexeme)
    (h : Follows c.dialect c.overriding c.scopes step (lexemes c.dialect <$> r c.toCompiler)) :
    Extends c (finalState (step c)) ∧ EndsLike c (step c) ((do
      let x ← Compiler.resolve r
      let dialect := (← get).dialect
      Compiler.emit (tokensOf dialect (lexemes dialect x)) : Compiler.Step Unit) c.toCompiler) := by
  have hends := h c rfl rfl rfl
  change EndsAs c (EStateM.map _ (r c.toCompiler) c.nextAlias) _ at hends
  unfold EStateM.map at hends
  cases hr : r c.toCompiler c.nextAlias with
  | ok x next =>
      have hresolve : Compiler.resolve r c.toCompiler =
          .ok x { c.toCompiler with nextAlias := next } := by
        unfold Compiler.resolve
        rw [hr]
      rw [hr] at hends
      rw [bind_of_ok hresolve]
      generalize step c = result at hends
      cases hends with
      | @ok _ c' hextends htokens =>
          refine ⟨hextends, ?_⟩
          have hcompiler : c'.toCompiler = { c.toCompiler with
              tokens := c.tokens ++ tokensOf c.dialect (lexemes c.dialect x)
              nextAlias := c'.nextAlias } := by
            dsimp only
            rw [← htokens, ← hextends.dialect, ← hextends.scopes, ← hextends.overriding]
          change EndsLike c (.ok () c') (.ok () { c.toCompiler with
              tokens := c.tokens ++ tokensOf c.dialect (lexemes c.dialect x)
              nextAlias := c'.nextAlias })
          rw [← hcompiler]
          exact .ok
  | error e next =>
      have hresolve : Compiler.resolve r c.toCompiler =
          .error e { c.toCompiler with nextAlias := next } := by
        unfold Compiler.resolve
        rw [hr]
      rw [hr] at hends
      rw [bind_of_error hresolve]
      generalize step c = result at hends
      cases hends with
      | error hextends => exact ⟨hextends, .error⟩

end OnePass

namespace Addition

open OnePass

/-- What is added in one pass comes after what there was, and is what is added otherwise. -/
theorem addInOnePass_ends (a : Addition) (c : OnePass) :
    c.Extends (finalState (a.addInOnePass c)) ∧
      c.EndsLike (a.addInOnePass c) (a.add c.toCompiler) := by
  cases a with
  | expr e =>
      exact Follows.endsLike (fun c => Resolve.expr c.dialect c.overriding c.scopes e)
        Term.lexemes (expr_follows e)
  | exprs es =>
      exact Follows.endsLike (fun c => Resolve.exprs c.dialect c.overriding c.scopes es)
        (fun dialect ts => commaSeparated (termsLexemes dialect ts)) (exprs_follows es)
  | statement s =>
      exact Follows.endsLike (fun c => Resolve.statement c.dialect c.overriding c.scopes s)
        Command.lexemes (statement_follows s)

end Addition

namespace OnePass

theorem extends_addAll (as : List Addition) (c : OnePass) : c.Extends (c.addAll as) := by
  induction as generalizing c with
  | nil => exact .refl c
  | cons a as ih => exact (a.addInOnePass_ends c).1.trans (ih _)

/-- What is resolved beforehand leaves what one pass leaves, but for the text of a failed step. -/
theorem EndsLike.extends {c : OnePass} {result : EStateM.Result StatementError OnePass Unit}
    {result' : EStateM.Result StatementError Compiler Unit} (h : EndsLike c result result')
    (hextends : c.Extends (finalState result)) : c.toCompiler.Extends (finalState result') := by
  cases h with
  | ok => exact hextends.toExtends
  | error =>
      exact ⟨rfl, rfl, rfl, List.prefix_rfl, hextends.nextAlias⟩

/-- Whatever is added to a compilation, whether or not it fails at some depth: the scopes, the
switch for overrides, the dialect and the text are as they were, but for text that comes after, and
no alias becomes free again.  One pass, which pushes and pops the scopes and turns the switch by
hand, ends as resolving beforehand does.  All scopes that it opens from the beginning of a
compilation have other aliases. -/
theorem compiling_restores :
    (∀ (a : Addition) (c : OnePass),
      c.Extends (finalState (a.addInOnePass c)) ∧
      c.finish.sql.toList <+: (finalState (a.addInOnePass c)).finish.sql.toList ∧
      c.EndsLike (a.addInOnePass c) (a.add c.toCompiler) ∧
      c.toCompiler.Extends (finalState (a.add c.toCompiler))) ∧
    ∀ (dialect : Dialect) (as : List Addition),
      let c := addAll { dialect } as
      c.scopes = [] ∧ c.overriding = true ∧ c.aliases = List.range c.nextAlias ∧
        c.aliases.Nodup := by
  constructor
  · intro a c
    obtain ⟨hextends, hends⟩ := a.addInOnePass_ends c
    exact ⟨hextends, hextends.toExtends.sql, hends, hends.extends hextends⟩
  · intro dialect as
    have hextends := extends_addAll as { dialect }
    have haliases : (addAll { dialect } as).aliases =
        List.range (addAll { dialect } as).nextAlias := by
      rw [List.range_eq_range']
      exact hextends.aliases
    refine ⟨hextends.scopes, hextends.overriding, haliases, ?_⟩
    rw [haliases]
    exact List.nodup_range

end OnePass

namespace Sample

/-- Whether there is a tag, whose label cannot be told. -/
def unlabelledTag : Expr :=
  .existsRow { record := tags, overrides := [⟨"label", .caseWhen none [] none⟩] }

/-- The error is raised inside a query and inside an overriding expression. -/
example : ∃ c, (Addition.expr unlabelledTag).addInOnePass { dialect := .sqlite } =
    .error (.invalidClause .caseWithoutBranch) c ∧
    c.opened.length = 1 ∧ c.scopes = [] ∧ c.overriding = true :=
  ⟨_, rfl, rfl, rfl, rfl⟩

end Sample

end RecordStore
