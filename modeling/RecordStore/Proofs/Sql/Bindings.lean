import Mathlib.Data.List.Forall2
import RecordStore.Compiler

/-! # What a printed statement binds

The bindings of a statement are those of its placeholders from left to right
(`Command.bindings_compiled`).  Blanks, words, parentheses and commas bind nothing, so that a term
binds what its parts bind, one part after the other, and a query what its clauses bind
(`Query.bindings_eq`).  Tests against lists of values and searches are left out here: what they bind
depends on the dialect. -/

namespace RecordStore

namespace Lexeme

/-- What a lexeme binds. -/
@[simp] def binding? : Lexeme → Option Binding
  | param b => some b
  | _ => none

/-- What lexemes bind, from left to right. -/
def bindings (ls : List Lexeme) : List Binding := ls.flatMap fun l => l.binding?.toList

/-! ### Lists of lexemes -/

@[simp] theorem bindings_nil : bindings [] = [] := rfl

@[simp] theorem bindings_cons (l : Lexeme) (ls : List Lexeme) :
    bindings (l :: ls) = l.binding?.toList ++ bindings ls := rfl

@[simp] theorem bindings_append (ls ls' : List Lexeme) :
    bindings (ls ++ ls') = bindings ls ++ bindings ls' := List.flatMap_append

@[simp] theorem bindings_words (ws : List String) : bindings (words ws) = [] := by
  unfold words
  induction ws with
  | nil => rfl
  | cons w ws ih =>
      cases ws with
      | nil => rfl
      | cons w' ws => exact ih

@[simp] theorem bindings_parenthesized (ls : List Lexeme) :
    bindings (parenthesized ls) = bindings ls := by
  simp [parenthesized]

@[simp] theorem bindings_grouped (needed : Bool) (ls : List Lexeme) :
    bindings (grouped needed ls) = bindings ls := by
  cases needed <;> simp [grouped]

/-- A separator that binds nothing. -/
theorem bindings_intercalate {separator : List Lexeme} (h : bindings separator = [])
    (items : List (List Lexeme)) :
    bindings (separator.intercalate items) = items.flatMap bindings := by
  induction items with
  | nil => rfl
  | cons item items ih =>
      cases items with
      | nil => simp [List.intercalate]
      | cons item' items =>
          rw [List.intercalate_cons_cons, bindings_append, bindings_append, h, ih, List.append_nil]
          rfl

@[simp] theorem bindings_commaSeparated (items : List (List Lexeme)) :
    bindings (commaSeparated items) = items.flatMap bindings := bindings_intercalate rfl items

@[simp] theorem bindings_wordSeparated (w : String) (items : List (List Lexeme)) :
    bindings (wordSeparated w items) = items.flatMap bindings := bindings_intercalate rfl items

@[simp] theorem bindings_application (function : String) (args : List (List Lexeme)) :
    bindings (application function args) = args.flatMap bindings := by
  simp [application]

/-- The tokens of lexemes bind what the lexemes bind. -/
theorem bindings_tokensOf (dialect : Dialect) (ls : List Lexeme) :
    (tokensOf dialect ls).filterMap CompiledStatement.binding? = bindings ls := by
  induction ls with
  | nil => rfl
  | cons l ls ih =>
      unfold tokensOf at ih ⊢
      rw [List.map_cons, bindings_cons, ← ih]
      cases l <;> rfl

end Lexeme

open Lexeme

/-- What corresponding pieces bind alike, they bind alike together. -/
theorem flatMap_eq_of_forall {α β γ : Type} {f : α → List γ} {g : β → List γ} {as : List α}
    {bs : List β} (h : List.Forall₂ (fun a b => g b = f a) as bs) :
    bs.flatMap g = as.flatMap f := by
  induction h with
  | nil => rfl
  | cons h _ ih => rw [List.flatMap_cons, List.flatMap_cons, h, ih]

/-! ### Pieces of terms -/

@[simp] theorem BinaryOp.bindings_lexemes (op : BinaryOp) : bindings op.lexemes = [] := by
  cases op <;> rfl

@[simp] theorem LogicalOp.bindings_unit (op : LogicalOp) : bindings op.unit = [] := by
  cases op <;> rfl

@[simp] theorem JoinKind.bindings_lexemes (kind : JoinKind) : bindings kind.lexemes = [] := by
  cases kind <;> rfl

@[simp] theorem TemporalOp.bindings_lexemes (dialect : Dialect) (operand : List Lexeme)
    (op : TemporalOp) : bindings (op.lexemes dialect operand) = bindings operand := by
  cases op <;> cases dialect <;>
    simp [TemporalOp.lexemes, formattedNumber, extracted, textLiteral]

@[simp] theorem bindings_columnLexemes (qualifier : Option Alias) (name : String) :
    bindings (columnLexemes qualifier name) = [] := by
  cases qualifier <;> rfl

@[simp] theorem bindings_membership (negated : Bool) (operand list : List Lexeme) :
    bindings (membership negated operand list) = bindings operand ++ bindings list := by
  simp [membership, inWords]

@[simp] theorem TableItem.bindings_lexemes (item : TableItem) : bindings item.lexemes = [] := rfl

@[simp] theorem bindings_clause (keywords : List String) (content : List Lexeme) :
    bindings (clause keywords content) = bindings content := by
  simp [clause]

@[simp] theorem bindings_optionalClause (keywords : List String) (content : Option (List Lexeme)) :
    bindings (optionalClause keywords content) = content.toList.flatMap bindings := by
  cases content <;> simp [optionalClause]

@[simp] theorem bindings_targetLexemes (target : TableItem) (aliased : Bool) :
    bindings (targetLexemes target aliased) = [] := by
  cases aliased <;> rfl

@[simp] theorem bindings_columnNames (columns : List String) :
    bindings (columnNames columns) = [] := by
  simp [columnNames, List.flatMap_map]

/-! ### Terms -/

namespace Term

/-- What a term binds. -/
def bindings (dialect : Dialect) (t : Term) : List Binding := Lexeme.bindings (t.lexemes dialect)

end Term

/-- What terms bind, one after the other. -/
def termsBindings (dialect : Dialect) (ts : List Term) : List Binding :=
  ts.flatMap (Term.bindings dialect)

/-- What a term binds that may be missing. -/
def optionalBindings (dialect : Dialect) (t? : Option Term) : List Binding :=
  t?.toList.flatMap (Term.bindings dialect)

/-- What the branches of a case distinction bind. -/
def branchesBindings (dialect : Dialect) (branches : List (Term × Term)) : List Binding :=
  branches.flatMap fun b => b.1.bindings dialect ++ b.2.bindings dialect

/-- What result columns bind. -/
def outputBindings (dialect : Dialect) (columns : List (FieldExprOf Term)) : List Binding :=
  columns.flatMap fun c => c.expr.bindings dialect

/-- What the conditions of joins bind. -/
def joinsBindings (dialect : Dialect) (joins : List JoinedTable) : List Binding :=
  joins.flatMap fun j => j.on.bindings dialect

/-- What sort keys bind. -/
def sortKeysBindings (dialect : Dialect) (keys : List (SortKeyOf Term)) : List Binding :=
  keys.flatMap fun k => k.expr.bindings dialect

/-- What a list of results binds, which may be missing. -/
def resultsBindings (dialect : Dialect) (columns : Option (List (FieldExprOf Term))) :
    List Binding :=
  columns.toList.flatMap (outputBindings dialect)

/-- What the groups of a query bind. -/
def groupingBindings (dialect : Dialect) (grouping : Option (List Term)) : List Binding :=
  grouping.toList.flatMap (termsBindings dialect)

/-- What the order of a query binds. -/
def orderingBindings (dialect : Dialect) (ordering : Option (List (SortKeyOf Term))) :
    List Binding :=
  ordering.toList.flatMap (sortKeysBindings dialect)

/-- What a query binds. -/
def Query.bindings (dialect : Dialect) (q : Query) : List Binding :=
  Lexeme.bindings (queryTerms dialect q)

section

variable (dialect : Dialect)

@[simp] theorem bindings_lexemes (t : Term) :
    Lexeme.bindings (t.lexemes dialect) = t.bindings dialect := rfl

@[simp] theorem bindings_queryTerms (q : Query) :
    Lexeme.bindings (queryTerms dialect q) = Query.bindings dialect q := rfl

@[simp] theorem bindings_termsLexemes (ts : List Term) :
    (termsLexemes dialect ts).flatMap Lexeme.bindings = termsBindings dialect ts := by
  induction ts with
  | nil => rfl
  | cons t ts ih => simp [termsLexemes, termsBindings, ih]

@[simp] theorem bindings_operandsLexemes (ts : List Term) :
    (operandsLexemes dialect ts).flatMap Lexeme.bindings = termsBindings dialect ts := by
  induction ts with
  | nil => rfl
  | cons t ts ih => simp [operandsLexemes, termsBindings, ih]

@[simp] theorem bindings_branchesLexemes (branches : List (Term × Term)) :
    Lexeme.bindings (branchesLexemes dialect branches) = branchesBindings dialect branches := by
  induction branches with
  | nil => rfl
  | cons b branches ih => simp [branchesLexemes, branchesBindings, ih]

@[simp] theorem bindings_outputLexemes (labelled : Bool) (columns : List (FieldExprOf Term)) :
    (outputLexemes dialect labelled columns).flatMap Lexeme.bindings =
      outputBindings dialect columns := by
  induction columns with
  | nil => rfl
  | cons c columns ih => cases labelled <;> simp [outputLexemes, outputBindings, ih]

@[simp] theorem bindings_joinsLexemes (joins : List JoinedTable) :
    Lexeme.bindings (joinsLexemes dialect joins).flatten = joinsBindings dialect joins := by
  induction joins with
  | nil => rfl
  | cons j joins ih => simp [joinsLexemes, joinsBindings, ih]

@[simp] theorem bindings_sortKeysLexemes (keys : List (SortKeyOf Term)) :
    (sortKeysLexemes dialect keys).flatMap Lexeme.bindings = sortKeysBindings dialect keys := by
  induction keys with
  | nil => rfl
  | cons k keys ih => simp [sortKeysLexemes, sortKeysBindings, ih]

namespace Term

@[simp] theorem bindings_column (source : ColumnRef) (qualifier : Option Alias) (name : String) :
    (column source qualifier name).bindings dialect = [] := bindings_columnLexemes qualifier name

@[simp] theorem bindings_definition (source : ColumnRef) (sql : String) :
    (definition source sql).bindings dialect = [] := rfl

@[simp] theorem bindings_missing (source : ColumnRef) :
    (missing source).bindings dialect = [] := rfl

@[simp] theorem bindings_override (source : ColumnRef) (owner : Alias) (body : Term) :
    (override source owner body).bindings dialect = body.bindings dialect :=
  bindings_grouped _ _

@[simp] theorem bindings_literal (l : Literal) : (literal l).bindings dialect = [] := rfl

@[simp] theorem bindings_param (b : Binding) : (param b).bindings dialect = [b] := rfl

@[simp] theorem bindings_wildcard : wildcard.bindings dialect = [] := rfl

@[simp] theorem bindings_inNothing (negated : Bool) :
    (inNothing negated).bindings dialect = [] := rfl

@[simp] theorem bindings_call (function : String) (args : List Term) :
    (call function args).bindings dialect = termsBindings dialect args := by
  rw [bindings, lexemes]
  simp

@[simp] theorem bindings_binary (op : BinaryOp) (left right : Term) :
    (binary op left right).bindings dialect = left.bindings dialect ++ right.bindings dialect := by
  rw [bindings, lexemes]
  simp

/-- A connective binds what its operands bind, however many there are. -/
@[simp] theorem bindings_logical (op : LogicalOp) (operands : List Term) :
    (logical op operands).bindings dialect = termsBindings dialect operands := by
  match operands with
  | [] =>
      rw [bindings, lexemes]
      simp [termsBindings]
  | [operand] =>
      rw [bindings, lexemes]
      simp [termsBindings]
  | first :: second :: rest =>
      rw [bindings, lexemes]
      simp [termsBindings]

@[simp] theorem bindings_not (operand : Term) :
    (not operand).bindings dialect = operand.bindings dialect := by
  rw [bindings, lexemes]
  simp

@[simp] theorem bindings_isNull (negated : Bool) (operand : Term) :
    (isNull negated operand).bindings dialect = operand.bindings dialect := by
  rw [bindings, lexemes]
  simp

@[simp] theorem bindings_inTerms (negated : Bool) (operand : Term) (items : List Term) :
    (inTerms negated operand items).bindings dialect =
      operand.bindings dialect ++ termsBindings dialect items := by
  rw [bindings, lexemes]
  simp

@[simp] theorem bindings_inQuery (negated : Bool) (operand : Term) (q : Query) :
    (inQuery negated operand q).bindings dialect =
      operand.bindings dialect ++ Query.bindings dialect q := by
  rw [bindings, lexemes]
  simp

@[simp] theorem bindings_caseWhen (operand : Option Term) (branches : List (Term × Term))
    (otherwise : Option Term) : (caseWhen operand branches otherwise).bindings dialect =
      optionalBindings dialect operand ++ branchesBindings dialect branches ++
        optionalBindings dialect otherwise := by
  rw [bindings, lexemes_caseWhen]
  cases operand <;> cases otherwise <;> simp [optionalBindings]

@[simp] theorem bindings_temporal (op : TemporalOp) (operand : Term) :
    (temporal op operand).bindings dialect = operand.bindings dialect := by
  rw [bindings, lexemes]
  simp

@[simp] theorem bindings_subquery (q : Query) :
    (subquery q).bindings dialect = Query.bindings dialect q := by
  rw [bindings, lexemes]
  simp

@[simp] theorem bindings_existsRow (q : Query) :
    (existsRow q).bindings dialect = Query.bindings dialect q := by
  rw [bindings, lexemes]
  simp

end Term

/-! ### Queries and commands -/

/-- What the window of a query binds. -/
def windowBindings (limit : Option Window) : List Binding :=
  Lexeme.bindings ((limit.map Window.lexemes).getD [])

/-- A query binds what its clauses bind; joins are printed only where there are tables to join. -/
theorem Query.bindings_eq (q : Query) : Query.bindings dialect q =
    (resultsBindings dialect q.output ++
      (if q.tables.isEmpty then [] else joinsBindings dialect q.joins) ++
      optionalBindings dialect q.filter ++ groupingBindings dialect q.grouping ++
      orderingBindings dialect q.ordering ++ windowBindings q.limit) := by
  have hdistinct : Lexeme.bindings (if q.distinct then [word "DISTINCT", space] else []) = [] := by
    cases q.distinct <;> rfl
  have hlock : Lexeme.bindings
      (if q.locking && dialect.locksRows then space :: words ["FOR", "UPDATE"] else []) = [] := by
    cases q.locking && dialect.locksRows <;> rfl
  have hfrom : Lexeme.bindings (fromLexemes q.tables (joinsLexemes dialect q.joins)) =
      if q.tables.isEmpty then [] else joinsBindings dialect q.joins := by
    unfold fromLexemes
    cases q.tables.isEmpty <;> simp [List.flatMap_map]
  rw [bindings, queryTerms_eq]
  unfold queryLexemes windowBindings optionalBindings resultsBindings groupingBindings
    orderingBindings
  generalize (q.locking && dialect.locksRows) = locks at hlock ⊢
  cases q.counted <;> cases q.output <;>
    simp [hdistinct, hlock, hfrom, Option.toList_map, List.flatMap_map]

namespace Command

/-- What a statement binds. -/
def bindings (c : Command) : List Binding := Lexeme.bindings (c.lexemes dialect)

/-- A statement binds what its lexemes bind. -/
theorem bindings_compiled (c : Command) : (c.compiled dialect).bindings = c.bindings dialect :=
  bindings_tokensOf dialect (c.lexemes dialect)

theorem bindings_insert (table : String) (columns : List String) (values : List Term) :
    (insert table columns values).bindings dialect =
      if columns.isEmpty then [] else termsBindings dialect values := by
  cases columns <;> simp [bindings, lexemes]

theorem bindings_update (target : TableItem) (aliased : Bool) (assignments : List (String × Term))
    (filter : Option Term) : (update target aliased assignments filter).bindings dialect =
      assignments.flatMap (fun a => a.2.bindings dialect) ++ optionalBindings dialect filter := by
  unfold bindings lexemes optionalBindings
  simp [Option.toList_map, List.flatMap_map]

theorem bindings_delete (target : TableItem) (aliased : Bool) (filter : Option Term) :
    (delete target aliased filter).bindings dialect = optionalBindings dialect filter := by
  unfold bindings lexemes optionalBindings
  simp [Option.toList_map, List.flatMap_map]

theorem bindings_createIndex (unique ifMissing : Bool) (name table : String)
    (columns : List String) :
    (createIndex unique ifMissing name table columns).bindings dialect = [] := by
  unfold bindings lexemes
  cases unique <;> cases ifMissing <;> simp

end Command

end

end RecordStore
