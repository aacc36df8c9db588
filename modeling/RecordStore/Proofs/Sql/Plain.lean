import RecordStore.Proofs.Sql.Grammar
import RecordStore.Proofs.Sql.Resolves

/-! # Plain expressions

A plain expression has stored fields of one record type, literals, bound values, functions and
operators, but no nested query and nothing that a dialect spells in its own way.  Where no field is
overridden it resolves without taking an alias, to a term that is known beforehand
(`Resolve.resolves_plain`).

Some plain expressions are printed alike: a connective of one operand and the operand, a list of
values and the list of these values bound.  `Expr.normal` is the form that all of them are read
as. -/

namespace RecordStore

/-- The literal of the value is read as it is written, whatever the dialect. -/
def Value.isPlain : Value → Bool
  | .null | .bool _ | .integer _ | .text _ | .blob _ => true
  | .real _ | .timestamp _ | .array _ => false

/-- A field of the record type that is kept in a column. -/
def ColumnRef.isStoredIn (c : ColumnRef) (r : RecordType) : Bool :=
  decide (c.record = r) &&
    match r.field? c.field with
    | some f => !f.isComputed
    | none => false

theorem ColumnRef.stored_of_isStoredIn {c : ColumnRef} {r : RecordType}
    (h : c.isStoredIn r = true) :
    c.record = r ∧ ∃ f, r.field? c.field = some f ∧ f.isComputed = false := by
  unfold isStoredIn at h
  rw [Bool.and_eq_true, decide_eq_true_iff] at h
  refine ⟨h.1, ?_⟩
  cases hfield : r.field? c.field with
  | none =>
      rw [hfield] at h
      cases h.2
  | some f =>
      rw [hfield] at h
      exact ⟨f, rfl, by simpa using h.2⟩

/-- The column of a stored field. -/
def ColumnRef.columnName (c : ColumnRef) : String :=
  match c.record.field? c.field with
  | some f => f.column
  | none => ""

namespace Expr

section

variable (dialect : Dialect) (r : RecordType)

mutual

/-- The expression is plain, with fields of this record type only. -/
def isPlain : Expr → Bool
  | column c => c.isStoredIn r
  | literal v => v.isPlain
  | bound _ => true
  | call function args => (Keyword.ofWord? function).isNone && allPlain args
  | binary _ left right => left.isPlain && right.isPlain
  | logical _ operands => allPlain operands
  | not operand => operand.isPlain
  | isNull _ operand => operand.isPlain
  | inValues _ operand values => operand.isPlain && decide (values.length ≤ dialect.maxInList)
  | inExprs _ operand items => operand.isPlain && allPlain items
  | caseWhen operand branches otherwise =>
    optionalPlain operand && !branches.isEmpty && branchesPlain branches && optionalPlain otherwise
  | _ => false

/-- All of the expressions are plain. -/
def allPlain : List Expr → Bool
  | [] => true
  | e :: es => e.isPlain && allPlain es

/-- An expression that may be missing is plain. -/
def optionalPlain : Option Expr → Bool
  | none => true
  | some e => e.isPlain

/-- The branches of a case distinction are plain. -/
def branchesPlain : List (Expr × Expr) → Bool
  | [] => true
  | (condition, result) :: rest => condition.isPlain && result.isPlain && branchesPlain rest

end

end

/-! ### Normal forms -/

/-- The comparison that a connective without operands stands for. -/
def unit : LogicalOp → Expr
  | .and => binary .eq (literal (.integer 1)) (literal (.integer 1))
  | .or => binary .eq (literal (.integer 1)) (literal (.integer 0))

mutual

/-- The expression with every connective of one operand replaced by the operand, a connective
without operands by `1 = 1` or `1 = 0`, membership in nothing by its truth value, and a list of
values by the list of these values bound. -/
def normal : Expr → Expr
  | call function args => call function (normalAll args)
  | binary op left right => binary op left.normal right.normal
  | logical op [] => unit op
  | logical _ [operand] => operand.normal
  | logical op (first :: second :: rest) =>
    logical op (first.normal :: second.normal :: normalAll rest)
  | not operand => not operand.normal
  | isNull negated operand => isNull negated operand.normal
  | inValues negated operand values =>
    if values.isEmpty then literal (.bool negated)
    else inExprs negated operand.normal (values.map bound)
  | inExprs negated operand items =>
    if items.isEmpty then literal (.bool negated)
    else inExprs negated operand.normal (normalAll items)
  | caseWhen operand branches otherwise =>
    caseWhen (normalOptional operand) (normalBranches branches) (normalOptional otherwise)
  | e => e

/-- The normal forms of a list of expressions. -/
def normalAll : List Expr → List Expr
  | [] => []
  | e :: es => e.normal :: normalAll es

/-- The normal form of an expression that may be missing. -/
def normalOptional : Option Expr → Option Expr
  | none => none
  | some e => some e.normal

/-- The normal forms of the branches of a case distinction. -/
def normalBranches : List (Expr × Expr) → List (Expr × Expr)
  | [] => []
  | (condition, result) :: rest => (condition.normal, result.normal) :: normalBranches rest

end

/-! ### Terms -/

section

variable (qualifier : Option Alias)

mutual

/-- The term of a plain expression whose columns stand under a qualifier. -/
def term : Expr → Term
  | column c => .column c qualifier c.columnName
  | literal v => .literal (v.toLiteral?.getD .null)
  | bound v => .param (.value v)
  | call function args => .call function (termsOf args)
  | binary op left right => .binary op left.term right.term
  | logical op operands => .logical op (termsOf operands)
  | not operand => .not operand.term
  | isNull negated operand => .isNull negated operand.term
  | inValues negated operand values =>
    if values.isEmpty then .inNothing negated else .inChunks negated [(operand.term, values)]
  | inExprs negated operand items =>
    if items.isEmpty then .inNothing negated else .inTerms negated operand.term (termsOf items)
  | caseWhen operand branches otherwise =>
    .caseWhen (optionalTerm operand) (branchTerms branches) (optionalTerm otherwise)
  | _ => .wildcard

/-- The terms of a list of plain expressions. -/
def termsOf : List Expr → List Term
  | [] => []
  | e :: es => e.term :: termsOf es

/-- The term of a plain expression that may be missing. -/
def optionalTerm : Option Expr → Option Term
  | none => none
  | some e => some e.term

/-- The terms of the branches of a case distinction. -/
def branchTerms : List (Expr × Expr) → List (Term × Term)
  | [] => []
  | (condition, result) :: rest => (condition.term, result.term) :: branchTerms rest

end

end

end Expr

/-! ### Resolving plain expressions -/

namespace Resolve

section

variable {dialect : Dialect} {rule : ColumnRule} {scopes : Scopes} {r : RecordType}
  {qualifier : Option Alias}

theorem resolves_literal {v : Value} (h : v.isPlain = true) :
    Resolves (literal dialect v) (.literal (v.toLiteral?.getD .null)) := by
  cases v with
  | null | bool | integer | text | blob => exact .pure _
  | real | timestamp | array => cases h

theorem resolves_short (hdialect : dialect.bindsListAsArray = false) {negated : Bool}
    {operand : Expr} {values : List Value} {t : Term}
    (h : Resolves (exprWith dialect rule scopes operand) t)
    (hlength : values.length ≤ dialect.maxInList) :
    Resolves (exprWith dialect rule scopes (.inValues negated operand values))
      (if values.isEmpty then .inNothing negated else .inChunks negated [(t, values)]) := by
  rw [exprWith]
  split
  · exact .pure _
  · next hne =>
      rw [if_neg (by rw [hdialect]; exact Bool.false_ne_true),
        chunks_of_short (fun hnil => hne (List.isEmpty_iff.mpr hnil)) hlength]
      exact .bind (.bind (.bind h (.pure _)) (.bind (.pure _) (.pure _))) (.pure _)

/-- A rule that reads the stored fields of the record type under the qualifier. -/
def ReadsStored (rule : ColumnRule) (scopes : Scopes) (r : RecordType)
    (qualifier : Option Alias) : Prop :=
  ∀ c : ColumnRef, c.isStoredIn r = true →
    Resolves (rule scopes c) (.column c qualifier c.columnName)

/-- Both rules for fields read the stored fields of a record type that nothing overrides. -/
theorem columnRule_readsStored {scope : Scope} {a : Alias} (dialect : Dialect) (overriding : Bool)
    (hstored : r.isComputed = false) (howner : Scope.owner? scopes r = some (scope, a))
    (hoverrides : ∀ field, scope.overrideOf? ⟨r, field⟩ = none) :
    ReadsStored (columnRule dialect overriding) scopes r
      (if scope.qualified then some a else none) := by
  intro c hc
  obtain ⟨rfl, f, hfield, hkept⟩ := ColumnRef.stored_of_isStoredIn hc
  have hplain : columnRule dialect overriding scopes c = plainColumn scopes c := by
    cases overriding with
    | false => rfl
    | true =>
        refine overriddenColumn_eq_plain dialect fun scope' a' howner' => ?_
        rw [howner] at howner'
        cases howner'
        exact hoverrides c.field
  have hread : c.record.field c.field = .ok f := by
    unfold RecordType.field
    rw [hfield]
  rw [hplain]
  unfold plainColumn ColumnRef.columnName
  rw [hread, hfield]
  refine .bind (.ofExcept rfl) ?_
  obtain ⟨name, column, kind⟩ := f
  cases kind with
  | computed => cases hkept
  | stored | generated =>
      dsimp only
      rw [hstored, howner]
      exact .pure _

mutual

/-- A plain expression resolves to its term. -/
theorem resolves_plain (hdialect : dialect.bindsListAsArray = false)
    (hrule : ReadsStored rule scopes r qualifier) : ∀ e : Expr, e.isPlain dialect r = true →
    Resolves (exprWith dialect rule scopes e) (e.term qualifier)
  | .column c => fun h => hrule c h
  | .literal v => fun h => resolves_literal h
  | .bound _ => fun _ => .pure _
  | .call function args => fun h => by
    rw [Expr.isPlain, Bool.and_eq_true] at h
    exact .bind (resolves_allPlain hdialect hrule args h.2) (.pure _)
  | .binary op left right => fun h => by
    rw [Expr.isPlain, Bool.and_eq_true] at h
    exact resolves_binary (resolves_plain hdialect hrule left h.1)
      (resolves_plain hdialect hrule right h.2)
  | .logical op operands => fun h => resolves_logical (resolves_allPlain hdialect hrule operands h)
  | .not operand => fun h => .bind (resolves_plain hdialect hrule operand h) (.pure _)
  | .isNull _ operand => fun h => .bind (resolves_plain hdialect hrule operand h) (.pure _)
  | .inValues negated operand values => fun h => by
    rw [Expr.isPlain, Bool.and_eq_true] at h
    rw [Expr.term]
    exact resolves_short hdialect (resolves_plain hdialect hrule operand h.1)
      (of_decide_eq_true h.2)
  | .inExprs negated operand items => fun h => by
    rw [Expr.isPlain, Bool.and_eq_true] at h
    have hoperand := resolves_plain hdialect hrule operand h.1
    have hitems := resolves_allPlain hdialect hrule items h.2
    rw [exprWith, Expr.term]
    split
    · exact .pure _
    · exact .bind hoperand (.bind hitems (.pure _))
  | .caseWhen operand branches otherwise => fun h => by
    rw [Expr.isPlain, Bool.and_eq_true, Bool.and_eq_true, Bool.and_eq_true] at h
    obtain ⟨⟨⟨hoperand, hne⟩, hbranches⟩, hotherwise⟩ := h
    have hoperand := resolves_optionalPlain hdialect hrule operand hoperand
    have hbranches := resolves_branchesPlain hdialect hrule branches hbranches
    have hotherwise := resolves_optionalPlain hdialect hrule otherwise hotherwise
    rw [exprWith, if_neg (by simpa using hne)]
    exact .bind hoperand (.bind hbranches (.bind hotherwise (.pure _)))
  | .fieldValue .. | .interval .. | .wildcard | .inSelect .. | .search .. | .temporal ..
  | .subquery _ | .existsRow _ => fun h => by cases h

theorem resolves_allPlain (hdialect : dialect.bindsListAsArray = false)
    (hrule : ReadsStored rule scopes r qualifier) : ∀ es : List Expr,
    Expr.allPlain dialect r es = true →
    Resolves (exprsWith dialect rule scopes es) (Expr.termsOf qualifier es)
  | [], _ => .pure _
  | e :: es, h => by
    rw [Expr.allPlain, Bool.and_eq_true] at h
    exact .bind (resolves_plain hdialect hrule e h.1)
      (.bind (resolves_allPlain hdialect hrule es h.2) (.pure _))

theorem resolves_optionalPlain (hdialect : dialect.bindsListAsArray = false)
    (hrule : ReadsStored rule scopes r qualifier) : ∀ e? : Option Expr,
    Expr.optionalPlain dialect r e? = true →
    Resolves (optionalWith dialect rule scopes e?) (Expr.optionalTerm qualifier e?)
  | none, _ => .pure _
  | some e, h => .bind (resolves_plain hdialect hrule e h) (.pure _)

theorem resolves_branchesPlain (hdialect : dialect.bindsListAsArray = false)
    (hrule : ReadsStored rule scopes r qualifier) : ∀ branches : List (Expr × Expr),
    Expr.branchesPlain dialect r branches = true →
    Resolves (branchesWith dialect rule scopes branches) (Expr.branchTerms qualifier branches)
  | [], _ => .pure _
  | (condition, result) :: rest, h => by
    rw [Expr.branchesPlain, Bool.and_eq_true, Bool.and_eq_true] at h
    exact .bind (resolves_plain hdialect hrule condition h.1.1)
      (.bind (resolves_plain hdialect hrule result h.1.2)
        (.bind (resolves_branchesPlain hdialect hrule rest h.2) (.pure _)))

end

end

end Resolve

end RecordStore
