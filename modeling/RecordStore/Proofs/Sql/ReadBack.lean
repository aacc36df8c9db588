import Mathlib.Data.List.Nodup
import RecordStore.Proofs.Sample
import RecordStore.Proofs.Sql.Terminals

/-! # Plain expressions are read back

The printer decides on parentheses by the terms (`Term.isComposite`, `Term.needsGrouping`), the
grammar by precedence.  Both agree: what stands without parentheses under an operator is an atom,
and under a connective at least a negation.  So every kind of plain expression is read back if its
parts are (`Expr.ReadsBack`), and by induction every plain expression is read as its normal form
(`Compiler.expr_read_back`).  The normal form is as much as print can tell: a list of values and the
list of these values bound are different expressions and written alike. -/

namespace RecordStore

open Grammar

namespace Expr

/-- The precedence that a plain expression has in print. -/
def precedence : Expr → Precedence
  | binary op _ _ => op.precedence
  | logical _ [] => .comparison
  | logical _ [operand] => operand.precedence
  | logical op (_ :: _ :: _) => op.precedence
  | not _ => .negation
  | isNull .. => .comparison
  | inValues _ _ values => if values.isEmpty then .atom else .comparison
  | inExprs _ _ items => if items.isEmpty then .atom else .comparison
  | _ => .atom

theorem precedence_le_atom : ∀ e : Expr, e.precedence ≤ .atom
  | binary op _ _ => Nat.le_of_lt op.precedence_lt_atom
  | logical _ [] => (by decide : Precedence.comparison ≤ .atom)
  | logical _ [operand] => precedence_le_atom operand
  | logical op (_ :: _ :: _) => Nat.le_trans (Nat.le_of_lt op.precedence_lt_negation) (by decide)
  | not _ => (by decide : Precedence.negation ≤ .atom)
  | isNull .. => (by decide : Precedence.comparison ≤ .atom)
  | inValues _ _ [] | inExprs _ _ [] => Nat.le_refl _
  | inValues _ _ (_ :: _) | inExprs _ _ (_ :: _) => (by decide : Precedence.comparison ≤ .atom)
  | column _ | literal _ | bound _ | fieldValue .. | interval .. | wildcard | call .. | inSelect ..
  | caseWhen .. | search .. | temporal .. | subquery _ | existsRow _ => Nat.le_refl _

variable (qualifier : Option Alias)

/-- What needs no parentheses as an operand of an operator is an atom. -/
theorem precedence_of_not_composite : ∀ e : Expr, (e.term qualifier).isComposite = false →
    e.precedence = .atom
  | logical _ [operand] => fun h => precedence_of_not_composite operand h
  | binary .. | logical _ [] | logical _ (_ :: _ :: _) | not _ | isNull .. => fun h => by cases h
  | inValues _ _ [] | inExprs _ _ [] => fun _ => rfl
  | inValues _ _ (_ :: _) | inExprs _ _ (_ :: _) => fun h => by cases h
  | column _ | literal _ | bound _ | fieldValue .. | interval .. | wildcard | call .. | inSelect ..
  | caseWhen .. | search .. | temporal .. | subquery _ | existsRow _ => fun _ => rfl

/-- What needs no parentheses as an operand of a connective is at least a negation. -/
theorem precedence_of_not_grouped : ∀ e : Expr, (e.term qualifier).needsGrouping = false →
    .negation ≤ e.precedence
  | logical _ [operand] => fun h => precedence_of_not_grouped operand h
  | logical _ (_ :: _ :: _) => fun h => by cases h
  | binary op _ _ => fun _ => Nat.le_trans (by decide) op.comparison_le_precedence
  | logical _ [] | isNull .. => fun _ => (by decide : Precedence.negation ≤ .comparison)
  | not _ => fun _ => Nat.le_refl _
  | inValues _ _ (_ :: _) | inExprs _ _ (_ :: _) => fun _ =>
    (by decide : Precedence.negation ≤ .comparison)
  | inValues _ _ [] | inExprs _ _ [] => fun _ => (by decide : Precedence.negation ≤ .atom)
  | column _ | literal _ | bound _ | fieldValue .. | interval .. | wildcard | call .. | inSelect ..
  | caseWhen .. | search .. | temporal .. | subquery _ | existsRow _ => fun _ =>
    (by decide : Precedence.negation ≤ .atom)

/-! ### Columns -/

/-- A column is read as the stored field that it keeps. -/
theorem column_columnName {r : RecordType} {c : ColumnRef}
    (hcolumns : (r.storedFields.map (·.column)).Nodup) (h : c.isStoredIn r = true) :
    Grammar.column r qualifier (qualifier.map fun a => "t" ++ toString a) c.columnName =
      some (column c) := by
  obtain ⟨hrecord, f, hfield, hkept⟩ := ColumnRef.stored_of_isStoredIn h
  have hname : f.name = c.field := by simpa using List.find?_some hfield
  have hstored : f ∈ r.storedFields :=
    List.mem_filter.mpr ⟨List.mem_of_find?_eq_some hfield, by rw [hkept]; rfl⟩
  have hsome : (r.storedFields.find? (·.column == f.column)).isSome = true :=
    List.find?_isSome.mpr ⟨f, hstored, beq_self_eq_true f.column⟩
  obtain ⟨f', hf'⟩ := Option.isSome_iff_exists.mp hsome
  have heq : f' = f := List.inj_on_of_nodup_map hcolumns (List.mem_of_find?_eq_some hf') hstored
    (by simpa using List.find?_some hf')
  unfold Grammar.column ColumnRef.columnName
  rw [if_pos rfl, hrecord, hfield]
  dsimp only
  rw [hf', heq, Option.map_some, hname, ← hrecord]
  rfl

/-! ### Reading back -/

section

variable (dialect : Dialect) (r : RecordType)

/-- The terminals of the expression are read as its normal form, at its precedence and by a parser
that can nest as deeply as there are terminals. -/
def ReadsBack (e : Expr) : Prop :=
  ∀ depth, (e.terminals dialect qualifier).length ≤ depth →
    ReadsAs r qualifier depth e.precedence (e.terminals dialect qualifier) e.normal

end

variable {qualifier} {dialect : Dialect} {r : RecordType} {e left right first second : Expr}
  {rest : List Expr}

namespace ReadsBack

theorem whole (h : e.ReadsBack qualifier dialect r) {depth : Nat}
    (hdepth : (e.terminals dialect qualifier).length ≤ depth) :
    ReadsAs r qualifier depth .disjunction (e.terminals dialect qualifier) e.normal :=
  (h depth hdepth).looser (Nat.zero_le _) e.precedence_le_atom

/-- In parentheses the expression is an atom. -/
theorem parenthesized (h : e.ReadsBack qualifier dialect r) {depth : Nat}
    (hdepth : (group true (e.terminals dialect qualifier)).length ≤ depth) :
    ReadsAs r qualifier depth .atom (group true (e.terminals dialect qualifier)) e.normal := by
  cases depth with
  | zero => cases hdepth
  | succ depth =>
      refine ReadsAs.parenthesized (h.whole ?_)
      simp only [group, if_true, List.length_cons, List.length_append] at hdepth
      omega

theorem operand (h : e.ReadsBack qualifier dialect r) {depth : Nat}
    (hdepth : (e.operandTerminals dialect qualifier).length ≤ depth) :
    ReadsAs r qualifier depth .atom (e.operandTerminals dialect qualifier) e.normal := by
  unfold operandTerminals at hdepth ⊢
  cases hcomposite : (e.term qualifier).isComposite with
  | true =>
      rw [hcomposite] at hdepth
      exact h.parenthesized hdepth
  | false =>
      rw [hcomposite] at hdepth
      rw [← e.precedence_of_not_composite qualifier hcomposite]
      exact h depth hdepth

theorem connected (h : e.ReadsBack qualifier dialect r) (op : LogicalOp) {depth : Nat}
    (hdepth : (e.connectedTerminals dialect qualifier).length ≤ depth) :
    ReadsAs r qualifier depth (op.precedence + 1) (e.connectedTerminals dialect qualifier)
      e.normal := by
  have hop : op.precedence + 1 ≤ .negation := op.precedence_lt_negation
  unfold connectedTerminals at hdepth ⊢
  cases hgrouped : (e.term qualifier).needsGrouping with
  | true =>
      rw [hgrouped] at hdepth
      exact (h.parenthesized hdepth).looser (Nat.le_trans hop (by decide)) (Nat.le_refl 6)
  | false =>
      rw [hgrouped] at hdepth
      exact (h depth hdepth).looser
        (Nat.le_trans hop (e.precedence_of_not_grouped qualifier hgrouped)) e.precedence_le_atom

theorem binary (op : BinaryOp) (hleft : left.ReadsBack qualifier dialect r)
    (hright : right.ReadsBack qualifier dialect r) :
    (binary op left right).ReadsBack qualifier dialect r := by
  intro depth hdepth
  rw [terminals_binary] at hdepth ⊢
  simp only [List.length_append] at hdepth
  exact ReadsAs.binary op (hleft.operand (by omega)) (hright.operand (by omega))

theorem not (h : e.ReadsBack qualifier dialect r) : (not e).ReadsBack qualifier dialect r := by
  intro depth hdepth
  rw [terminals_not] at hdepth ⊢
  rw [List.length_cons] at hdepth
  exact ReadsAs.not (h.operand (by omega))

theorem isNull (negated : Bool) (h : e.ReadsBack qualifier dialect r) :
    (isNull negated e).ReadsBack qualifier dialect r := by
  intro depth hdepth
  rw [terminals_isNull] at hdepth ⊢
  rw [List.length_append] at hdepth
  exact ReadsAs.isNull negated (h.operand (by omega))

/-- A part of a list is no longer than the list. -/
theorem length_le_of_mem {print : Expr → List Terminal} {t : Terminal} (he : e ∈ first :: rest) :
    (print e).length ≤ (print first ++ rest.flatMap fun e => t :: print e).length := by
  rw [List.length_append]
  rcases List.mem_cons.mp he with rfl | he
  · exact Nat.le_add_right _ _
  · have hpart : (t :: print e).length ≤ (rest.flatMap fun e => t :: print e).length :=
      (List.sublist_flatten_of_mem (List.mem_map_of_mem (f := fun e => t :: print e) he)).length_le
    rw [List.length_cons] at hpart
    omega

/-- Every item between commas is read on its own. -/
theorem items (h : ∀ e ∈ first :: rest, e.ReadsBack qualifier dialect r) {depth : Nat}
    (hdepth : (first.terminals dialect qualifier ++
      rest.flatMap fun e => .comma :: e.terminals dialect qualifier).length ≤ depth) :
    ∀ e ∈ first :: rest,
      ReadsAs r qualifier depth .disjunction (e.terminals dialect qualifier) e.normal :=
  fun e he => (h e he).whole (Nat.le_trans (length_le_of_mem he) hdepth)

/-- A connective of several operands. -/
theorem logical (op : LogicalOp)
    (h : ∀ e ∈ first :: second :: rest, e.ReadsBack qualifier dialect r) :
    (logical op (first :: second :: rest)).ReadsBack qualifier dialect r := by
  intro depth hdepth
  rw [terminals_logical] at hdepth ⊢
  rw [normal, normalAll_eq_map]
  exact ReadsAs.logical op (List.cons_ne_nil _ _) fun e he =>
    (h e he).connected op (Nat.le_trans (length_le_of_mem he) hdepth)

/-- A connective without operands is printed as a comparison of numbers. -/
theorem logical_nil (op : LogicalOp) : (Expr.logical op []).ReadsBack qualifier dialect r := by
  intro depth _
  have hone : ReadsAs r qualifier depth .atom [.literal (.integer 1)] (literal (.integer 1)) :=
    fun _ _ => rfl
  have hzero : ReadsAs r qualifier depth .atom [.literal (.integer 0)] (literal (.integer 0)) :=
    fun _ _ => rfl
  cases op with
  | and => exact ReadsAs.binary .eq hone hone
  | or => exact ReadsAs.binary .eq hone hzero

/-- A connective of any number of operands; one of a single operand is printed as the operand. -/
theorem connective (op : LogicalOp) {operands : List Expr}
    (h : ∀ e ∈ operands, e.ReadsBack qualifier dialect r) :
    (Expr.logical op operands).ReadsBack qualifier dialect r := by
  match operands with
  | [] => exact logical_nil op
  | [operand] => exact h operand List.mem_cons_self
  | _ :: _ :: _ => exact logical op h

/-! ### Atoms -/

theorem column {c : ColumnRef} (hcolumns : (r.storedFields.map (·.column)).Nodup)
    (h : c.isStoredIn r = true) : (Expr.column c).ReadsBack qualifier dialect r := by
  intro depth _ s _
  have hcolumn := column_columnName qualifier hcolumns h
  cases qualifier with
  | none => exact congrArg (Option.map (·, s)) hcolumn
  | some a => exact congrArg (Option.map (·, s)) hcolumn

theorem literal {v : Value} (h : v.isPlain = true) :
    (Expr.literal v).ReadsBack qualifier dialect r := by
  intro depth _ s _
  cases v with
  | bool b => cases b <;> rfl
  | null | integer | text | blob => rfl
  | real | timestamp | array => cases h

theorem bound (v : Value) : (Expr.bound v).ReadsBack qualifier dialect r := fun _ _ _ _ => rfl

theorem call {function : String} {args : List Expr} (hname : Keyword.ofWord? function = none)
    (h : ∀ e ∈ args, e.ReadsBack qualifier dialect r) :
    (Expr.call function args).ReadsBack qualifier dialect r := by
  intro depth hdepth
  rw [terminals_call dialect qualifier hname] at hdepth ⊢
  rw [normal, normalAll_eq_map]
  cases args with
  | nil => exact ReadsAs.call_nil function
  | cons first rest =>
      rw [terminals_items] at hdepth ⊢
      cases depth with
      | zero => cases hdepth
      | succ depth =>
          rw [List.append_assoc]
          refine ReadsAs.call function (items h ?_)
          simp only [List.length_cons, List.length_append] at hdepth ⊢
          omega

/-! ### Membership tests -/

theorem membership_nil (negated : Bool) :
    (Expr.inExprs negated e []).ReadsBack qualifier dialect r := by
  intro depth _ s _
  cases negated <;> rfl

theorem inExprs (negated : Bool) (hoperand : e.ReadsBack qualifier dialect r)
    (h : ∀ e' ∈ rest, e'.ReadsBack qualifier dialect r) :
    (Expr.inExprs negated e rest).ReadsBack qualifier dialect r := by
  cases rest with
  | nil => exact membership_nil negated
  | cons first rest =>
      intro depth hdepth
      rw [terminals_inExprs dialect qualifier negated e (List.cons_ne_nil _ _), terminals_items]
        at hdepth ⊢
      rw [normal, List.isEmpty_cons, if_neg Bool.false_ne_true, normalAll_eq_map]
      simp only [List.length_append, List.length_cons] at hdepth
      cases depth with
      | zero => omega
      | succ depth =>
          rw [List.append_assoc]
          refine ReadsAs.inExprs negated (hoperand.operand (by omega)) (items h ?_)
          rw [List.length_append]
          omega

/-- A list of values is printed and read as the list of these values bound. -/
theorem inValues (negated : Bool) (values : List Value) (h : e.ReadsBack qualifier dialect r) :
    (Expr.inValues negated e values).ReadsBack qualifier dialect r := by
  cases values with
  | nil => exact membership_nil negated
  | cons value values =>
      have hitems : (Expr.inExprs negated e ((value :: values).map Expr.bound)).ReadsBack qualifier
          dialect r := by
        refine inExprs negated h fun e' he' => ?_
        obtain ⟨v, -, rfl⟩ := List.mem_map.mp he'
        exact bound v
      have hnormal : (Expr.inExprs negated e ((value :: values).map Expr.bound)).normal =
          (Expr.inValues negated e (value :: values)).normal := by
        have hbound : normal ∘ Expr.bound = Expr.bound := rfl
        rw [normal, normal, normalAll_eq_map, List.map_map, hbound]
        rfl
      intro depth hdepth
      rw [terminals_inValues dialect qualifier negated e (List.cons_ne_nil _ _)] at hdepth ⊢
      rw [← hnormal]
      exact hitems depth hdepth

/-! ### Case distinctions -/

theorem caseWhen {operand otherwise : Option Expr} {branches : List (Expr × Expr)}
    (hne : branches ≠ []) (hoperand : ∀ e ∈ operand, e.ReadsBack qualifier dialect r)
    (hbranches : ∀ b ∈ branches,
      b.1.ReadsBack qualifier dialect r ∧ b.2.ReadsBack qualifier dialect r)
    (hotherwise : ∀ e ∈ otherwise, e.ReadsBack qualifier dialect r) :
    (Expr.caseWhen operand branches otherwise).ReadsBack qualifier dialect r := by
  cases branches with
  | nil => exact absurd rfl hne
  | cons first rest =>
      intro depth hdepth
      rw [terminals_caseWhen] at hdepth ⊢
      rw [normal, normalOptional_eq_map, normalOptional_eq_map, normalBranches_eq_map]
      cases depth with
      | zero => cases hdepth
      | succ depth =>
          simp only [List.length_cons, List.length_append] at hdepth
          refine ReadsAs.caseWhen (fun e he => (hoperand e he).whole ?_) (fun b hb => ?_)
            fun e he => (hotherwise e he).whole ?_
          · obtain rfl : operand = some e := he
            rw [Option.map_some, Option.getD_some] at hdepth
            omega
          · have hlength : (ReadsAs.branchTerminals (terminals dialect qualifier) b).length ≤
                ((first :: rest).flatMap
                  (ReadsAs.branchTerminals (terminals dialect qualifier))).length :=
              (List.sublist_flatten_of_mem (List.mem_map_of_mem hb)).length_le
            rw [ReadsAs.length_branchTerminals] at hlength
            exact ⟨(hbranches b hb).1.whole (by omega), (hbranches b hb).2.whole (by omega)⟩
          · obtain rfl : otherwise = some e := he
            simp only [ReadsAs.otherwiseTerminals, List.length_cons, List.length_append] at hdepth
            omega

end ReadsBack

/-! ### Every plain expression -/

mutual

/-- A plain expression is read back. -/
theorem readsBack (hcolumns : (r.storedFields.map (·.column)).Nodup) : ∀ e : Expr,
    e.isPlain dialect r = true → e.ReadsBack qualifier dialect r
  | column _ => fun h => .column hcolumns h
  | literal _ => fun h => .literal h
  | bound v => fun _ => .bound v
  | call function args => fun h => by
    rw [isPlain, Bool.and_eq_true] at h
    exact .call (Option.isNone_iff_eq_none.mp h.1) (readsBack_all hcolumns args h.2)
  | binary op left right => fun h => by
    rw [isPlain, Bool.and_eq_true] at h
    exact .binary op (readsBack hcolumns left h.1) (readsBack hcolumns right h.2)
  | logical op operands => fun h => .connective op (readsBack_all hcolumns operands h)
  | not operand => fun h => .not (readsBack hcolumns operand h)
  | isNull negated operand => fun h => .isNull negated (readsBack hcolumns operand h)
  | inValues negated operand values => fun h => by
    rw [isPlain, Bool.and_eq_true] at h
    exact .inValues negated values (readsBack hcolumns operand h.1)
  | inExprs negated operand items => fun h => by
    rw [isPlain, Bool.and_eq_true] at h
    exact .inExprs negated (readsBack hcolumns operand h.1) (readsBack_all hcolumns items h.2)
  | caseWhen operand branches otherwise => fun h => by
    rw [isPlain, Bool.and_eq_true, Bool.and_eq_true, Bool.and_eq_true] at h
    obtain ⟨⟨⟨hoperand, hne⟩, hbranches⟩, hotherwise⟩ := h
    exact .caseWhen (by simpa using hne) (readsBack_optional hcolumns operand hoperand)
      (readsBack_branches hcolumns branches hbranches)
      (readsBack_optional hcolumns otherwise hotherwise)
  | fieldValue .. | interval .. | wildcard | inSelect .. | search .. | temporal .. | subquery _
  | existsRow _ => fun h => by cases h

theorem readsBack_all (hcolumns : (r.storedFields.map (·.column)).Nodup) : ∀ es : List Expr,
    allPlain dialect r es = true → ∀ e ∈ es, e.ReadsBack qualifier dialect r
  | [], _ => fun _ he => by cases he
  | first :: rest, h => by
    rw [allPlain, Bool.and_eq_true] at h
    exact List.forall_mem_cons.mpr
      ⟨readsBack hcolumns first h.1, readsBack_all hcolumns rest h.2⟩

theorem readsBack_optional (hcolumns : (r.storedFields.map (·.column)).Nodup) :
    ∀ e? : Option Expr, optionalPlain dialect r e? = true →
      ∀ e ∈ e?, e.ReadsBack qualifier dialect r
  | none, _ => fun _ he => by cases he
  | some e, h => by
    have he := readsBack hcolumns e h
    intro e' he'
    obtain rfl : e = e' := Option.some.inj he'
    exact he

theorem readsBack_branches (hcolumns : (r.storedFields.map (·.column)).Nodup) :
    ∀ branches : List (Expr × Expr), branchesPlain dialect r branches = true → ∀ b ∈ branches,
      b.1.ReadsBack qualifier dialect r ∧ b.2.ReadsBack qualifier dialect r
  | [], _ => fun _ hb => by cases hb
  | (condition, result) :: rest, h => by
    rw [branchesPlain, Bool.and_eq_true, Bool.and_eq_true] at h
    exact List.forall_mem_cons.mpr
      ⟨⟨readsBack hcolumns condition h.1.1, readsBack hcolumns result h.1.2⟩,
        readsBack_branches hcolumns rest h.2⟩

end

/-- The terminals of a plain expression are the ones of its normal form only. -/
theorem parse_terminals (hcolumns : (r.storedFields.map (·.column)).Nodup)
    (he : e.isPlain dialect r = true) :
    Grammar.parse r qualifier (e.terminals dialect qualifier) = some e.normal := by
  have hreads : e.ReadsBack qualifier dialect r := readsBack hcolumns e he
  have hnested : nested r qualifier ((e.terminals dialect qualifier).length + 1)
      (e.terminals dialect qualifier ++ []) = some (e.normal, []) :=
    hreads.whole (Nat.le_refl _) [] .nil
  rw [List.append_nil] at hnested
  unfold Grammar.parse
  rw [hnested]

end Expr

/-! ### What a compiler adds -/

namespace Compiler

/-- The lexemes that are added for an expression, if it can be resolved. -/
def lexemes? (c : Compiler) (e : Expr) : Option (List Lexeme) :=
  match Resolve.expr c.dialect c.overriding c.scopes e c.nextAlias with
  | .ok t _ => some (t.lexemes c.dialect)
  | .error .. => none

/-- An expression that takes no alias adds its lexemes and nothing else. -/
theorem expr_of_resolves {c : Compiler} {e : Expr} {t : Term}
    (h : Resolve.Resolves (Resolve.expr c.dialect c.overriding c.scopes e) t) :
    c.lexemes? e = some (t.lexemes c.dialect) ∧
      expr e c =
        .ok () { c with tokens := c.tokens ++ tokensOf c.dialect (t.lexemes c.dialect) } := by
  have hok : Resolve.expr c.dialect c.overriding c.scopes e c.nextAlias = .ok t c.nextAlias :=
    h c.nextAlias
  have hresolve :
      resolve (fun c => Resolve.expr c.dialect c.overriding c.scopes e) c = .ok t c := by
    unfold resolve
    dsimp only
    rw [hok]
  refine ⟨?_, ?_⟩
  · unfold lexemes?
    rw [hok]
  · unfold expr
    rw [bind_of_ok hresolve]
    rfl

section

variable {c : Compiler} {r : RecordType} {scope : Scope} {a : Alias}

/-- What a compiler adds for a plain expression over the record type of a scope is read as the
expression's normal form, so that plain expressions of different normal forms differ in print. -/
theorem expr_read_back (hdialect : c.dialect ≠ .postgres) (hstored : r.isComputed = false)
    (hcolumns : (r.storedFields.map (·.column)).Nodup)
    (howner : Scope.owner? c.scopes r = some (scope, a))
    (hoverrides : ∀ field, scope.overrideOf? ⟨r, field⟩ = none) (e : Expr)
    (he : e.isPlain c.dialect r = true) :
    ∃ ls, c.lexemes? e = some ls ∧
      expr e c = .ok () { c with tokens := c.tokens ++ tokensOf c.dialect ls } ∧
      Grammar.parse r (if scope.qualified then some a else none) (Lexeme.terminals ls) =
        some e.normal ∧
      ∀ e', e'.isPlain c.dialect r = true → c.lexemes? e' = some ls → e'.normal = e.normal := by
  have hlist : c.dialect.bindsListAsArray = false := by
    cases hc : c.dialect with
    | postgres => exact absurd hc hdialect
    | generic | sqlite | mysql => rfl
  have hadded (e : Expr) (he : e.isPlain c.dialect r = true) :=
    expr_of_resolves (Resolve.resolves_plain hlist
      (Resolve.columnRule_readsStored c.dialect c.overriding hstored howner hoverrides) e he)
  have hread (e : Expr) (he : e.isPlain c.dialect r = true) :
      Grammar.parse r (if scope.qualified then some a else none)
        (e.terminals c.dialect (if scope.qualified then some a else none)) = some e.normal :=
    Expr.parse_terminals hcolumns he
  obtain ⟨hlexemes, hexpr⟩ := hadded e he
  refine ⟨_, hlexemes, hexpr, hread e he, fun e' he' hlexemes' => ?_⟩
  rw [(hadded e' he').1] at hlexemes'
  have hterminals := congrArg Lexeme.terminals (Option.some.inj hlexemes')
  have hread' := hread e' he'
  unfold Expr.terminals at hread'
  rw [hterminals] at hread'
  exact Option.some.inj (hread'.symm.trans (hread e he))

end

end Compiler

namespace Sample

/-- A compiler within a query of items. -/
def itemCompiler : Compiler where
  dialect := .sqlite
  scopes := [⟨[(schema.type, 0)], schema.type, [], true⟩]
  nextAlias := 1

/-- Connectives of two, one and no operands, with tests among them. -/
def nestedCondition : Expr :=
  .logical .or [
    .logical .and [
      .not (.isNull true (.col schema.type "name")),
      .logical .or [.inValues true (.col schema.type "name") [.text "a", .null]]],
    .binary .gt (.binary .add (.col schema.type "id") (.literal (.integer 1))) (.bound .null),
    .caseWhen none [(.logical .and [], .call "LOWER" [.col schema.type "name"])] none]

theorem nestedCondition_read_back :
    nestedCondition.isPlain .sqlite schema.type = true ∧
      ∃ ls, itemCompiler.lexemes? nestedCondition = some ls ∧
        Compiler.expr nestedCondition itemCompiler =
          .ok () { itemCompiler with tokens := [] ++ tokensOf .sqlite ls } ∧
        Grammar.parse schema.type (some 0) (Lexeme.terminals ls) = some nestedCondition.normal ∧
        ∀ e', e'.isPlain .sqlite schema.type = true → itemCompiler.lexemes? e' = some ls →
          e'.normal = nestedCondition.normal :=
  ⟨by decide, Compiler.expr_read_back (c := itemCompiler) (r := schema.type) (by decide) rfl
    (by decide) rfl (fun _ => rfl) nestedCondition (by decide)⟩

/-- The name is one of some values. -/
def namedOneOf : Expr := .inValues false (.col schema.type "name") [.text "a", .text "b"]

/-- The name is one of some bound values. -/
def namedOneOfBound : Expr :=
  .inExprs false (.col schema.type "name") [.bound (.text "a"), .bound (.text "b")]

/-- Two expressions without connectives and without empty lists are written alike, and the text is
read as the second one. -/
theorem namedOneOf_written_alike :
    namedOneOf ≠ namedOneOfBound ∧ namedOneOf.isPlain .sqlite schema.type = true ∧
      namedOneOfBound.isPlain .sqlite schema.type = true ∧
      Compiler.expr namedOneOf itemCompiler = Compiler.expr namedOneOfBound itemCompiler ∧
      ∃ ls, itemCompiler.lexemes? namedOneOf = some ls ∧
        itemCompiler.lexemes? namedOneOfBound = some ls ∧
        Grammar.parse schema.type (some 0) (Lexeme.terminals ls) = some namedOneOfBound :=
  ⟨nofun, by decide, by decide, rfl, _, rfl, rfl, rfl⟩

end Sample

end RecordStore
