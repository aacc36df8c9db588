import RecordStore.Proofs.Sql.Parsing
import RecordStore.Proofs.Sql.Plain

/-! # Plain expressions in terminals

Each kind of plain expression is printed as the production of the grammar has it: an operand of an
operator stands in parentheses if it is an operator itself (`Expr.operandTerminals`), an operand of
a connective if it is another connective (`Expr.connectedTerminals`). -/

namespace RecordStore

open Grammar Lexeme

/-! ### Terminals of lexemes -/

theorem terminals_append (ls ls' : List Lexeme) :
    terminals (ls ++ ls') = terminals ls ++ terminals ls' :=
  List.filterMap_append

/-- Terminals between parentheses where they are needed. -/
def group (needed : Bool) (ts : List Terminal) : List Terminal :=
  if needed then .opening :: (ts ++ [.closing]) else ts

theorem terminals_parenthesized (ls : List Lexeme) :
    terminals (parenthesized ls) = .opening :: (terminals ls ++ [.closing]) := by
  unfold parenthesized
  rw [terminals_append]
  rfl

theorem terminals_grouped (needed : Bool) (ls : List Lexeme) :
    terminals (grouped needed ls) = group needed (terminals ls) := by
  cases needed with
  | false => rfl
  | true => exact terminals_parenthesized ls

theorem terminals_intercalate (sep ls : List Lexeme) (items : List (List Lexeme)) :
    terminals (sep.intercalate (ls :: items)) =
      terminals ls ++ items.flatMap fun ls' => terminals sep ++ terminals ls' := by
  induction items generalizing ls with
  | nil => rw [List.intercalate_singleton, List.flatMap_nil, List.append_nil]
  | cons ls' items ih =>
      rw [List.intercalate_cons_cons, terminals_append, terminals_append, ih, List.flatMap_cons,
        List.append_assoc, List.append_assoc]

theorem terminals_commaSeparated (ls : List Lexeme) (items : List (List Lexeme)) :
    terminals (commaSeparated (ls :: items)) =
      terminals ls ++ items.flatMap fun ls' => .comma :: terminals ls' :=
  terminals_intercalate _ ls items

theorem terminals_wordSeparated (op : LogicalOp) (ls : List Lexeme) (items : List (List Lexeme)) :
    terminals (wordSeparated op.keyword (ls :: items)) =
      terminals ls ++ items.flatMap fun ls' => connective op :: terminals ls' := by
  have hword : terminals [space, word op.keyword, space] = [connective op] := by cases op <;> rfl
  unfold wordSeparated
  rw [terminals_intercalate, hword]
  rfl

theorem terminals_operator (op : BinaryOp) : terminals op.lexemes = op.terminals := by
  cases op <;> rfl

theorem terminals_inWords (negated : Bool) :
    terminals (inWords negated) = ReadsAs.membershipTest negated := by
  cases negated <;> rfl

theorem terminals_membership (negated : Bool) (ls ls' : List Lexeme) :
    terminals (membership negated ls ls') =
      terminals ls ++ (ReadsAs.membershipTest negated ++ .opening ::
        (terminals ls' ++ [.closing])) := by
  have htest : terminals (space :: inWords negated) = ReadsAs.membershipTest negated :=
    terminals_inWords negated
  have hlist : terminals (space :: parenthesized ls') = .opening :: (terminals ls' ++ [.closing]) :=
    terminals_parenthesized ls'
  unfold membership
  rw [terminals_append, terminals_append, htest, hlist, List.append_assoc]

namespace Expr

section

variable (dialect : Dialect) (qualifier : Option Alias)

/-- The terminals of a plain expression. -/
def terminals (e : Expr) : List Terminal := Lexeme.terminals ((e.term qualifier).lexemes dialect)

/-- The terminals of an operand of an operator. -/
def operandTerminals (e : Expr) : List Terminal :=
  group (e.term qualifier).isComposite (e.terminals dialect qualifier)

/-- The terminals of an operand of a connective. -/
def connectedTerminals (e : Expr) : List Terminal :=
  group (e.term qualifier).needsGrouping (e.terminals dialect qualifier)

theorem normalAll_eq_map (es : List Expr) : normalAll es = es.map normal := by
  induction es with
  | nil => rfl
  | cons e es ih => rw [normalAll, ih, List.map_cons]

theorem normalBranches_eq_map (branches : List (Expr × Expr)) :
    normalBranches branches = branches.map fun b => (b.1.normal, b.2.normal) := by
  induction branches with
  | nil => rfl
  | cons b branches ih => rw [normalBranches, ih, List.map_cons]

theorem normalOptional_eq_map (e? : Option Expr) : normalOptional e? = e?.map normal := by
  cases e? <;> rfl

theorem termsLexemes_termsOf (es : List Expr) : termsLexemes dialect (termsOf qualifier es) =
    es.map fun e => (e.term qualifier).lexemes dialect := by
  induction es with
  | nil => rfl
  | cons e es ih => rw [termsOf, termsLexemes, ih, List.map_cons]

theorem operandsLexemes_termsOf (es : List Expr) : operandsLexemes dialect (termsOf qualifier es) =
    es.map fun e =>
      grouped (e.term qualifier).needsGrouping ((e.term qualifier).lexemes dialect) := by
  induction es with
  | nil => rfl
  | cons e es ih => rw [termsOf, operandsLexemes, ih, List.map_cons]

/-! ### The terminals of each kind of expression -/

theorem terminals_binary (op : BinaryOp) (left right : Expr) :
    (binary op left right).terminals dialect qualifier =
      left.operandTerminals dialect qualifier ++
        (op.terminals ++ right.operandTerminals dialect qualifier) := by
  have hop : Lexeme.terminals (space :: op.lexemes) = op.terminals := terminals_operator op
  have hright (ls : List Lexeme) : Lexeme.terminals (space :: ls) = Lexeme.terminals ls := rfl
  unfold terminals
  rw [term, Term.lexemes, terminals_append, terminals_append, hop, hright, terminals_grouped,
    terminals_grouped, List.append_assoc]
  rfl

theorem terminals_not (operand : Expr) : (not operand).terminals dialect qualifier =
    .keyword .notWord :: operand.operandTerminals dialect qualifier := by
  have hnot (ls : List Lexeme) : Lexeme.terminals (word "NOT" :: space :: ls) =
      .keyword .notWord :: Lexeme.terminals ls := rfl
  unfold terminals
  rw [term, Term.lexemes, hnot, terminals_grouped]
  rfl

theorem terminals_isNull (negated : Bool) (operand : Expr) :
    (isNull negated operand).terminals dialect qualifier =
      operand.operandTerminals dialect qualifier ++ ReadsAs.nullTest negated := by
  unfold terminals
  rw [term, Term.lexemes, terminals_append, terminals_grouped]
  cases negated <;> rfl

theorem terminals_logical (op : LogicalOp) (first second : Expr) (rest : List Expr) :
    (logical op (first :: second :: rest)).terminals dialect qualifier =
      first.connectedTerminals dialect qualifier ++ (second :: rest).flatMap fun e =>
        connective op :: e.connectedTerminals dialect qualifier := by
  unfold terminals
  rw [term, termsOf, termsOf, Term.lexemes, operandsLexemes_termsOf, terminals_wordSeparated,
    terminals_grouped, List.flatMap_cons, List.flatMap_cons, terminals_grouped, List.flatMap_map]
  simp only [terminals_grouped]
  rfl

/-- Expressions with commas between them. -/
theorem terminals_items (first : Expr) (rest : List Expr) :
    Lexeme.terminals (commaSeparated (termsLexemes dialect (termsOf qualifier (first :: rest)))) =
      first.terminals dialect qualifier ++
        rest.flatMap fun e => .comma :: e.terminals dialect qualifier := by
  rw [termsLexemes_termsOf, List.map_cons, terminals_commaSeparated, List.flatMap_map]
  rfl

theorem terminals_call {function : String} (hname : Keyword.ofWord? function = none)
    (args : List Expr) : (call function args).terminals dialect qualifier =
      .name function :: .opening ::
        (Lexeme.terminals (commaSeparated (termsLexemes dialect (termsOf qualifier args))) ++
          [.closing]) := by
  have hword (ls : List Lexeme) : Lexeme.terminals (word function :: ls) =
      .name function :: Lexeme.terminals ls := by
    change Terminal.ofWord function :: _ = _
    unfold Terminal.ofWord
    rw [hname]
    rfl
  unfold terminals
  rw [term, Term.lexemes, application, hword, terminals_parenthesized]

theorem terminals_inExprs (negated : Bool) (operand : Expr) {items : List Expr} (hne : items ≠ []) :
    (inExprs negated operand items).terminals dialect qualifier =
      operand.operandTerminals dialect qualifier ++ (ReadsAs.membershipTest negated ++ .opening ::
        (Lexeme.terminals (commaSeparated (termsLexemes dialect (termsOf qualifier items))) ++
          [.closing])) := by
  unfold terminals
  rw [term, if_neg (by simpa using hne), Term.lexemes, terminals_membership, terminals_grouped]
  rfl

/-- Values are printed as the expressions that bind them. -/
theorem terminals_inValues (negated : Bool) (operand : Expr) {values : List Value}
    (hne : values ≠ []) : (inValues negated operand values).terminals dialect qualifier =
      (inExprs negated operand (values.map bound)).terminals dialect qualifier := by
  have hvalues : termsLexemes dialect (termsOf qualifier (values.map bound)) =
      values.map fun v => [Lexeme.param (.value v)] := by
    rw [termsLexemes_termsOf, List.map_map]
    rfl
  have hchunk (ls : List Lexeme) : chunkLexemes negated [ls] = ls := by
    change wordSeparated (if negated then "AND" else "OR") [ls] = ls
    unfold wordSeparated
    rw [List.intercalate_singleton]
  unfold terminals
  rw [term, term, if_neg (by simpa using hne), if_neg (by simpa using hne), Term.lexemes,
    Term.lexemes, chunksLexemes, chunksLexemes, hchunk, hvalues]
  rfl

theorem terminals_branches (branches : List (Expr × Expr)) :
    Lexeme.terminals (branchesLexemes dialect (branchTerms qualifier branches)) =
      branches.flatMap (ReadsAs.branchTerminals (terminals dialect qualifier)) := by
  have hwhen (ls : List Lexeme) : Lexeme.terminals (space :: word "WHEN" :: space :: ls) =
      .keyword .whenWord :: Lexeme.terminals ls := rfl
  have hthen (ls : List Lexeme) : Lexeme.terminals (space :: word "THEN" :: space :: ls) =
      .keyword .thenWord :: Lexeme.terminals ls := rfl
  induction branches with
  | nil => rfl
  | cons b branches ih =>
      obtain ⟨condition, result⟩ := b
      rw [branchTerms, branchesLexemes, terminals_append, terminals_append, hwhen, hthen, ih,
        List.flatMap_cons]
      rfl

theorem terminals_caseWhen (operand : Option Expr) (branches : List (Expr × Expr))
    (otherwise : Option Expr) : (caseWhen operand branches otherwise).terminals dialect qualifier =
      .keyword .caseWord :: ((operand.map (terminals dialect qualifier)).getD [] ++
        (branches.flatMap (ReadsAs.branchTerminals (terminals dialect qualifier)) ++
          ReadsAs.otherwiseTerminals (terminals dialect qualifier) otherwise)) := by
  have hcase (ls : List Lexeme) : Lexeme.terminals (word "CASE" :: ls) =
      .keyword .caseWord :: Lexeme.terminals ls := rfl
  have hoperand : Lexeme.terminals
      ((((optionalTerm qualifier operand).map (Term.lexemes dialect)).map ([space] ++ ·)).getD []) =
        (operand.map (terminals dialect qualifier)).getD [] := by cases operand <;> rfl
  have hotherwise : Lexeme.terminals ((((optionalTerm qualifier otherwise).map
      (Term.lexemes dialect)).map ([space, word "ELSE", space] ++ ·)).getD []) ++
        Lexeme.terminals [space, word "END"] =
      ReadsAs.otherwiseTerminals (terminals dialect qualifier) otherwise := by
    cases otherwise <;> rfl
  rw [terminals, term, Term.lexemes_caseWhen, terminals_append, terminals_append,
    terminals_append, hcase, hoperand, terminals_branches, List.append_assoc, hotherwise,
    List.cons_append, List.cons_append, List.append_assoc]

end

end Expr

end RecordStore
