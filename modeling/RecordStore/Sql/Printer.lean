import RecordStore.Sql.Operator
import RecordStore.Sql.Term

/-! # Printing resolved statements

Terms, queries and commands as lexemes.  Printing cannot fail.  An operand that is itself an
operator stands in parentheses (`Term.operand`); among the operands of a connective only another
connective of several operands does. -/

namespace RecordStore

open Lexeme

/-- A column, after the alias of its table where it is qualified. -/
def columnLexemes (qualifier : Option Alias) (name : String) : List Lexeme :=
  match qualifier with
  | some a => [tableAlias a, symbol ".", identifier name]
  | none => [identifier name]

/-- The truth value of membership in nothing. -/
def inNothingLexemes (negated : Bool) : List Lexeme := [literal (.bool negated)]

/-- The words between an operand and a list. -/
def inWords (negated : Bool) : List Lexeme := words (if negated then ["NOT", "IN"] else ["IN"])

/-- A membership test. -/
def membership (negated : Bool) (operand list : List Lexeme) : List Lexeme :=
  operand ++ space :: inWords negated ++ space :: parenthesized list

/-- The placeholders of a list of values. -/
def valueLexemes (values : List Value) : List Lexeme :=
  commaSeparated (values.map fun v => [Lexeme.param (.value v)])

/-- A table and its alias. -/
def TableItem.lexemes (t : TableItem) : List Lexeme :=
  [identifier t.table, space, tableAlias t.label]

/-- The window of a query. -/
def Window.lexemes (w : Window) : List Lexeme :=
  space :: word "LIMIT" :: space :: .param (.integer w.count) ::
    match w.offset with
    | some n => [space, word "OFFSET", space, .param (.integer n)]
    | none => []

/-- A clause after a blank and its keywords. -/
def clause (keywords : List String) (content : List Lexeme) : List Lexeme :=
  space :: words keywords ++ space :: content

/-- A clause that may be missing. -/
def optionalClause (keywords : List String) : Option (List Lexeme) → List Lexeme
  | some content => clause keywords content
  | none => []

/-- A membership test that holds where some of its chunks do, or its negation where all do. -/
def chunkLexemes (negated : Bool) (chunks : List (List Lexeme)) : List Lexeme :=
  grouped (decide (1 < chunks.length)) (wordSeparated (if negated then "AND" else "OR") chunks)

/-- Tables between commas, none of them a join. -/
def fromLexemes (tables : List TableItem) (joins : List (List Lexeme)) : List Lexeme :=
  if tables.isEmpty then []
  else clause ["FROM"] (commaSeparated (tables.map TableItem.lexemes)) ++ joins.flatten

/-- The lexemes of a query from its pieces. -/
def queryLexemes (dialect : Dialect) (counted distinct locking : Bool)
    (output : Option (List (List Lexeme))) (sources : List Lexeme) (filter : Option (List Lexeme))
    (grouping ordering : Option (List (List Lexeme))) (limit : Option Window) : List Lexeme :=
  let rows :=
    word "SELECT" :: space :: (if distinct then [word "DISTINCT", space] else []) ++
    (match output with
      | some columns => commaSeparated columns
      | none => application "COUNT" [[symbol "*"]]) ++
    sources ++ optionalClause ["WHERE"] filter ++
    optionalClause ["GROUP", "BY"] (grouping.map commaSeparated) ++
    optionalClause ["ORDER", "BY"] (ordering.map commaSeparated) ++
    ((limit.map Window.lexemes).getD []) ++
    (if locking && dialect.locksRows then space :: words ["FOR", "UPDATE"] else [])
  if counted then
    word "SELECT" :: space :: application "COUNT" [[symbol "*"]] ++ space :: word "FROM" :: space ::
      parenthesized rows ++ [space, word "sub"]
  else rows

mutual

/-- The lexemes of a term. -/
def Term.lexemes (dialect : Dialect) : Term → List Lexeme
  | .column _ qualifier name => columnLexemes qualifier name
  | .definition _ sql => parenthesized [.definition sql]
  | .missing _ => [.literal .null]
  | .override _ _ body => grouped body.isComposite (body.lexemes dialect)
  | .literal l => [.literal l]
  | .param b => [.param b]
  | .interval amount unit => intervalLexemes dialect amount unit
  | .wildcard => [symbol "*"]
  | .call function args => application function (termsLexemes dialect args)
  | .binary op left right =>
    grouped left.isComposite (left.lexemes dialect) ++ space :: op.lexemes ++ space ::
      grouped right.isComposite (right.lexemes dialect)
  | .logical op [] => op.unit
  | .logical _ [operand] => operand.lexemes dialect
  | .logical op (first :: second :: rest) =>
    wordSeparated op.keyword
      (grouped first.needsGrouping (first.lexemes dialect) ::
        grouped second.needsGrouping (second.lexemes dialect) :: operandsLexemes dialect rest)
  | .not operand => word "NOT" :: space :: grouped operand.isComposite (operand.lexemes dialect)
  | .isNull negated operand =>
    grouped operand.isComposite (operand.lexemes dialect) ++
      space :: words (if negated then ["IS", "NOT", "NULL"] else ["IS", "NULL"])
  | .inNothing negated => inNothingLexemes negated
  | .inChunks negated chunks => chunkLexemes negated (chunksLexemes dialect negated chunks)
  | .inArray negated operand values =>
    grouped operand.isComposite (operand.lexemes dialect) ++
      (if negated then [space, symbol "<>", space, word "ALL"]
        else [space, symbol "=", space, word "ANY"]) ++
      parenthesized [.param (.value (.array values))]
  | .inTerms negated operand items =>
    membership negated (grouped operand.isComposite (operand.lexemes dialect))
      (commaSeparated (termsLexemes dialect items))
  | .inQuery negated operand query =>
    membership negated (grouped operand.isComposite (operand.lexemes dialect))
      (queryTerms dialect query)
  | .caseWhen operand branches otherwise =>
    word "CASE" :: (match operand with
      | some t => space :: t.lexemes dialect
      | none => []) ++ branchesLexemes dialect branches ++
      (match otherwise with
        | some t => space :: word "ELSE" :: space :: t.lexemes dialect
        | none => []) ++ [space, word "END"]
  | .search mode columns query => searchLexemes dialect mode query (termsLexemes dialect columns)
  | .temporal op operand => op.lexemes dialect (operand.lexemes dialect)
  | .subquery query => parenthesized (queryTerms dialect query)
  | .existsRow query => word "EXISTS" :: space :: parenthesized (queryTerms dialect query)

/-- The lexemes of every term of a list. -/
def termsLexemes (dialect : Dialect) : List Term → List (List Lexeme)
  | [] => []
  | t :: ts => t.lexemes dialect :: termsLexemes dialect ts

/-- The lexemes of every operand of a connective. -/
def operandsLexemes (dialect : Dialect) : List Term → List (List Lexeme)
  | [] => []
  | t :: ts => grouped t.needsGrouping (t.lexemes dialect) :: operandsLexemes dialect ts

/-- The membership tests of every chunk. -/
def chunksLexemes (dialect : Dialect) (negated : Bool) :
    List (Term × List Value) → List (List Lexeme)
  | [] => []
  | (operand, values) :: rest =>
    membership negated (grouped operand.isComposite (operand.lexemes dialect))
        (valueLexemes values) ::
      chunksLexemes dialect negated rest

/-- The branches of a case distinction, each after a blank. -/
def branchesLexemes (dialect : Dialect) : List (Term × Term) → List Lexeme
  | [] => []
  | (condition, result) :: rest =>
    space :: word "WHEN" :: space :: condition.lexemes dialect ++ space :: word "THEN" :: space ::
      result.lexemes dialect ++ branchesLexemes dialect rest

/-- The result columns of a query, with their names where they are labelled. -/
def outputLexemes (dialect : Dialect) (labelled : Bool) :
    List (FieldExprOf Term) → List (List Lexeme)
  | [] => []
  | { field, expr } :: rest =>
    (expr.lexemes dialect ++
        if labelled then [space, word "AS", space, identifier field] else []) ::
      outputLexemes dialect labelled rest

/-- The joins of a query, each after a blank. -/
def joinsLexemes (dialect : Dialect) : List (JoinedTableOf Term) → List (List Lexeme)
  | [] => []
  | { kind, item, on } :: rest =>
    (space :: kind.lexemes ++ space :: item.lexemes ++ space :: word "ON" :: space ::
      on.lexemes dialect) :: joinsLexemes dialect rest

/-- The sort keys of a query. -/
def sortKeysLexemes (dialect : Dialect) : List (SortKeyOf Term) → List (List Lexeme)
  | [] => []
  | { expr, descending } :: rest =>
    (expr.lexemes dialect ++ [space, word (if descending then "DESC" else "ASC")]) ::
      sortKeysLexemes dialect rest

/-- The lexemes of a query. -/
def queryTerms (dialect : Dialect) : QueryOf Term → List Lexeme
  | { counted, labelled, distinct, output, tables, joins, filter, grouping, ordering, limit,
      locking, .. } =>
    queryLexemes dialect counted distinct locking
      (match output with
        | some columns => some (outputLexemes dialect labelled columns)
        | none => none)
      (fromLexemes tables (joinsLexemes dialect joins))
      (match filter with
        | some t => some (t.lexemes dialect)
        | none => none)
      (match grouping with
        | some ts => some (termsLexemes dialect ts)
        | none => none)
      (match ordering with
        | some keys => some (sortKeysLexemes dialect keys)
        | none => none)
      limit

end

/-- A case distinction in one piece. -/
theorem Term.lexemes_caseWhen (dialect : Dialect) (operand : Option Term)
    (branches : List (Term × Term)) (otherwise : Option Term) :
    (Term.caseWhen operand branches otherwise).lexemes dialect =
      word "CASE" :: ((operand.map (Term.lexemes dialect)).map ([space] ++ ·)).getD [] ++
        branchesLexemes dialect branches ++
        ((otherwise.map (Term.lexemes dialect)).map ([space, word "ELSE", space] ++ ·)).getD [] ++
        [space, word "END"] := by
  cases operand <;> cases otherwise <;> rfl

/-- A query in one piece. -/
theorem queryTerms_eq (dialect : Dialect) (q : Query) :
    queryTerms dialect q = queryLexemes dialect q.counted q.distinct q.locking
      (q.output.map (outputLexemes dialect q.labelled))
      (fromLexemes q.tables (joinsLexemes dialect q.joins)) (q.filter.map (Term.lexemes dialect))
      (q.grouping.map (termsLexemes dialect)) (q.ordering.map (sortKeysLexemes dialect))
      q.limit := by
  obtain ⟨_, _, _, _, _, output, _, _, filter, grouping, ordering, _, _⟩ := q
  cases output <;> cases filter <;> cases grouping <;> cases ordering <;> rfl

/-- A term as the operand of an operator. -/
def Term.operand (dialect : Dialect) (t : Term) : List Lexeme :=
  grouped t.isComposite (t.lexemes dialect)

/-- The lexemes of a query. -/
def Query.lexemes (dialect : Dialect) (q : Query) : List Lexeme := queryTerms dialect q

/-- The target of a change, with its alias where it has one. -/
def targetLexemes (target : TableItem) (aliased : Bool) : List Lexeme :=
  if aliased then target.lexemes else [identifier target.table]

/-- Names of columns between commas. -/
def columnNames (columns : List String) : List Lexeme :=
  commaSeparated (columns.map fun c => [identifier c])

namespace Command

/-- The lexemes of a statement. -/
def lexemes (dialect : Dialect) : Command → List Lexeme
  | query q => q.lexemes dialect
  | insert table columns values =>
    words ["INSERT", "INTO"] ++ space :: identifier table :: space ::
      if columns.isEmpty then words ["DEFAULT", "VALUES"]
      else parenthesized (columnNames columns) ++ space :: word "VALUES" :: space ::
        parenthesized (commaSeparated (termsLexemes dialect values))
  | update target aliased assignments filter =>
    word "UPDATE" :: space :: targetLexemes target aliased ++
      clause ["SET"] (commaSeparated (assignments.map fun (column, value) =>
        identifier column :: space :: symbol "=" :: space :: value.lexemes dialect)) ++
      optionalClause ["WHERE"] (filter.map (Term.lexemes dialect))
  | delete target aliased filter =>
    words ["DELETE", "FROM"] ++ space :: targetLexemes target aliased ++
      optionalClause ["WHERE"] (filter.map (Term.lexemes dialect))
  | createIndex unique ifMissing name table columns =>
    word "CREATE" :: space :: (if unique then [word "UNIQUE", space] else []) ++ word "INDEX" ::
      space :: (if ifMissing then words ["IF", "NOT", "EXISTS"] ++ [space] else []) ++
      identifier name :: space :: word "ON" :: space :: identifier table :: space ::
      parenthesized (columnNames columns)
  | dropIndex name table =>
    words ["DROP", "INDEX"] ++ space :: identifier name ::
      match table with
      | some table => [space, word "ON", space, identifier table]
      | none => []

end Command

end RecordStore
