import RecordStore.Compiler

/-! # Compiling in one pass

Here a statement is compiled while it is gone through once: words and placeholders are added as they
come, and a table gets its alias when its query is reached.  A query or a change pushes a scope and
pops it at its end, and an overriding expression switches overrides off and on again.  Both are done
by hand around steps that can fail at any depth; what has been added when a step fails stays.

`Compiler` resolves a statement before it adds anything, and hands scopes on instead of keeping
them.  Every scope that one pass opens is kept in `OnePass.opened`, so that its aliases can be
compared afterwards. -/

namespace RecordStore

open Lexeme

/-! ### Operands -/

namespace Expr

/-- The expression needs parentheses as an operand. -/
def isComposite : Expr → Bool
  | logical _ [operand] => operand.isComposite
  | logical _ _ | binary .. | not _ | isNull .. | inValues .. | inExprs .. | inSelect .. => true
  | search .matches .. => true
  | _ => false

/-- The expression needs parentheses among the operands of a connective. -/
def needsGrouping : Expr → Bool
  | logical _ [operand] => operand.needsGrouping
  | logical _ [] => false
  | logical _ _ => true
  | search .matches columns _ => decide (1 < columns.length)
  | _ => false

end Expr

/-! ### What stands around operands -/

/-- The beginning of a membership test after its operand. -/
def listOpening (negated : Bool) : List Lexeme := space :: inWords negated ++ [space, symbol "("]

namespace TemporalOp

/-- What a calendar function begins with, up to its operand. -/
def opening (dialect : Dialect) : TemporalOp → List Lexeme
  | part unit =>
    match dialect with
    | .sqlite =>
      [word "CAST", symbol "(", word "strftime", symbol "(", textLiteral unit.numberFormat,
        symbol ",", space]
    | _ => word "EXTRACT" :: symbol "(" :: words [unit.keyword, "FROM"] ++ [space]
  | start unit =>
    match dialect with
    | .sqlite =>
      [word "strftime", symbol "(", textLiteral (unit.startFormat "%M" "%S"), symbol ",", space]
    | .mysql => [word "DATE_FORMAT", symbol "("]
    | _ => [word "DATE_TRUNC", symbol "(", textLiteral unit.word, symbol ",", space]
  | epoch =>
    match dialect with
    | .sqlite =>
      [word "CAST", symbol "(", word "strftime", symbol "(", textLiteral "%s", symbol ",", space]
    | .mysql => [word "UNIX_TIMESTAMP", symbol "("]
    | _ => word "EXTRACT" :: symbol "(" :: words ["EPOCH", "FROM"] ++ [space]

/-- What a calendar function ends with, from its operand. -/
def closing (dialect : Dialect) : TemporalOp → List Lexeme
  | part _ | epoch =>
    match dialect with
    | .sqlite => symbol ")" :: space :: words ["AS", "INTEGER"] ++ [symbol ")"]
    | _ => [symbol ")"]
  | start unit =>
    match dialect with
    | .mysql => [symbol ",", space, textLiteral (unit.startFormat "%i" "%s"), symbol ")"]
    | _ => [symbol ")"]

end TemporalOp

/-! ### Steps -/

/-- Compilation in one pass. -/
structure OnePass extends Compiler where
  /-- Every scope that has been opened, in order. -/
  opened : List Scope := []

namespace OnePass

/-- A step of a compilation. -/
abbrev Step := EStateM StatementError OnePass

/-- The aliases that have been given, in order. -/
def aliases (c : OnePass) : List Alias := c.opened.flatMap fun s => s.entries.map (·.2)

/-- Adds lexemes. -/
def put (ls : List Lexeme) : Step Unit :=
  modify fun c => { c with tokens := c.tokens ++ tokensOf c.dialect ls }

/-- Refuses what has a fault. -/
def refuseIf (faulty : Bool) (f : ClauseFault) : Step Unit :=
  if faulty then throw (.invalidClause f) else pure ()

/-- The answer to a question that takes no alias. -/
def ask {α : Type} (r : Resolve α) : Step α := fun c =>
  match r c.nextAlias with
  | .ok a _ => .ok a c
  | .error e _ => .error e c

/-- Adds a term that takes no alias. -/
def write (r : OnePass → Resolve Term) : Step Unit := do
  let c ← get
  let t ← ask (r c)
  put (t.lexemes c.dialect)

/-- Changes the compilation after a step, whether or not the step fails. -/
def afterwards (f : OnePass → OnePass) (step : Step Unit) : Step Unit := fun c =>
  match step c with
  | .ok _ c' => .ok () (f c')
  | .error e c' => .error e (f c')

/-- Takes the aliases of a scope and pushes the scope. -/
def openScope (scope : Scope) (c : OnePass) : OnePass :=
  { c with
    nextAlias := c.nextAlias + scope.entries.length
    scopes := scope :: c.scopes
    opened := c.opened ++ [scope] }

/-- Pops the last scope. -/
def closeScope (c : OnePass) : OnePass := { c with scopes := c.scopes.tail }

/-- A step in a scope of its own, whose aliases begin with the next one that is free. -/
def inScope (scope : Alias → Scope) (body : Alias → Step Unit) : Step Unit := do
  let next := (← get).nextAlias
  modify (openScope (scope next))
  afterwards closeScope (body next)

/-- A step in which overrides are switched off. -/
def withoutOverrides (step : Step Unit) : Step Unit := do
  modify fun c => { c with overriding := false }
  afterwards (fun c => { c with overriding := true }) step

/-- A step between parentheses where they are needed. -/
def grouping (needed : Bool) (step : Step Unit) : Step Unit :=
  if needed then do
    put [symbol "("]
    step
    put [symbol ")"]
  else step

/-- Steps one after the other, each after a separator. -/
def each (separator : List Lexeme) : List (Step Unit) → Step Unit
  | [] => pure ()
  | step :: steps => do
    put separator
    step
    each separator steps

/-- Steps with a separator between them. -/
def separated (separator : List Lexeme) : List (Step Unit) → Step Unit
  | [] => pure ()
  | step :: steps => do
    step
    each separator steps

/-- Steps with commas between them. -/
def listed (steps : List (Step Unit)) : Step Unit := separated [symbol ",", space] steps

/-! ### Searches -/

/-- Refuses a search through no columns. -/
def requireColumns (columns : List (Step Unit)) : Step Unit :=
  refuseIf columns.isEmpty .searchWithoutColumn

/-- The words of all columns. -/
def document (columns : List (Step Unit)) : Step Unit := do
  requireColumns columns
  put [word "to_tsvector", symbol "(", word "concat_ws", symbol "(", textLiteral " "]
  each [symbol ",", space] columns
  put [symbol ")", symbol ")"]

/-- The test that a column contains a text. -/
def containing (query : String) (column : Step Unit) : Step Unit := do
  column
  put (containsTest query [])

/-- One point for a column that contains a text. -/
def scoring (query : String) (column : Step Unit) : Step Unit := do
  put (words ["CASE", "WHEN"] ++ [space])
  containing query column
  put [space, word "THEN", space, literal (.integer 1), space, word "ELSE", space,
    literal (.integer 0), space, word "END"]

/-- A search through columns. -/
def search (mode : SearchMode) (query : String) (columns : List (Step Unit)) : Step Unit := do
  match (← get).dialect, mode with
  | .postgres, .matches =>
    document columns
    put (space :: symbol "@@" :: space :: searchQuery query)
  | .postgres, .rank =>
    put [word "ts_rank", symbol "("]
    document columns
    put (symbol "," :: space :: searchQuery query ++ [symbol ")"])
  | .mysql, _ =>
    requireColumns columns
    put [word "MATCH", space, symbol "("]
    listed columns
    put (symbol ")" :: space :: word "AGAINST" :: space :: symbol "(" ::
      .param (.value (.text query)) :: space :: words ["IN", "NATURAL", "LANGUAGE", "MODE"] ++
      [symbol ")"])
  | .generic, .matches | .sqlite, .matches =>
    requireColumns columns
    separated [space, word "OR", space] (columns.map (containing query))
  | .generic, .rank | .sqlite, .rank =>
    requireColumns columns
    put [symbol "("]
    separated [space, symbol "+", space] (columns.map (scoring query))
    put [symbol ")"]

/-! ### Queries without their expressions -/

/-- The number of rows. -/
def countAll : List Lexeme := application "COUNT" [[symbol "*"]]

/-- The record types of the innermost scope, with their aliases. -/
def innermostEntries : Step (List (RecordType × Alias)) := do
  match (← get).scopes with
  | scope :: _ => return scope.entries
  | [] => return []

/-- The tables of the innermost scope, and then the joins. -/
def sources (s : Select) (joins : Step Unit) : Step Unit := do
  let tables := s.tableItems (← innermostEntries)
  if tables.isEmpty then refuseIf (!s.joins.isEmpty) (.nothingToJoin s.record.name)
  else
    put (clause ["FROM"] (commaSeparated (tables.map TableItem.lexemes)))
    joins

/-- The window of a query. -/
def window : Option Limit → Step Unit
  | none => pure ()
  | some l => do
    put [space, word "LIMIT", space]
    put [.param (.integer (← ask (Resolve.limitNumber .count l.count)))]
    match l.offset with
    | none => pure ()
    | some n =>
      put [space, word "OFFSET", space]
      put [.param (.integer (← ask (Resolve.limitNumber .offset n)))]

/-- The result columns of a query, or the number of its rows. -/
def output (labelled : Bool) (column : String → Step Unit) : Option (List String) → Step Unit
  | none => put countAll
  | some fields => listed (fields.map fun field => do
    column field
    put (if labelled then [space, word "AS", space, identifier field] else []))

/-! ### Expressions -/

section

variable (onColumn : ColumnRef → Step Unit)

mutual

/-- Adds an expression. -/
def exprWith : Expr → Step Unit
  | .column c => onColumn c
  | .literal v => write fun c => Resolve.literal c.dialect v
  | .bound v => put [.param (.value v)]
  | .fieldValue field v => put [.param (.field field v)]
  | .interval amount unit => write fun c => Resolve.interval c.dialect amount unit
  | .wildcard => put [symbol "*"]
  | .call function args => do
    put [word function, symbol "("]
    listed (exprsWith args)
    put [symbol ")"]
  | .binary op left right => do
    grouping left.isComposite (exprWith left)
    put (space :: op.lexemes ++ [space])
    grouping right.isComposite (exprWith right)
  | .logical op [] => put op.unit
  | .logical _ [operand] => exprWith operand
  | .logical op (first :: second :: rest) =>
    separated [space, word op.keyword, space]
      (grouping first.needsGrouping (exprWith first) ::
        grouping second.needsGrouping (exprWith second) :: operandsWith rest)
  | .not operand => do
    put [word "NOT", space]
    grouping operand.isComposite (exprWith operand)
  | .isNull negated operand => do
    grouping operand.isComposite (exprWith operand)
    put (space :: words (if negated then ["IS", "NOT", "NULL"] else ["IS", "NULL"]))
  | .inValues negated operand values => do
    let dialect := (← get).dialect
    if values.isEmpty then put (inNothingLexemes negated)
    else if dialect.bindsListAsArray then
      grouping operand.isComposite (exprWith operand)
      put (if negated then [space, symbol "<>", space, word "ALL"]
        else [space, symbol "=", space, word "ANY"])
      put (parenthesized [.param (.value (.array values))])
    else
      let chunks := chunks dialect.maxInList values
      grouping (1 < chunks.length)
        (separated [space, word (if negated then "AND" else "OR"), space]
          (chunks.map fun chunk => do
            grouping operand.isComposite (exprWith operand)
            put (listOpening negated)
            put (valueLexemes chunk)
            put [symbol ")"]))
  | .inExprs negated operand items => do
    if items.isEmpty then put (inNothingLexemes negated)
    else
      grouping operand.isComposite (exprWith operand)
      put (listOpening negated)
      listed (exprsWith items)
      put [symbol ")"]
  | .inSelect negated operand select => do
    grouping operand.isComposite (exprWith operand)
    put (listOpening negated)
    selectWith false select
    put [symbol ")"]
  | .caseWhen operand branches otherwise => do
    refuseIf branches.isEmpty .caseWithoutBranch
    put [word "CASE"]
    optionalWith [space] operand
    branchesWith branches
    optionalWith [space, word "ELSE", space] otherwise
    put [space, word "END"]
  | .search mode columns query => search mode query (exprsWith columns)
  | .temporal op operand => do
    let dialect := (← get).dialect
    put (op.opening dialect)
    exprWith operand
    put (op.closing dialect)
  | .subquery select => do
    put [symbol "("]
    selectWith false select
    put [symbol ")"]
  | .existsRow select => do
    put [word "EXISTS", space, symbol "("]
    selectWith false select
    put [symbol ")"]

/-- The steps that add each expression of a list. -/
def exprsWith : List Expr → List (Step Unit)
  | [] => []
  | e :: es => exprWith e :: exprsWith es

/-- The steps that add each operand of a connective. -/
def operandsWith : List Expr → List (Step Unit)
  | [] => []
  | e :: es => grouping e.needsGrouping (exprWith e) :: operandsWith es

/-- Adds an expression that may be missing, after what introduces it. -/
def optionalWith (opening : List Lexeme) : Option Expr → Step Unit
  | none => pure ()
  | some e => do
    put opening
    exprWith e

/-- Adds the branches of a case distinction. -/
def branchesWith : List (Expr × Expr) → Step Unit
  | [] => pure ()
  | (condition, result) :: rest => do
    put [space, word "WHEN", space]
    exprWith condition
    put [space, word "THEN", space]
    exprWith result
    branchesWith rest

/-- The step that adds the first definition of a field. -/
def definitionWith (field : String) : List (FieldExprOf Expr) → Option (Step Unit)
  | [] => none
  | { field := defined, expr } :: rest =>
    if defined = field then some (exprWith expr) else definitionWith field rest

/-- Adds the joins of a query. -/
def joinsWith : List (JoinOf Expr) → Step Unit
  | [] => pure ()
  | { kind, record, on } :: rest => do
    let table ← ofExcept record.tableName
    match Scope.owner? (← get).scopes record with
    | none => throw (.unknownRecord record.name)
    | some (_, a) =>
      put (space :: kind.lexemes ++ [space, identifier table, space, tableAlias a])
      put [space, word "ON", space]
      exprWith on
      joinsWith rest

/-- The steps that add the sort keys of a query. -/
def sortKeysWith : List (SortKeyOf Expr) → List (Step Unit)
  | [] => []
  | { expr, descending } :: rest =>
    (do
      exprWith expr
      put [space, word (if descending then "DESC" else "ASC")]) :: sortKeysWith rest

/-- Adds the groups of a query, which may be missing. -/
def groupingWith : Option (List Expr) → Step Unit
  | none => pure ()
  | some es => do
    put (clause ["GROUP", "BY"] [])
    listed (exprsWith es)

/-- Adds the order of a query, which may be missing. -/
def orderingWith : Option (List (SortKeyOf Expr)) → Step Unit
  | none => pure ()
  | some keys => do
    put (clause ["ORDER", "BY"] [])
    listed (sortKeysWith keys)

/-- Adds a query. -/
def selectWith (labelled : Bool) : SelectOf Expr → Step Unit
  | { record, selection, filter, joins, grouping, ordering, limit, locking, distinct, overrides,
      definitions } => do
    let s : Select := { record, selection, filter, joins, grouping, ordering, limit, locking,
                        distinct, overrides, definitions }
    let outer := (← get).scopes
    refuseIf (Scope.lists outer record) (.selectedTwice record.name)
    let records := s.scopeRecords outer
    let scope (next : Alias) : Scope :=
      ⟨records.zip (List.range' next records.length), record, overrides, true⟩
    inScope scope fun _ => do
      put (if s.countsAround then
        word "SELECT" :: space :: countAll ++ [space, word "FROM", space, symbol "("] else [])
      put (word "SELECT" :: space :: if distinct then [word "DISTINCT", space] else [])
      let column field := (definitionWith field definitions).getD (onColumn ⟨record, field⟩)
      output (labelled || s.countsAround) column s.resultFields?
      sources s (joinsWith joins)
      optionalWith (clause ["WHERE"] []) filter
      groupingWith grouping
      orderingWith ordering
      window limit
      let locks := locking && (← get).dialect.locksRows
      put (if locks then space :: words ["FOR", "UPDATE"] else [])
      put (if s.countsAround then [symbol ")", space, word "sub"] else [])

end

end

/-! ### Columns -/

/-- Adds a field as it is stored or defined. -/
def plainColumn (c : ColumnRef) : Step Unit := write fun p => Resolve.plainColumn p.scopes c

/-- Adds a field, or the expression that overrides it while overrides are switched on. -/
def column (c : ColumnRef) : Step Unit := do
  let _ ← ofExcept (c.record.field c.field)
  let p ← get
  let override? := (Scope.owner? p.scopes c.record).bind (·.1.overrideOf? c)
  match if p.overriding then override? else none with
  | some body =>
    withoutOverrides (grouping body.isComposite (exprWith plainColumn body))
  | none => plainColumn c

/-- Adds an expression. -/
def expr (e : Expr) : Step Unit := exprWith column e

/-- Adds expressions with commas between them. -/
def exprs (es : List Expr) : Step Unit := listed (exprsWith column es)

/-! ### Changes -/

/-- The scope of a change. -/
def changeScope (record : RecordType) (qualified : Bool) (a : Alias) : Scope :=
  ⟨[(record, a)], record, [], qualified⟩

/-- Adds the column that a write to a field goes to. -/
def writableColumn (record : RecordType) (field : String) : Step Unit := do
  put [identifier (← ofExcept (record.writableColumn field))]

/-- Adds the insertion of a row. -/
def insert (i : Insert) : Step Unit := do
  let table ← ofExcept i.record.tableName
  put (words ["INSERT", "INTO"] ++ [space, identifier table, space])
  if i.values.isEmpty then put (words ["DEFAULT", "VALUES"])
  else
    put [symbol "("]
    listed (i.values.map fun v => writableColumn i.record v.field)
    put [symbol ")", space, word "VALUES", space, symbol "("]
    inScope (changeScope i.record false) fun _ => exprs (i.values.map (·.expr))
    put [symbol ")"]

/-- Adds an assignment of an update. -/
def assignment (record : RecordType) (v : FieldExpr) : Step Unit := do
  writableColumn record v.field
  put [space, symbol "=", space]
  expr v.expr

/-- Adds an update of rows. -/
def update (u : Update) : Step Unit := do
  let table ← ofExcept u.record.tableName
  refuseIf u.assignments.isEmpty (.assignsNothing u.record.name)
  let aliased := (← get).dialect.aliasesMutationTarget
  put [word "UPDATE", space, identifier table]
  inScope (changeScope u.record aliased) fun a => do
    put (if aliased then [space, tableAlias a] else [])
    put (clause ["SET"] [])
    listed (u.assignments.map (assignment u.record))
    optionalWith column (clause ["WHERE"] []) u.filter

/-- Adds a deletion of rows. -/
def delete (d : Delete) : Step Unit := do
  let table ← ofExcept d.record.tableName
  let aliased := (← get).dialect.aliasesMutationTarget
  put (words ["DELETE", "FROM"] ++ [space, identifier table])
  inScope (changeScope d.record aliased) fun a => do
    put (if aliased then [space, tableAlias a] else [])
    optionalWith column (clause ["WHERE"] []) d.filter

/-- Adds the creation of an index. -/
def createIndex (i : CreateIndex) : Step Unit := do
  ofExcept (Identifier.validate i.name)
  let table ← ofExcept i.record.tableName
  refuseIf i.fields.isEmpty (.indexWithoutField i.name)
  let ifMissing := i.ifMissing && (← get).dialect.createsIndexIfMissing
  put (word "CREATE" :: space :: if i.unique then [word "UNIQUE", space] else [])
  put (word "INDEX" :: space :: if ifMissing then words ["IF", "NOT", "EXISTS"] ++ [space] else [])
  put [identifier i.name, space, word "ON", space, identifier table, space, symbol "("]
  listed (i.fields.map (writableColumn i.record))
  put [symbol ")"]

/-- Adds the removal of an index. -/
def dropIndex (i : DropIndex) : Step Unit := do
  ofExcept (Identifier.validate i.name)
  put (words ["DROP", "INDEX"] ++ [space, identifier i.name])
  if (← get).dialect.dropsIndexByTable then
    let table ← ofExcept i.record.tableName
    put [space, word "ON", space, identifier table]

/-- Adds a statement. -/
def statement : Statement → Step Unit
  | .select s => selectWith column true s
  | .insert i => insert i
  | .update u => update u
  | .delete d => delete d
  | .createIndex i => createIndex i
  | .dropIndex i => dropIndex i

end OnePass

end RecordStore
