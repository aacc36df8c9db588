import RecordStore.Chunks
import RecordStore.Sql.Identifier
import RecordStore.Sql.Scope
import RecordStore.Statement

/-! # Resolving expressions

Resolving turns expressions over record types into terms over tables.  It gives each listed record
type an alias, numbered in the order of resolution, finds for every field the scope that owns its
record type, puts overriding expressions in the place of fields, cuts long lists of values, and
raises every error a statement can have.

An overriding expression is itself resolved without any override, so overriding goes one level deep.
Both ways of resolving share one traversal, which is told what to do with a field:
`Resolve.plainColumn` reads the field, `Resolve.overriddenColumn` looks for an override first. -/

namespace RecordStore

/-- Resolution under way: the next free alias, and an error that ends it. -/
abbrev Resolve := EStateM StatementError Alias

namespace Resolve

/-- A fault of a clause. -/
def fault {α : Type} (f : ClauseFault) : Resolve α := throw (.invalidClause f)

/-- Aliases for record types, in order. -/
def allocate (records : List RecordType) : Resolve (List (RecordType × Alias)) := do
  let next ← get
  set (next + records.length)
  return records.zip (List.range' next records.length)

/-- What resolution does with a field in given scopes. -/
abbrev ColumnRule := Scopes → ColumnRef → Resolve Term

/-- The field as it is stored or defined, regardless of overrides. -/
def plainColumn : ColumnRule := fun scopes c => do
  let field ← ofExcept (c.record.field c.field)
  match field.kind with
  | .computed (some sql) _ => return .definition c sql
  | .computed none required =>
    if !required && c.record.isComputed then return .missing c
    fault (.undefinedField c.record.name c.field)
  | .stored | .generated =>
    if c.record.isComputed then fault (.unreadableField c.record.name c.field)
    match Scope.owner? scopes c.record with
    | some (scope, a) => return .column c (if scope.qualified then some a else none) field.column
    | none => throw (.unknownRecord c.record.name)

/-- A number of a limit as it is bound. -/
def limitNumber (part : LimitPart) (n : Nat) : Resolve Int64 :=
  if n < 0x8000_0000_0000_0000 then return .ofNat n else fault (.limitOutOfRange part n)

/-- The window of a query. -/
def window (l : Limit) : Resolve Window := do
  let count ← limitNumber .count l.count
  match l.offset with
  | some n => return ⟨count, some (← limitNumber .offset n)⟩
  | none => return ⟨count, none⟩

/-- Checks that an interval fits in seconds where it is written in seconds. -/
def interval (dialect : Dialect) (amount : Int64) (unit : CalendarUnit) : Resolve Term := do
  let seconds := amount.toInt * unit.seconds
  match dialect with
  | .postgres | .mysql => pure ()
  | .generic | .sqlite =>
    if seconds < -0x8000_0000_0000_0000 ∨ 0x8000_0000_0000_0000 ≤ seconds then
      fault (.intervalOutOfRange amount unit)
  return .interval amount unit

/-- A part that may be missing. -/
def optionally {α β : Type} (f : α → Resolve β) : Option α → Resolve (Option β)
  | none => return none
  | some a => return some (← f a)

/-- A value written into the statement. -/
def literal (dialect : Dialect) (v : Value) : Resolve Term :=
  match v.toLiteral? with
  | some l => return .literal l
  | none => throw (.unsupported dialect .arrayLiteral)

section

variable (dialect : Dialect) (onColumn : ColumnRule)

/-- The column of the list of results for a field: its definition, or the field itself. -/
def outputColumn (scopes : Scopes) (record : RecordType)
    (definition : String → Option (Resolve Term)) (field : String) :
    Resolve (FieldExprOf Term) := do
  return { field, expr := ← (definition field).getD (onColumn scopes ⟨record, field⟩) }

/-- The list of results, with the definitions of its fields. -/
def outputColumns (scopes : Scopes) (record : RecordType)
    (definition : String → Option (Resolve Term)) (fields : List String) :
    Resolve (List (FieldExprOf Term)) :=
  fields.mapM (outputColumn onColumn scopes record definition)

mutual

/-- An expression. -/
def exprWith (scopes : Scopes) : Expr → Resolve Term
  | .column c => onColumn scopes c
  | .literal v => literal dialect v
  | .bound v => return .param (.value v)
  | .fieldValue field v => return .param (.field field v)
  | .interval amount unit => interval dialect amount unit
  | .wildcard => return .wildcard
  | .call function args => return .call function (← exprsWith scopes args)
  | .binary op left right => return .binary op (← exprWith scopes left) (← exprWith scopes right)
  | .logical op operands => return .logical op (← exprsWith scopes operands)
  | .not operand => return .not (← exprWith scopes operand)
  | .isNull negated operand => return .isNull negated (← exprWith scopes operand)
  | .inValues negated operand values =>
    if values.isEmpty then return .inNothing negated
    else if dialect.bindsListAsArray then
      return .inArray negated (← exprWith scopes operand) values
    else
      return .inChunks negated (← (chunks dialect.maxInList values).mapM fun chunk => do
        return (← exprWith scopes operand, chunk))
  | .inExprs negated operand items =>
    if items.isEmpty then return .inNothing negated
    else return .inTerms negated (← exprWith scopes operand) (← exprsWith scopes items)
  | .inSelect negated operand select =>
    return .inQuery negated (← exprWith scopes operand) (← selectWith scopes false select)
  | .caseWhen operand branches otherwise =>
    if branches.isEmpty then fault .caseWithoutBranch
    else do
      let operand ← optionalWith scopes operand
      let branches ← branchesWith scopes branches
      return .caseWhen operand branches (← optionalWith scopes otherwise)
  | .search mode columns query =>
    if columns.isEmpty then fault .searchWithoutColumn
    else return .search mode (← exprsWith scopes columns) query
  | .temporal op operand => return .temporal op (← exprWith scopes operand)
  | .subquery select => return .subquery (← selectWith scopes false select)
  | .existsRow select => return .existsRow (← selectWith scopes false select)

/-- A list of expressions from left to right. -/
def exprsWith (scopes : Scopes) : List Expr → Resolve (List Term)
  | [] => return []
  | e :: es => return (← exprWith scopes e) :: (← exprsWith scopes es)

/-- An expression that may be missing. -/
def optionalWith (scopes : Scopes) : Option Expr → Resolve (Option Term)
  | none => return none
  | some e => return some (← exprWith scopes e)

/-- The branches of a case distinction. -/
def branchesWith (scopes : Scopes) : List (Expr × Expr) → Resolve (List (Term × Term))
  | [] => return []
  | (condition, result) :: rest =>
    return (← exprWith scopes condition, ← exprWith scopes result) :: (← branchesWith scopes rest)

/-- The first definition of a field. -/
def definitionWith (scopes : Scopes) (field : String) :
    List (FieldExprOf Expr) → Option (Resolve Term)
  | [] => none
  | { field := defined, expr } :: rest =>
    if defined = field then some (exprWith scopes expr) else definitionWith scopes field rest

/-- The joins of a query, each table before its condition. -/
def joinsWith (scopes : Scopes) : List (JoinOf Expr) → Resolve (List JoinedTable)
  | [] => return []
  | { kind, record, on } :: rest => do
    let table ← ofExcept record.tableName
    match Scope.owner? scopes record with
    | none => throw (.unknownRecord record.name)
    | some (_, a) =>
      let condition ← exprWith scopes on
      return { kind, item := ⟨record, table, a⟩, on := condition } :: (← joinsWith scopes rest)

/-- The sort keys of a query. -/
def sortKeysWith (scopes : Scopes) : List (SortKeyOf Expr) → Resolve (List (SortKeyOf Term))
  | [] => return []
  | { expr, descending } :: rest =>
    return { expr := ← exprWith scopes expr, descending } :: (← sortKeysWith scopes rest)

/-- The groups of a query, which may be missing. -/
def groupingWith (scopes : Scopes) : Option (List Expr) → Resolve (Option (List Term))
  | none => return none
  | some es => return some (← exprsWith scopes es)

/-- The order of a query, which may be missing. -/
def orderingWith (scopes : Scopes) :
    Option (List (SortKeyOf Expr)) → Resolve (Option (List (SortKeyOf Term)))
  | none => return none
  | some keys => return some (← sortKeysWith scopes keys)

/-- A query inside these scopes. -/
def selectWith (outer : Scopes) (labelled : Bool) : SelectOf Expr → Resolve Query
  | { record, selection, filter, joins, grouping, ordering, limit, locking, distinct, overrides,
      definitions } => do
    let s : Select := { record, selection, filter, joins, grouping, ordering, limit, locking,
                        distinct, overrides, definitions }
    if Scope.lists outer record then fault (.selectedTwice record.name)
    let entries ← allocate (s.scopeRecords outer)
    let scopes : Scopes := ⟨entries, record, overrides, true⟩ :: outer
    let definition field := definitionWith scopes field definitions
    let output ← optionally (outputColumns onColumn scopes record definition) s.resultFields?
    let tables := s.tableItems entries
    if tables.isEmpty && !joins.isEmpty then fault (.nothingToJoin record.name)
    let joins ← joinsWith scopes joins
    let filter ← optionalWith scopes filter
    let grouping ← groupingWith scopes grouping
    let ordering ← orderingWith scopes ordering
    let limit ← optionally window limit
    let counted := s.countsAround
    let labelled := labelled || counted
    return { record, counted, labelled, distinct, output, tables, joins, filter, grouping, ordering,
             limit, locking, scope := entries }

end

end

variable (dialect : Dialect)

/-- A field, or the expression that overrides it in the scope that selects its record type. -/
def overriddenColumn : ColumnRule := fun scopes c => do
  let _ ← ofExcept (c.record.field c.field)
  match Scope.owner? scopes c.record with
  | some (scope, a) =>
    match scope.overrideOf? c with
    | some body => return .override c a (← exprWith dialect plainColumn scopes body)
    | none => plainColumn scopes c
  | none => plainColumn scopes c

/-- The rule for fields while overrides are applied, or are not. -/
def columnRule (overriding : Bool) : ColumnRule :=
  if overriding then overriddenColumn dialect else plainColumn

variable (overriding : Bool)

/-- An expression. -/
def expr (scopes : Scopes) (e : Expr) : Resolve Term :=
  exprWith dialect (columnRule dialect overriding) scopes e

/-- A list of expressions. -/
def exprs (scopes : Scopes) (es : List Expr) : Resolve (List Term) :=
  exprsWith dialect (columnRule dialect overriding) scopes es

/-- A query. -/
def select (scopes : Scopes) (labelled : Bool) (s : Select) : Resolve Query :=
  selectWith dialect (columnRule dialect overriding) scopes labelled s

/-! ### Changes -/

/-- The scope of a change: the type of the changed records only. -/
def changeScope (record : RecordType) (qualified : Bool) : Resolve (Scope × Alias) := do
  let a ← get
  set (a + 1)
  return (⟨[(record, a)], record, [], qualified⟩, a)

/-- The columns and values of an insertion. -/
def insert (scopes : Scopes) (i : Insert) : Resolve Command := do
  let table ← ofExcept i.record.tableName
  if i.values.isEmpty then return .insert table [] []
  let columns ← i.values.mapM fun v => (ofExcept (i.record.writableColumn v.field) : Resolve String)
  let (scope, _) ← changeScope i.record false
  let values ← exprs dialect overriding (scope :: scopes) (i.values.map (·.expr))
  return .insert table columns values

/-- An assignment of an update. -/
def assignment (scopes : Scopes) (record : RecordType) (v : FieldExpr) :
    Resolve (String × Term) := do
  let column ← ofExcept (record.writableColumn v.field)
  return (column, ← expr dialect overriding scopes v.expr)

/-- A condition that may be missing. -/
def condition (scopes : Scopes) : Option Expr → Resolve (Option Term)
  | none => return none
  | some e => return some (← expr dialect overriding scopes e)

/-- An update of rows. -/
def update (scopes : Scopes) (u : Update) : Resolve Command := do
  let table ← ofExcept u.record.tableName
  if u.assignments.isEmpty then fault (.assignsNothing u.record.name)
  let aliased := dialect.aliasesMutationTarget
  let (scope, a) ← changeScope u.record aliased
  let assignments ← u.assignments.mapM (assignment dialect overriding (scope :: scopes) u.record)
  let filter ← condition dialect overriding (scope :: scopes) u.filter
  return .update ⟨u.record, table, a⟩ aliased assignments filter

/-- A deletion of rows. -/
def delete (scopes : Scopes) (d : Delete) : Resolve Command := do
  let table ← ofExcept d.record.tableName
  let aliased := dialect.aliasesMutationTarget
  let (scope, a) ← changeScope d.record aliased
  return .delete ⟨d.record, table, a⟩ aliased
    (← condition dialect overriding (scope :: scopes) d.filter)

/-! ### Indexes -/

/-- The creation of an index. -/
def createIndex (i : CreateIndex) : Resolve Command := do
  ofExcept (Identifier.validate i.name)
  let table ← ofExcept i.record.tableName
  if i.fields.isEmpty then fault (.indexWithoutField i.name)
  let columns ← i.fields.mapM fun f => (ofExcept (i.record.writableColumn f) : Resolve String)
  return .createIndex i.unique (i.ifMissing && dialect.createsIndexIfMissing) i.name table columns

/-- The removal of an index. -/
def dropIndex (i : DropIndex) : Resolve Command := do
  ofExcept (Identifier.validate i.name)
  if dialect.dropsIndexByTable then return .dropIndex i.name (some (← ofExcept i.record.tableName))
  return .dropIndex i.name none

/-- A statement. -/
def statement (scopes : Scopes) : Statement → Resolve Command
  | .select s => return .query (← select dialect overriding scopes true s)
  | .insert i => insert dialect overriding scopes i
  | .update u => update dialect overriding scopes u
  | .delete d => delete dialect overriding scopes d
  | .createIndex i => createIndex dialect i
  | .dropIndex i => dropIndex dialect i

end Resolve

end RecordStore
