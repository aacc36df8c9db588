import RecordStore.Record.Type

/-! # Expressions and queries over record types

Expressions speak of fields of record types, not of columns of tables, and a query selects the
records of one type.  The two are defined together, since a query may stand inside an expression.

`Expr.collectRecords` lists the record types that an expression mentions outside nested queries,
which decides what a query has to list in its `FROM`. -/

namespace RecordStore

/-- A field of a record type. -/
structure ColumnRef where
  record : RecordType
  field : String
deriving DecidableEq

/-- The field of the same name of another record type. -/
def ColumnRef.cast (c : ColumnRef) (record : RecordType) : ColumnRef := { c with record }

/-- Operators between two operands. -/
inductive BinaryOp where
  | eq
  | ne
  | lt
  | le
  | gt
  | ge
  | like
  | notLike
  | add
  | sub
  | mul
  | div
  | mod
  | concat
deriving DecidableEq

/-- Connectives of any number of operands. -/
inductive LogicalOp where
  | and
  | or
deriving DecidableEq

/-- Functions of an instant. -/
inductive TemporalOp where
  /-- The number of the unit in the instant. -/
  | part (unit : CalendarUnit)
  /-- The beginning of the unit around the instant. -/
  | start (unit : CalendarUnit)
  /-- Seconds since 1970. -/
  | epoch
deriving DecidableEq

/-- What a full-text search is used for. -/
inductive SearchMode where
  /-- A condition. -/
  | matches
  /-- A score. -/
  | rank
deriving DecidableEq

/-- The ways of joining two tables. -/
inductive JoinKind where
  | inner
  | left
  | right
deriving DecidableEq

/-- What a query returns. -/
inductive Selection where
  /-- Every field of the record in order. -/
  | fields
  /-- The fields of the primary key. -/
  | keys
  /-- The number of rows. -/
  | count
deriving DecidableEq

/-- The window of rows that a query returns. -/
structure Limit where
  count : Nat
  offset : Option Nat
deriving DecidableEq

/-- A record type joined on a condition. -/
structure JoinOf (E : Type) where
  kind : JoinKind
  record : RecordType
  on : E

/-- A sort key. -/
structure SortKeyOf (E : Type) where
  expr : E
  descending : Bool

/-- An expression for a field. -/
structure FieldExprOf (E : Type) where
  field : String
  expr : E

/-- A query of the records of one type, over expressions of type `E`. -/
structure SelectOf (E : Type) where
  record : RecordType
  selection : Selection := .fields
  filter : Option E := none
  joins : List (JoinOf E) := []
  grouping : Option (List E) := none
  ordering : Option (List (SortKeyOf E)) := none
  limit : Option Limit := none
  locking : Bool := false
  distinct : Bool := false
  /-- Expressions that stand for fields of the record wherever the query mentions them. -/
  overrides : List (FieldExprOf E) := []
  /-- Expressions that stand for fields of the record in the list of results only. -/
  definitions : List (FieldExprOf E) := []

/-- An expression. -/
inductive Expr where
  | column (c : ColumnRef)
  /-- A value written into the statement. -/
  | literal (v : Value)
  /-- A value bound to a placeholder. -/
  | bound (v : Value)
  /-- A field's value bound to a placeholder. -/
  | fieldValue (field : String) (v : Value)
  | interval (amount : Int64) (unit : CalendarUnit)
  /-- The star of `COUNT(*)`. -/
  | wildcard
  | call (function : String) (args : List Expr)
  | binary (op : BinaryOp) (left right : Expr)
  | logical (op : LogicalOp) (operands : List Expr)
  | not (operand : Expr)
  | isNull (negated : Bool) (operand : Expr)
  | inValues (negated : Bool) (operand : Expr) (values : List Value)
  | inExprs (negated : Bool) (operand : Expr) (items : List Expr)
  | inSelect (negated : Bool) (operand : Expr) (select : SelectOf Expr)
  /-- With an operand its value is compared with each branch, without one the branches are
  conditions. -/
  | caseWhen (operand : Option Expr) (branches : List (Expr × Expr)) (otherwise : Option Expr)
  | search (mode : SearchMode) (columns : List Expr) (query : String)
  | temporal (op : TemporalOp) (operand : Expr)
  | subquery (select : SelectOf Expr)
  | existsRow (select : SelectOf Expr)

abbrev Join := JoinOf Expr
abbrev SortKey := SortKeyOf Expr
abbrev FieldExpr := FieldExprOf Expr
abbrev Select := SelectOf Expr

namespace Expr

instance : Inhabited Expr := ⟨wildcard⟩

/-! ### Building expressions -/

/-- A field of a record type. -/
def col (record : RecordType) (field : String) : Expr := column ⟨record, field⟩

/-- The number of rows of a group. -/
def countAll : Expr := call "COUNT" [wildcard]

/-- The operands that an expression contributes to a connective: its own operands where it is the
same connective, so that connectives built one on another form one list. -/
def operandsOf (op : LogicalOp) : Expr → List Expr
  | logical inner operands => if inner = op then operands else [logical inner operands]
  | e => [e]

/-- A connective over operands, those of the same connective taken apart. -/
def connect (op : LogicalOp) (operands : List Expr) : Expr :=
  logical op (operands.flatMap (operandsOf op))

/-- All of the conditions. -/
def all (operands : List Expr) : Expr := connect .and operands

/-- Any of the conditions. -/
def any (operands : List Expr) : Expr := connect .or operands

/-- Both conditions. -/
def and (left right : Expr) : Expr := connect .and [left, right]

/-- One of the conditions. -/
def or (left right : Expr) : Expr := connect .or [left, right]

/-- Equality with a bound value. -/
def eqBound (e : Expr) (v : Value) : Expr := binary .eq e (bound v)

/-! ### The record types of an expression -/

mutual

/-- Adds the record types that the expression mentions outside nested queries, in the order of their
first mention. -/
def collectRecords (seen : List RecordType) : Expr → List RecordType
  | column c => addRecord seen c.record
  | literal _ | bound _ | fieldValue .. | interval .. | wildcard | subquery _ | existsRow _ => seen
  | call _ args => collectAll seen args
  | binary _ left right => right.collectRecords (left.collectRecords seen)
  | logical _ operands => collectAll seen operands
  | not operand => operand.collectRecords seen
  | isNull _ operand => operand.collectRecords seen
  | inValues _ operand _ => operand.collectRecords seen
  | inExprs _ operand items => collectAll (operand.collectRecords seen) items
  | inSelect _ operand _ => operand.collectRecords seen
  | caseWhen operand branches otherwise =>
    collectOptional (collectBranches (collectOptional seen operand) branches) otherwise
  | search _ columns _ => collectAll seen columns
  | temporal _ operand => operand.collectRecords seen

/-- Adds the record types of a list of expressions. -/
def collectAll (seen : List RecordType) : List Expr → List RecordType
  | [] => seen
  | e :: es => collectAll (e.collectRecords seen) es

/-- Adds the record types of an expression that may be missing. -/
def collectOptional (seen : List RecordType) : Option Expr → List RecordType
  | none => seen
  | some e => e.collectRecords seen

/-- Adds the record types of the branches of a case distinction. -/
def collectBranches (seen : List RecordType) : List (Expr × Expr) → List RecordType
  | [] => seen
  | (condition, result) :: rest =>
    collectBranches (result.collectRecords (condition.collectRecords seen)) rest

end

end Expr

end RecordStore
