import RecordStore.Expr
import RecordStore.Sql.Compiled
import RecordStore.Sql.Literal

/-! # Statements over tables

A term is an expression whose fields have been resolved: to a column of a table, which is called by
its alias, to the SQL definition of a computed field, or to the expression that overrides the field.
A query over terms lists the tables it reads.  Every resolved field keeps the reference it came
from.

No term is wrong: what can go wrong with an expression goes wrong while it is resolved. -/

namespace RecordStore

/-- The number of a table within a statement; the table of number 3 is called `t3`. -/
abbrev Alias := Nat

/-- A table with its alias. -/
structure TableItem where
  record : RecordType
  table : String
  label : Alias
deriving DecidableEq

/-- A joined table with the condition. -/
structure JoinedTableOf (T : Type) where
  kind : JoinKind
  item : TableItem
  on : T

/-- The window of rows as it is bound. -/
structure Window where
  count : Int64
  offset : Option Int64
deriving DecidableEq

/-- A query over terms of type `T`. -/
structure QueryOf (T : Type) where
  record : RecordType
  /-- The record types in scope with their aliases, whether or not they have a table. -/
  scope : List (RecordType × Alias)
  /-- The number of the rows of this query is asked for, not the rows. -/
  counted : Bool
  /-- Result columns are named. -/
  labelled : Bool
  distinct : Bool
  /-- The result columns; without any the number of rows is returned. -/
  output : Option (List (FieldExprOf T))
  tables : List TableItem
  joins : List (JoinedTableOf T)
  filter : Option T
  grouping : Option (List T)
  ordering : Option (List (SortKeyOf T))
  limit : Option Window
  locking : Bool

/-- A resolved expression. -/
inductive Term where
  /-- A column, qualified by the alias of its table where that is needed. -/
  | column (source : ColumnRef) (qualifier : Option Alias) (name : String)
  /-- A computed field with its definition. -/
  | definition (source : ColumnRef) (sql : String)
  /-- A computed field that has no value in this query. -/
  | missing (source : ColumnRef)
  /-- The expression that stands for a field of the table of this alias. -/
  | override (source : ColumnRef) (owner : Alias) (body : Term)
  | literal (l : Literal)
  | param (b : Binding)
  | interval (amount : Int64) (unit : CalendarUnit)
  | wildcard
  | call (function : String) (args : List Term)
  | binary (op : BinaryOp) (left right : Term)
  | logical (op : LogicalOp) (operands : List Term)
  | not (operand : Term)
  | isNull (negated : Bool) (operand : Term)
  /-- Membership in nothing. -/
  | inNothing (negated : Bool)
  /-- Membership in a list that is cut into chunks, each with an operand of its own. -/
  | inChunks (negated : Bool) (chunks : List (Term × List Value))
  /-- Membership in a list bound as one array. -/
  | inArray (negated : Bool) (operand : Term) (values : List Value)
  | inTerms (negated : Bool) (operand : Term) (items : List Term)
  | inQuery (negated : Bool) (operand : Term) (query : QueryOf Term)
  | caseWhen (operand : Option Term) (branches : List (Term × Term)) (otherwise : Option Term)
  | search (mode : SearchMode) (columns : List Term) (query : String)
  | temporal (op : TemporalOp) (operand : Term)
  | subquery (query : QueryOf Term)
  | existsRow (query : QueryOf Term)

abbrev JoinedTable := JoinedTableOf Term
abbrev Query := QueryOf Term

instance : Inhabited Term := ⟨.wildcard⟩

/-- A resolved statement. -/
inductive Command where
  | query (q : Query)
  | insert (table : String) (columns : List String) (values : List Term)
  | update (target : TableItem) (aliased : Bool) (assignments : List (String × Term))
      (filter : Option Term)
  | delete (target : TableItem) (aliased : Bool) (filter : Option Term)
  | createIndex (unique ifMissing : Bool) (name table : String) (columns : List String)
  /-- Drops an index, by its table too where a table is named. -/
  | dropIndex (name : String) (table : Option String)

namespace Term

/-- The term is an operator with operands of its own, so that it needs parentheses as an operand.  A
connective of one operand is that operand. -/
def isComposite : Term → Bool
  | logical _ [operand] => operand.isComposite
  | logical _ _ | binary .. | not _ | isNull .. | inNothing _ | inChunks .. | inArray ..
  | inTerms ..
  | inQuery .. => true
  | search .matches .. => true
  | _ => false

/-- The term needs parentheses among the operands of a connective. -/
def needsGrouping : Term → Bool
  | logical _ [operand] => operand.needsGrouping
  | logical _ [] => false
  | logical _ _ => true
  | search .matches columns _ => decide (1 < columns.length)
  | _ => false

end Term

end RecordStore
