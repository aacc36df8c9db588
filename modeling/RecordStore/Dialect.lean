import RecordStore.Text.Delimited

/-! # Database dialects

What the four families of databases differ in, apart from the spelling of particular expressions:
how identifiers are quoted, how placeholders look, how long a list of alternatives may be, and which
clauses they know.  `Dialect.quote` doubles the quote character inside an identifier, so that the
identifier ends where the closing quote stands. -/

namespace RecordStore

/-- A family of databases that spell statements alike. -/
inductive Dialect where
  /-- Standard SQL. -/
  | generic
  | sqlite
  | postgres
  | mysql
deriving DecidableEq, Inhabited

namespace Dialect

/-- The name of the dialect. -/
def name : Dialect → String
  | generic => "generic"
  | sqlite => "sqlite"
  | postgres => "postgres"
  | mysql => "mysql"

/-- The character around delimited identifiers. -/
def quoteChar : Dialect → Char
  | mysql => '\x60'
  | _ => '"'

/-- A delimited identifier. -/
def quote (dialect : Dialect) (identifier : String) : String :=
  String.ofList (Text.delimited dialect.quoteChar identifier.toList)

/-- The placeholder of the parameter with this number; numbers start from one. -/
def placeholder : Dialect → Nat → String
  | postgres, n => "$" ++ toString n
  | _, _ => "?"

/-- The longest list of values in one membership test. -/
def maxInList : Dialect → Nat
  | sqlite => 999
  | _ => 500

/-- A list of values in a membership test is bound as one array. -/
def bindsListAsArray : Dialect → Bool
  | postgres => true
  | _ => false

/-- The target of an update or a deletion may have an alias. -/
def aliasesMutationTarget : Dialect → Bool
  | postgres => true
  | _ => false

/-- Rows can be locked by the query that reads them. -/
def locksRows : Dialect → Bool
  | sqlite => false
  | _ => true

/-- An index can be created unless it exists. -/
def createsIndexIfMissing : Dialect → Bool
  | mysql => false
  | _ => true

/-- An index is dropped by its table and name. -/
def dropsIndexByTable : Dialect → Bool
  | mysql => true
  | _ => false

end Dialect

end RecordStore
