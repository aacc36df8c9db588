import RecordStore.Dialect
import RecordStore.Time.CalendarUnit
import RecordStore.Value.Written

/-! # Errors of statements

Every error here means that a statement, or the description of a record it uses, contradicts itself.
`StatementError.message` words each cause. -/

namespace RecordStore

/-- The clauses of which a query has at most one. -/
inductive SingularClause where
  | filter
  | grouping
  | ordering
  | limit
  | locking
  | distinct
deriving DecidableEq

/-- The clause as it is written in a statement. -/
def SingularClause.keyword : SingularClause → String
  | .filter => "WHERE"
  | .grouping => "GROUP BY"
  | .ordering => "ORDER BY"
  | .limit => "LIMIT"
  | .locking => "FOR UPDATE"
  | .distinct => "DISTINCT"

/-- The two numbers of a limit. -/
inductive LimitPart where
  | count
  | offset
deriving DecidableEq

/-- The keyword in front of a number of a limit. -/
def LimitPart.keyword : LimitPart → String
  | .count => "LIMIT"
  | .offset => "OFFSET"

/-- What can be wrong with a clause of a statement. -/
inductive ClauseFault where
  | repeated (clause : SingularClause)
  | overriddenTwice (field : String)
  | selectedTwice (record : String)
  | withoutTable (record : String)
  | nothingToJoin (record : String)
  | undefinedField (record field : String)
  | unwritableField (record field : String)
  | unreadableField (record field : String)
  | assignsNothing (record : String)
  | noKeyToUpdateBy (record : String)
  | valueCount (record : String) (expected found : Nat)
  | caseWithoutBranch
  | searchWithoutColumn
  | limitOutOfRange (part : LimitPart) (number : Nat)
  | intervalOutOfRange (amount : Int64) (unit : CalendarUnit)
  | indexWithoutField (index : String)
  | unknownDialect (name : String)
deriving DecidableEq

namespace ClauseFault

/-- The fault in words. -/
def message : ClauseFault → String
  | repeated clause => "SELECT already has a " ++ clause.keyword ++ " clause"
  | overriddenTwice field => "field '" ++ field ++ "' is overridden twice"
  | selectedTwice record => record ++ " is already selected by an enclosing query"
  | withoutTable record => record ++ " is computed and has no table"
  | nothingToJoin record => record ++ " has no table to join against"
  | undefinedField record field =>
    "computed field " ++ record ++ "." ++ field ++ " has no definition"
  | unwritableField record field =>
    "computed field " ++ record ++ "." ++ field ++ " cannot be written"
  | unreadableField record field => record ++ "." ++ field ++ " has no column to read"
  | assignsNothing record => "UPDATE of " ++ record ++ " assigns nothing"
  | noKeyToUpdateBy record => record ++ " has no primary key to update by"
  | valueCount record expected found =>
    record ++ " expects " ++ toString expected ++ " values, got " ++ toString found
  | caseWithoutBranch => "CASE without WHEN"
  | searchWithoutColumn => "full-text search needs at least one column"
  | limitOutOfRange part number => part.keyword ++ " " ++ toString number ++ " is out of range"
  | intervalOutOfRange amount unit =>
    "interval of " ++ toString amount.toInt ++ " " ++ unit.keyword ++ " does not fit in seconds"
  | indexWithoutField index => "index " ++ index ++ " has no fields"
  | unknownDialect name => "unknown dialect '" ++ name ++ "'"

end ClauseFault

/-- What some dialect cannot express. -/
inductive Feature where
  | arrayLiteral
deriving DecidableEq

/-- The feature in words. -/
def Feature.description : Feature → String
  | .arrayLiteral => "array literal"

/-- A contradiction in a statement or in the description of a record. -/
inductive StatementError where
  | unknownField (record field : String)
  | unknownRecord (record : String)
  | invalidClause (fault : ClauseFault)
  | typeMismatch (expected : ValueType) (found : Value)
  | invalidIdentifier (identifier : String)
  | unsupported (dialect : Dialect) (feature : Feature)
deriving DecidableEq

/-- The error in words. -/
def StatementError.message : StatementError → String
  | unknownField record field => "Unknown field '" ++ field ++ "' on record '" ++ record ++ "'"
  | unknownRecord record => "Record '" ++ record ++ "' is not part of the query"
  | invalidClause fault => "Invalid clause: " ++ fault.message
  | typeMismatch expected found =>
    "Type mismatch: expected " ++ expected.name ++ ", got " ++ found.inspect
  | invalidIdentifier identifier => "Invalid identifier: " ++ identifier
  | unsupported dialect feature =>
    "Operation not supported by dialect " ++ dialect.name ++ ": " ++ feature.description

end RecordStore
