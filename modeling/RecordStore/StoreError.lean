import RecordStore.Error

/-! # Errors of reading and writing

What can go wrong between a caller, the description of a record, a database and its configuration.
`StoreError.message` words each cause; `StoreError.isConfiguration` tells the errors that the caller
can mend from those that depend on the database. -/

namespace RecordStore

/-- Why records of a query cannot be read by key first. -/
inductive KeyFetchObstacle where
  | computed
  | noKey
  | overrides
deriving DecidableEq

/-- The obstacle in words. -/
def KeyFetchObstacle.description : KeyFetchObstacle → String
  | computed => "is computed"
  | noKey => "has no primary key"
  | overrides => "is queried with field overrides"

/-- What can be asked for that the records or the settings do not support. -/
inductive ConfigurationFault where
  | noPrimaryKey (record : String)
  | keyWidth (record : String) (expected found : Nat)
  | foreignGuard (guarded target : String)
  | keyFetch (record : String) (obstacle : KeyFetchObstacle)
  | foreignSelect (selected wanted : String)
  | partialSelect (record : String)
  | updateWithoutKey (record : String)
  | unknownStrategy (name : String)
  | zeroBatchSize
  | missingFile (path : String)
deriving DecidableEq

/-- The fault in words. -/
def ConfigurationFault.message : ConfigurationFault → String
  | noPrimaryKey record => record ++ " has no primary key"
  | keyWidth record expected found =>
    record ++ " key has " ++ toString expected ++ " columns, got " ++ toString found ++ " values"
  | foreignGuard guarded target =>
    "invalidation for " ++ guarded ++ " cannot guard a write to " ++ target
  | keyFetch record obstacle =>
    "key-then-fetch is unavailable: " ++ record ++ " " ++ obstacle.description
  | foreignSelect selected wanted =>
    "select on " ++ selected ++ " cannot produce " ++ wanted ++ " records"
  | partialSelect record => "select on " ++ record ++ " does not return full records"
  | updateWithoutKey record => "cannot update " ++ record ++ " without a primary key value"
  | unknownStrategy name => "unknown cache strategy '" ++ name ++ "'"
  | zeroBatchSize => "max_batch_size must be positive"
  | missingFile path => "Configuration file not found: " ++ path

/-- An error of reading, writing or configuring. -/
inductive StoreError where
  | configuration (fault : ConfigurationFault)
  | statement (e : StatementError)
  /-- The database refused a write that breaks one of its constraints. -/
  | constraintViolation (message sql : String)
  /-- The database, or the way to it, failed. -/
  | driver (message sql : String)
  /-- The configuration file cannot be read as one. -/
  | configFile
deriving DecidableEq

namespace StoreError

/-- The error in words; what is wrong with a configuration file is not said. -/
def message : StoreError → String
  | configuration fault => "Configuration error: " ++ fault.message
  | statement e => "SQL error: " ++ e.message
  | constraintViolation message sql =>
    "Constraint violation: " ++ message ++ " (sql: " ++ sql ++ ")"
  | driver message sql => "Driver error: " ++ message ++ " (sql: " ++ sql ++ ")"
  | configFile => "Config file error"

/-- The caller is at fault, so that trying again cannot help. -/
def isConfiguration : StoreError → Bool
  | configuration _ | statement _ | configFile => true
  | constraintViolation .. | driver .. => false

/-- The write breaks a constraint of the database. -/
def isConstraintViolation : StoreError → Bool
  | constraintViolation .. => true
  | _ => false

/-- An error of a statement where a statement was only a means. -/
def lift {α : Type} : Except StatementError α → Except StoreError α
  | .ok a => .ok a
  | .error e => .error (.statement e)

end StoreError

end RecordStore
