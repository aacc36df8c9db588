import RecordStore.Error
import RecordStore.Text.Case

/-! # Names of dialects

Dialects are chosen by name, in any case. -/

namespace RecordStore.Dialect

/-- The dialect of a name. -/
def ofName (name : String) : Except StatementError Dialect :=
  let lower := Text.lower name
  if lower = "generic" ∨ lower = "ansi" then .ok generic
  else if lower = "sqlite" then .ok sqlite
  else if lower = "postgres" ∨ lower = "postgresql" then .ok postgres
  else if lower = "mysql" then .ok mysql
  else .error (.invalidClause (.unknownDialect lower))

end RecordStore.Dialect
