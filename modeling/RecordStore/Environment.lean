/-! # Environment variables -/

namespace RecordStore

/-- Variables with their values, each name once. -/
abbrev Environment := List (String × String)

namespace Environment

/-- The value of a variable. -/
def get? (env : Environment) (name : String) : Option String := env.lookup name

/-- Define a variable, unless there is one of this name. -/
def define (env : Environment) (name value : String) : Environment :=
  match env.get? name with
  | some _ => env
  | none => env ++ [(name, value)]

end Environment

end RecordStore
