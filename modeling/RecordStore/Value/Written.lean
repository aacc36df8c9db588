import RecordStore.Number.Written
import RecordStore.Text.Escaped
import RecordStore.Time.Written
import RecordStore.Value.Basic

/-! # Values in text

`Value.display` is the short form for people; `Value.inspect` names the type of every value and
escapes text, so that different values look different. -/

namespace RecordStore.Value

/-- The short forms of a list of texts between square brackets. -/
def bracketed (items : List String) : String :=
  "[" ++ ", ".intercalate items ++ "]"

mutual

/-- A value for people to read. -/
def display : Value → String
  | null => "NULL"
  | bool b => if b then "true" else "false"
  | integer n => toString n.toInt
  | real x => RealStyle.plain.write x
  | text s => "'" ++ s ++ "'"
  | blob bytes => "<" ++ toString bytes.length ++ " bytes>"
  | timestamp t => t.write .asNeeded .numeric
  | array items => bracketed (displayAll items)

/-- The values of a list for people to read. -/
def displayAll : List Value → List String
  | [] => []
  | v :: vs => display v :: displayAll vs

end

mutual

/-- A value with the name of its type. -/
def inspect : Value → String
  | null => "Null"
  | bool b => "Bool(" ++ (if b then "true" else "false") ++ ")"
  | integer n => "Integer(" ++ toString n.toInt ++ ")"
  | real x => "Real(" ++ RealStyle.exact.write x ++ ")"
  | text s => "Text(" ++ Text.escaped s ++ ")"
  | blob bytes => "Blob(" ++ bracketed (bytes.map fun b => toString b.toNat) ++ ")"
  | timestamp t => "Timestamp(" ++ t.write .asNeeded .letter ++ ")"
  | array items => "Array(" ++ bracketed (inspectAll items) ++ ")"

/-- The values of a list with the names of their types. -/
def inspectAll : List Value → List String
  | [] => []
  | v :: vs => inspect v :: inspectAll vs

end

end RecordStore.Value
