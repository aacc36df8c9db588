import RecordStore.Text.Delimited
import RecordStore.Value.Written

/-! # Literals

A literal is a value written into the text of a statement.  Text and instants stand between single
quotes, a quote inside written twice; a blob is written in hexadecimal.  An array has no literal. -/

namespace RecordStore

/-- A value that can be written into a statement. -/
inductive Literal where
  | null
  | bool (b : Bool)
  | integer (n : Int64)
  | real (x : Double)
  | text (s : String)
  | blob (bytes : List UInt8)
  | timestamp (t : Instant)
deriving DecidableEq

/-- The literal of a value, if it has one. -/
def Value.toLiteral? : Value → Option Literal
  | null => some .null
  | bool b => some (.bool b)
  | integer n => some (.integer n)
  | real x => some (.real x)
  | text s => some (.text s)
  | blob bytes => some (.blob bytes)
  | timestamp t => some (.timestamp t)
  | array _ => none

namespace Literal

/-- An upper-case hexadecimal digit. -/
def hexDigit (n : Nat) : Char := (Nat.digitChar n).toUpper

/-- A byte as two hexadecimal digits. -/
def hexByte (b : UInt8) : List Char := [hexDigit (b.toNat / 16), hexDigit (b.toNat % 16)]

/-- A text between single quotes. -/
def quoted (s : String) : String := String.ofList (Text.delimited '\x27' s.toList)

/-- The text of a literal. -/
def write : Literal → String
  | null => "NULL"
  | bool b => if b then "TRUE" else "FALSE"
  | integer n => toString n.toInt
  | real x => RealStyle.plain.write x
  | text s => quoted s
  | blob bytes => "X" ++ quoted (String.ofList (bytes.flatMap hexByte))
  | timestamp t => quoted (t.write .millis .letter)

end Literal

end RecordStore
