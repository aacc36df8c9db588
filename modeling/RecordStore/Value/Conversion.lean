import RecordStore.Error
import RecordStore.Time.Reading

/-! # Conversions of values

Databases hand values back in types of their own: booleans as integers, instants as text.  A
conversion accepts the type itself and what a database may use in its place, and refuses everything
else with a type mismatch.  Converting twice is converting once (`Scalar.convert_convert`). -/

namespace RecordStore

/-- The types that a column can be declared with. -/
inductive Scalar where
  | integer
  | real
  | bool
  | text
  | blob
  | timestamp
deriving DecidableEq

/-- The type of the values of a column. -/
def Scalar.type : Scalar → ValueType
  | .integer => .integer
  | .real => .real
  | .bool => .bool
  | .text => .text
  | .blob => .blob
  | .timestamp => .timestamp

namespace Value

/-- The content of an integer, or of a boolean as 0 or 1. -/
def toInteger? : Value → Option Int64
  | integer n => some n
  | bool b => some (if b then 1 else 0)
  | _ => none

/-- The content of a real, or of an integer rounded to the nearest real. -/
def toReal? : Value → Option Double
  | real x => some x
  | integer n => some (.ofInt n.toInt)
  | _ => none

/-- The content of a boolean, or whether an integer is not zero. -/
def toBool? : Value → Option Bool
  | bool b => some b
  | integer n => some (n != 0)
  | _ => none

/-- The content of a text. -/
def toText? : Value → Option String
  | text s => some s
  | _ => none

/-- The content of a blob, or the UTF-8 bytes of a text. -/
def toBlob? : Value → Option (List UInt8)
  | blob bytes => some bytes
  | text s => some s.toUTF8.toList
  | _ => none

/-- The content of a timestamp, the instant a text names, or an integer number of seconds since
1970. -/
def toTimestamp? : Value → Option Instant
  | timestamp t => some t
  | text s => Instant.read? s
  | integer n => Instant.ofUnix? n.toInt 0
  | _ => none

end Value

namespace Scalar

/-- The value as one of the column's type, if it can be read as one. -/
def convert? : Scalar → Value → Option Value
  | integer, v => v.toInteger?.map .integer
  | real, v => v.toReal?.map .real
  | bool, v => v.toBool?.map .bool
  | text, v => v.toText?.map .text
  | blob, v => v.toBlob?.map .blob
  | timestamp, v => v.toTimestamp?.map .timestamp

/-- The value as one of the column's type; a value that cannot be read as one is a mismatch. -/
def convert (t : Scalar) (v : Value) : Except StatementError Value :=
  match t.convert? v with
  | some w => .ok w
  | none => .error (.typeMismatch t.type v)

/-- The value as one of a nullable column. -/
def convertNullable (t : Scalar) : Value → Except StatementError Value
  | .null => .ok .null
  | v => t.convert v

/-- A converted value has the type of the column. -/
theorem type_of_convert? {t : Scalar} {v w : Value} (h : t.convert? v = some w) :
    w.type = t.type := by
  cases t <;> simp only [convert?, Option.map_eq_some_iff] at h <;> obtain ⟨_, _, rfl⟩ := h <;> rfl

/-- A value that has the type of the column is kept. -/
theorem convert?_of_type {t : Scalar} {v : Value} (h : v.type = t.type) :
    t.convert? v = some v := by
  cases t <;> cases v <;>
    simp_all [Value.type, Scalar.type, convert?, Value.toInteger?, Value.toReal?, Value.toBool?,
      Value.toText?, Value.toBlob?, Value.toTimestamp?]

/-- Converting a converted value changes nothing. -/
theorem convert_convert {t : Scalar} {v w : Value} (h : t.convert v = .ok w) :
    t.convert w = .ok w := by
  unfold convert at h ⊢
  split at h
  · next u hu =>
    cases h
    simp [convert?_of_type (type_of_convert? hu)]
  · cases h

end Scalar

end RecordStore
