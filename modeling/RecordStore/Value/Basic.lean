import RecordStore.Number.Double
import RecordStore.Time.Instant

/-! # Column values

A value is what a column holds and what a statement binds.  Two values are equal when they are of
one type and have the same content; reals are compared by their bits, and the integer 1 differs from
the real 1.  Equality is decidable (`Value.same_iff`). -/

namespace RecordStore

/-- A single value of a column or a placeholder. -/
inductive Value where
  | null
  | bool (b : Bool)
  | integer (n : Int64)
  | real (x : Double)
  | text (s : String)
  | blob (bytes : List UInt8)
  | timestamp (t : Instant)
  /-- Bound by dialects with array parameters only. -/
  | array (items : List Value)
deriving Inhabited

/-- The types of values. -/
inductive ValueType where
  | null
  | bool
  | integer
  | real
  | text
  | blob
  | timestamp
  | array
deriving DecidableEq

/-- The name of a type in messages. -/
def ValueType.name : ValueType → String
  | .null => "null"
  | .bool => "bool"
  | .integer => "integer"
  | .real => "real"
  | .text => "text"
  | .blob => "blob"
  | .timestamp => "timestamp"
  | .array => "array"

namespace Value

/-- The type of a value. -/
def type : Value → ValueType
  | null => .null
  | bool _ => .bool
  | integer _ => .integer
  | real _ => .real
  | text _ => .text
  | blob _ => .blob
  | timestamp _ => .timestamp
  | array _ => .array

/-- The value is null. -/
def isNull : Value → Bool
  | null => true
  | _ => false

/-- Null or a numeric zero: a key component that nobody has set yet. -/
def isUnset : Value → Bool
  | null => true
  | integer n => n == 0
  | real x => x.isZero
  | _ => false

/-! ### Equality -/

mutual

/-- The values are of one type and have the same content. -/
def same : Value → Value → Bool
  | null, null => true
  | bool a, bool b => a == b
  | integer a, integer b => a == b
  | real a, real b => a == b
  | text a, text b => a == b
  | blob a, blob b => a == b
  | timestamp a, timestamp b => a == b
  | array as, array bs => sameItems as bs
  | _, _ => false

/-- The lists have the same values in the same places. -/
def sameItems : List Value → List Value → Bool
  | [], [] => true
  | a :: as, b :: bs => same a b && sameItems as bs
  | _, _ => false

end

mutual

theorem same_refl : ∀ a : Value, same a a = true
  | null | bool _ | integer _ | real _ | text _ | blob _ | timestamp _ => by simp [same]
  | array as => by simp [same, sameItems_refl as]

theorem sameItems_refl : ∀ as : List Value, sameItems as as = true
  | [] => by simp [sameItems]
  | a :: as => by simp [sameItems, same_refl a, sameItems_refl as]

end

mutual

theorem eq_of_same : ∀ {a b : Value}, same a b = true → a = b
  | null, b, h => by cases b <;> simp_all [same]
  | bool _, b, h => by cases b <;> simp_all [same]
  | integer _, b, h => by cases b <;> simp_all [same]
  | real _, b, h => by cases b <;> simp_all [same]
  | text _, b, h => by cases b <;> simp_all [same]
  | blob _, b, h => by cases b <;> simp_all [same]
  | timestamp _, b, h => by cases b <;> simp_all [same]
  | array as, b, h => by
    cases b with
    | array bs => exact congrArg array (eq_of_sameItems (by simpa [same] using h))
    | _ => simp [same] at h

theorem eq_of_sameItems : ∀ {as bs : List Value}, sameItems as bs = true → as = bs
  | [], bs, h => by cases bs <;> simp_all [sameItems]
  | a :: as, bs, h => by
    cases bs with
    | nil => simp [sameItems] at h
    | cons b bs =>
      simp only [sameItems, Bool.and_eq_true] at h
      rw [eq_of_same h.1, eq_of_sameItems h.2]

end

/-- The test decides equality. -/
theorem same_iff {a b : Value} : same a b = true ↔ a = b :=
  ⟨eq_of_same, fun h => h ▸ same_refl a⟩

instance : DecidableEq Value := fun _ _ => decidable_of_iff _ same_iff

end Value

end RecordStore
