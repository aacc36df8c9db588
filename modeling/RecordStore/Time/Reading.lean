import RecordStore.Number.Power
import RecordStore.Text.Blank
import RecordStore.Text.Reader
import RecordStore.Time.Instant

/-! # Reading instants

Two forms are read.  The strict form is that of Internet timestamps: fixed widths, a `T`, `t` or
space before the time, an optional fraction of a second and an offset that is `Z` or hours and
minutes.  The loose form is a date and a time of day in universal time, where numbers may lack
leading zeros, blanks may stand before each number, and a signed year may have any number of digits.
Both know second 60. -/

namespace RecordStore.Instant

open Text (Reader digitsValue)

/-! ### Pieces of an instant -/

/-- A number in a closed range. -/
def inRange (low high : Nat) (n : Nat) : Option Nat :=
  if low ≤ n ∧ n ≤ high then some n else none

/-- The clock reading that a text gives before its offset is applied. -/
structure Reading where
  year : Int
  month : Nat
  day : Nat
  hour : Nat
  minute : Nat
  second : Nat
  /-- Nanoseconds after the second. -/
  nanos : Nat := 0
  /-- Seconds ahead of universal time. -/
  offset : Int := 0

namespace Reading

variable (r : Reading)

/-- The fields are within the clock's and the calendar's bounds. -/
def isValid : Bool :=
  Date.isValid ⟨r.year, r.month, r.day⟩ && decide (r.hour ≤ 23) && decide (r.minute ≤ 59) &&
    decide (r.second ≤ 60)

/-- The instant of a clock reading; second 60 is the leap second after second 59. -/
def toInstant? : Option Instant :=
  if r.isValid then
    Instant.ofUnix?
      (Date.toDays ⟨r.year, r.month, r.day⟩ * 86400 + r.hour * 3600 + r.minute * 60 +
        min r.second 59 - r.offset)
      (r.nanos + if r.second = 60 then 1_000_000_000 else 0)
  else none

end Reading

/-! ### The strict form -/

/-- A fraction of a second in nanoseconds; digits after the ninth are dropped. -/
def readFraction : Reader Nat
  | '.' :: s => do
    let ds := s.takeWhile Char.isDigit
    let first := ds.take 9
    if first.isEmpty then none
    else some (digitsValue 10 first * tenTo (9 - first.length), s.drop ds.length)
  | s => some (0, s)

/-- The sign of an offset; the minus may be the typographic one. -/
def readSign : Reader Int
  | '+' :: s => some (1, s)
  | '-' :: s => some (-1, s)
  | '\u2212' :: s => some (-1, s)
  | _ => none

/-- An offset from universal time in seconds. -/
def readOffset : Reader Int
  | 'Z' :: s => some (0, s)
  | 'z' :: s => some (0, s)
  | s => do
    let (sign, s) ← readSign s
    let (hours, s) ← Reader.number 2 2 s
    let ((), s) ← Reader.char ':' s
    let (minutes, s) ← Reader.number 2 2 s
    let hours ← inRange 0 23 hours
    let minutes ← inRange 0 59 minutes
    some (sign * (hours * 3600 + minutes * 60), s)

/-- The letter or blank between date and time. -/
def readSeparator : Reader Unit
  | c :: s => if c = 'T' ∨ c = 't' ∨ c = ' ' then some ((), s) else none
  | [] => none

/-- An Internet timestamp. -/
def readStrict (s : List Char) : Option Instant := do
  let (year, s) ← Reader.number 4 4 s
  let ((), s) ← Reader.char '-' s
  let (month, s) ← Reader.number 2 2 s
  let ((), s) ← Reader.char '-' s
  let (day, s) ← Reader.number 2 2 s
  let ((), s) ← readSeparator s
  let (hour, s) ← Reader.number 2 2 s
  let ((), s) ← Reader.char ':' s
  let (minute, s) ← Reader.number 2 2 s
  let ((), s) ← Reader.char ':' s
  let (second, s) ← Reader.number 2 2 s
  let (nanos, s) ← readFraction s
  let (offset, s) ← readOffset s
  if s.isEmpty then Reading.toInstant? { year, month, day, hour, minute, second, nanos, offset }
  else none

/-! ### The loose form -/

/-- A number of one or two digits, after any blanks. -/
def readShort : Reader Nat := fun s => Reader.number 1 2 (Text.skipBlank s)

/-- A year: up to four digits, or a sign and any number of digits, after any blanks. -/
def readYear : Reader Int := fun s =>
  match Text.skipBlank s with
  | '-' :: s => (Reader.number 1 s.length s).map fun (n, rest) => (-(n : Int), rest)
  | '+' :: s => (Reader.number 1 s.length s).map fun (n, rest) => ((n : Int), rest)
  | s => (Reader.number 1 4 s).map fun (n, rest) => ((n : Int), rest)

/-- A date and a time of day in universal time. -/
def readLoose (s : List Char) : Option Instant := do
  let (year, s) ← readYear s
  let ((), s) ← Reader.char '-' s
  let (month, s) ← readShort s
  let ((), s) ← Reader.char '-' s
  let (day, s) ← readShort s
  let (hour, s) ← readShort s
  let ((), s) ← Reader.char ':' s
  let (minute, s) ← readShort s
  let ((), s) ← Reader.char ':' s
  let (second, s) ← readShort s
  if s.isEmpty then Reading.toInstant? { year, month, day, hour, minute, second } else none

/-- The instant that a text names in either form. -/
def read? (s : String) : Option Instant :=
  (readStrict s.toList).or (readLoose s.toList)

end RecordStore.Instant
