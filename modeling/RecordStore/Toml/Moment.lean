import RecordStore.Text.Reader
import RecordStore.Time.Calendar
import RecordStore.Toml.Value

/-! # Dates and times of a document

A moment is a date, a time of day, or both; with both there may be an offset from universal time. -/

namespace RecordStore.Toml

open Text (Reader)

/-- A number of two digits, up to a greatest. -/
def readTwoDigits (most : Nat) : Reader Unit := fun s => do
  let (n, s) ← Reader.number 2 2 s
  if n ≤ most then some ((), s) else none

/-- A date that exists. -/
def readDate : Reader Unit := fun s => do
  let (year, s) ← Reader.number 4 4 s
  let ((), s) ← Reader.char '-' s
  let (month, s) ← Reader.number 2 2 s
  let ((), s) ← Reader.char '-' s
  let (day, s) ← Reader.number 2 2 s
  if Date.isValid ⟨year, month, day⟩ then some ((), s) else none

/-- A fraction of a second. -/
def readSecondFraction : Reader Unit := fun s => do
  let ((), s) ← Reader.char '.' s
  let (_, s) ← Reader.number 1 s.length s
  some ((), s)

/-- A time of day; second 60 is known. -/
def readTime : Reader Unit := fun s => do
  let ((), s) ← readTwoDigits 23 s
  let ((), s) ← Reader.char ':' s
  let ((), s) ← readTwoDigits 59 s
  let ((), s) ← Reader.char ':' s
  let ((), s) ← readTwoDigits 60 s
  let (_, s) ← Reader.optional readSecondFraction s
  some ((), s)

/-- An offset from universal time. -/
def readOffset : Reader Unit
  | c :: s => do
    if c = 'Z' ∨ c = 'z' then some ((), s)
    else if c = '+' ∨ c = '-' then
      let ((), s) ← readTwoDigits 23 s
      let ((), s) ← Reader.char ':' s
      readTwoDigits 59 s
    else none
  | [] => none

/-- The time of day after a date. -/
def readTimeOfDate : Reader Unit
  | c :: s => do
    if c = 'T' ∨ c = 't' ∨ c = ' ' then
      let ((), s) ← readTime s
      let (_, s) ← Reader.optional readOffset s
      some ((), s)
    else none
  | [] => none

/-- A moment. -/
def readMoment : Reader Value := fun s =>
  match readDate s with
  | some ((), s) => do
    let (_, s) ← Reader.optional readTimeOfDate s
    some (.moment, s)
  | none => (readTime s).map fun ((), s) => (.moment, s)

end RecordStore.Toml
