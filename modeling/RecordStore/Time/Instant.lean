import RecordStore.Time.Calendar

/-! # Instants of coordinated universal time

An instant is a number of seconds since the beginning of 1970 and a number of nanoseconds after that
second.  Inside a leap second the nanoseconds run past a whole second while the seconds stand still;
`Instant.ofUnix?` allows this at the end of a minute only, and where it happens elsewhere the
instant counts as one of the next second (`Instant.second`).  Instants outside the years -262143 to
262142 do not exist. -/

namespace RecordStore

/-- A point in time, to the nanosecond. -/
structure Instant where
  seconds : Int
  nanos : Nat
  nanos_lt : nanos < 2_000_000_000
  earliest : -8334601228800 ≤ seconds
  latest : seconds ≤ 8210266876799
deriving DecidableEq

namespace Instant

/-- The instant at a number of seconds and nanoseconds, if there is one; a leap second comes after
the last second of a minute. -/
def ofUnix? (seconds : Int) (nanos : Nat) : Option Instant :=
  if h : nanos < 2_000_000_000 ∧ (1_000_000_000 ≤ nanos → seconds % 60 = 59) ∧
      -8334601228800 ≤ seconds ∧ seconds ≤ 8210266876799 then
    some ⟨seconds, nanos, h.1, h.2.2.1, h.2.2.2⟩
  else none

/-- The beginning of 1970. -/
def epoch : Instant := ⟨0, 0, by decide, by decide, by decide⟩

instance : Inhabited Instant := ⟨epoch⟩

variable (t : Instant)

/-- The date of the instant. -/
def date : Date := Date.ofDays (t.seconds / 86400)

/-- Seconds since midnight. -/
def secondOfDay : Nat := (t.seconds % 86400).toNat

/-- Hour of the day. -/
def hour : Nat := t.secondOfDay / 3600

/-- Minute of the hour. -/
def minute : Nat := t.secondOfDay / 60 % 60

/-- Second of the minute, one more where the nanoseconds run past a whole second; a leap second is
second 60. -/
def second : Nat := t.secondOfDay % 60 + t.nanos / 1_000_000_000

/-- Nanoseconds after the second that `second` names. -/
def fraction : Nat := t.nanos % 1_000_000_000

end Instant

end RecordStore
