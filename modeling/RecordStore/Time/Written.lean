import RecordStore.Time.Instant

/-! # Instants in text

An instant is written as `year-month-dayThour:minute:second`, a fraction of the second and the
offset of its time zone.  The year has four digits, or a sign and at least four digits where four
digits are not enough or the year is negative. -/

namespace RecordStore

/-- A number in decimal with leading zeros up to a width. -/
def padded (width n : Nat) : List Char :=
  let ds := Nat.toDigits 10 n
  List.replicate (width - ds.length) '0' ++ ds

/-- How the fraction of a second is written. -/
inductive FractionStyle where
  /-- No digits, three, six or nine, whichever is the least that loses nothing. -/
  | asNeeded
  /-- Three digits; finer ones are cut off. -/
  | millis
deriving DecidableEq

/-- How the offset zero is written. -/
inductive OffsetStyle where
  | letter
  | numeric
deriving DecidableEq

namespace Instant

/-- A year in text. -/
def writeYear (year : Int) : List Char :=
  if 0 ≤ year ∧ year ≤ 9999 then padded 4 year.toNat
  else (if year < 0 then '-' else '+') :: padded 4 year.natAbs

/-- A fraction of a second, given in nanoseconds, with its point. -/
def writeFraction (style : FractionStyle) (nanos : Nat) : List Char :=
  match style with
  | .millis => '.' :: padded 3 (nanos / 1_000_000)
  | .asNeeded =>
    if nanos = 0 then []
    else if nanos % 1_000_000 = 0 then '.' :: padded 3 (nanos / 1_000_000)
    else if nanos % 1000 = 0 then '.' :: padded 6 (nanos / 1000)
    else '.' :: padded 9 nanos

/-- The offset of universal time. -/
def writeOffset : OffsetStyle → List Char
  | .letter => ['Z']
  | .numeric => ['+', '0', '0', ':', '0', '0']

/-- The text of an instant. -/
def write (fraction : FractionStyle) (offset : OffsetStyle) (t : Instant) : String :=
  String.ofList <|
    writeYear t.date.year ++ '-' :: padded 2 t.date.month ++ '-' :: padded 2 t.date.day ++
    'T' :: padded 2 t.hour ++ ':' :: padded 2 t.minute ++ ':' :: padded 2 t.second ++
    writeFraction fraction t.fraction ++ writeOffset offset

end Instant

end RecordStore
