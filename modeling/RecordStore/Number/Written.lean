import RecordStore.Number.Shortest

/-! # Reals in text

A real is written with its shortest decimal.  Two styles are in use: `RealStyle.plain` never uses an
exponent and writes a whole number without a point; `RealStyle.exact` shows that a number is a real,
and writes magnitudes from `10 ^ 16` on and below `10 ^ -4` with an exponent. -/

namespace RecordStore

/-- How a real is written. -/
structure RealStyle where
  /-- The powers of ten of the leading digit that are written without an exponent. -/
  positional : Int → Bool
  /-- A whole number is written with `.0`. -/
  wholePoint : Bool

namespace RealStyle

/-- Digits and a point, however long. -/
def plain : RealStyle where
  positional := fun _ => true
  wholePoint := false

/-- Positional between `10 ^ -4` and `10 ^ 16`, and always recognisable as a real. -/
def exact : RealStyle where
  positional := fun e => decide (-4 ≤ e) && decide (e < 16)
  wholePoint := true

variable (style : RealStyle)

/-- A decimal written without an exponent. -/
def writePositional (d : Decimal) : List Char :=
  let ds := d.digitList
  let whole := d.leading + 1
  if whole ≤ 0 then '0' :: '.' :: (List.replicate (-whole).toNat '0' ++ ds)
  else if ds.length ≤ whole.toNat then
    ds ++ List.replicate (whole.toNat - ds.length) '0' ++
      if style.wholePoint then ['.', '0'] else []
  else ds.take whole.toNat ++ '.' :: ds.drop whole.toNat

/-- A decimal written as one digit, its fraction and a power of ten. -/
def writeExponent (d : Decimal) : List Char :=
  let ds := d.digitList
  let fraction := ds.drop 1
  ds.take 1 ++ (if fraction.isEmpty then [] else '.' :: fraction) ++
    'e' :: (toString d.leading).toList

/-- The magnitude of a finite double. -/
def writeMagnitude (x : Double) : List Char :=
  if x.isZero then if style.wholePoint then ['0', '.', '0'] else ['0']
  else
    let d := x.shortest
    if style.positional d.leading then style.writePositional d else writeExponent d

/-- The text of a double.  A NaN has no sign. -/
def write (x : Double) : String :=
  if x.isNaN then "NaN"
  else
    let sign := if x.isNegative then ['-'] else []
    String.ofList (sign ++ if x.isFinite then style.writeMagnitude x else ['i', 'n', 'f'])

end RealStyle

end RecordStore
