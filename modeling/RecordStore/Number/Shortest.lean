import RecordStore.Number.Double

/-! # The shortest decimal of a double

The reals that round to a finite double form an interval around it.  `Double.shortest` is the
decimal with the fewest digits inside that interval; of two such decimals the nearer one, and of two
equally near ones the upper.  Reading that decimal back gives the same double, and no decimal with
fewer digits does.

All arithmetic is on natural numbers.  A double is measured in quarters of its last place, so that
the ends of its interval are whole numbers of units. -/

namespace RecordStore

/-- The positive decimal `digits × 10 ^ exponent`. -/
structure Decimal where
  digits : Nat
  exponent : Int
deriving DecidableEq, Inhabited

namespace Decimal

/-- The digits of the significand, most significant first. -/
def digitList (d : Decimal) : List Char := Nat.toDigits 10 d.digits

/-- The power of ten of the leading digit. -/
def leading (d : Decimal) : Int := d.exponent + d.digitList.length - 1

/-- Drops trailing zeros of the significand, which keeps the value. -/
def trim : Nat → Decimal → Decimal
  | 0, d => d
  | fuel + 1, d =>
    if d.digits ≠ 0 ∧ d.digits % 10 = 0 then trim fuel ⟨d.digits / 10, d.exponent + 1⟩ else d

end Decimal

/-- A closed or open interval of nonnegative reals around `center`, in units of `scale / unit`. -/
structure RoundingInterval where
  low : Nat
  center : Nat
  high : Nat
  /-- The ends themselves round to the center. -/
  closed : Bool
  /-- One unit is the rational `numerator / denominator`. -/
  numerator : Nat
  denominator : Nat

namespace RoundingInterval

/-- The interval of the reals that round to the magnitude of a finite double. -/
def ofDouble (x : Double) : RoundingInterval where
  low := 4 * x.significand - if x.atBinadeStart then 1 else 2
  center := 4 * x.significand
  high := 4 * x.significand + 2
  closed := x.significand % 2 == 0
  numerator := twoTo (x.power - 2).toNat
  denominator := twoTo (2 - x.power).toNat

variable (i : RoundingInterval)

/-- Power of ten of the leading digit of the center.  Scaling by a power of ten that no double is
small enough to escape makes it a question about the length of a natural number. -/
def leading : Int :=
  ((Nat.toDigits 10 (i.center * i.numerator * tenTo 400 / i.denominator)).length : Int) - 401

/-- The decimal lies in the interval. -/
def contains (d : Decimal) : Bool :=
  let scaled := d.digits * tenTo d.exponent.toNat * i.denominator
  let down := tenTo (-d.exponent).toNat
  let low := i.low * i.numerator * down
  let high := i.high * i.numerator * down
  if i.closed then decide (low ≤ scaled ∧ scaled ≤ high) else decide (low < scaled ∧ scaled < high)

/-- The center divided by `10 ^ exponent`, rounded down. -/
def quotient (exponent : Int) : Nat :=
  i.center * i.numerator * tenTo (-exponent).toNat / (i.denominator * tenTo exponent.toNat)

/-- The center is nearer to `n × 10 ^ exponent` than to the grid point above it. -/
def nearerBelow (n : Nat) (exponent : Int) : Bool :=
  2 * (i.center * i.numerator * tenTo (-exponent).toNat)
    < (2 * n + 1) * (i.denominator * tenTo exponent.toNat)

/-- The better of the two neighbours of the center on the grid of `10 ^ exponent`, if one of them
lies in the interval. -/
def onGrid (exponent : Int) : Option Decimal :=
  let n := i.quotient exponent
  let below := i.contains ⟨n, exponent⟩
  let above := i.contains ⟨n + 1, exponent⟩
  match below, above with
  | true, true => some (if i.nearerBelow n exponent then ⟨n, exponent⟩ else ⟨n + 1, exponent⟩)
  | true, false => some ⟨n, exponent⟩
  | false, true => some ⟨n + 1, exponent⟩
  | false, false => none

/-- The first grid, from one digit on, that meets the interval. -/
def search (exponent : Int) : Nat → Option Decimal
  | 0 => none
  | fuel + 1 => (i.onGrid exponent).or (search (exponent - 1) fuel)

end RoundingInterval

/-- The shortest decimal that reads back as the magnitude of a finite double.  Seventeen digits
always suffice. -/
def Double.shortest (x : Double) : Decimal :=
  let i := RoundingInterval.ofDouble x
  Decimal.trim 20 ((i.search i.leading 17).getD ⟨0, 0⟩)

end RecordStore
