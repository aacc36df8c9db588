import RecordStore.Number.Power

/-! # Double-precision reals by their bits

A real column holds an IEEE 754 double.  It is kept as its 64 bits, so that two reals are the same
value exactly when their bits agree: the two zeros differ, and a NaN is equal to itself.

A finite double stands for `± significand × 2 ^ power`.  `Double.ofInt` rounds an integer to the
nearest double, an exact tie going to the even significand. -/

namespace RecordStore

/-- A double-precision real, known by its bit pattern. -/
structure Double where
  bits : UInt64
deriving DecidableEq, Inhabited

namespace Double

variable (x : Double)

/-! ### The fields of the format -/

/-- The sign bit: set on negative numbers and on negative zero. -/
def isNegative : Bool := x.bits.toNat / twoTo 63 == 1

/-- The eleven exponent bits as they are stored. -/
def storedExponent : Nat := x.bits.toNat / twoTo 52 % twoTo 11

/-- The fifty-two fraction bits. -/
def fraction : Nat := x.bits.toNat % twoTo 52

/-- Infinities and NaNs have every exponent bit set. -/
def isFinite : Bool := x.storedExponent != twoTo 11 - 1

/-- Not a number: every exponent bit set and a fraction that is not zero. -/
def isNaN : Bool := !x.isFinite && x.fraction != 0

/-- Zero of either sign. -/
def isZero : Bool := x.storedExponent == 0 && x.fraction == 0

/-- Subnormal numbers have no hidden bit. -/
def significand : Nat :=
  if x.storedExponent = 0 then x.fraction else x.fraction + twoTo 52

/-- The power of two that the significand is scaled by. -/
def power : Int :=
  if x.storedExponent = 0 then -1074 else (x.storedExponent : Int) - 1075

/-- The next smaller double of this magnitude is half as far away as the next larger one: the
significand is a power of two and its lower neighbour lies in the binade below. -/
def atBinadeStart : Bool := x.fraction == 0 && decide (1 < x.storedExponent)

/-! ### Rounding an integer -/

/-- The quotient `n / 2 ^ shift` rounded to the nearest integer, a tie going to the even one. -/
def roundShift (n shift : Nat) : Nat :=
  let quotient := n / twoTo shift
  let twice := 2 * (n % twoTo shift)
  if twice > twoTo shift ∨ (twice = twoTo shift ∧ quotient % 2 = 1) then quotient + 1 else quotient

/-- The bits of the double nearest to a positive integer, without its sign.  Rounding up to the next
power of two carries into the exponent field, which is the right result. -/
def magnitudeBits (n : Nat) : Nat :=
  let e := n.log2
  let scaled := if e ≤ 52 then n * twoTo (52 - e) else roundShift n (e - 52)
  (e + 1023) * twoTo 52 + (scaled - twoTo 52)

/-- The double nearest to an integer. -/
def ofInt (n : Int) : Double :=
  if n = 0 then ⟨0⟩
  else ⟨.ofNat (magnitudeBits n.natAbs + if n < 0 then twoTo 63 else 0)⟩

end Double

end RecordStore
