import RecordStore.Number.Power
import RecordStore.Text.Reader
import RecordStore.Toml.Value

/-! # Numbers of a document

Digits may be grouped by single underscores.  Decimal numbers have no leading zeros; whole numbers
can also be hexadecimal, octal or binary, then without a sign, and have to fit into 64 bits.  A real
number is known by its fraction or exponent.  A positive one that rounds to infinity as a double is
refused, a negative one is not. -/

namespace RecordStore.Toml

open Text (Reader)

/-! ### Digits -/

/-- The digits that follow a digit, with underscores only between digits. -/
def moreDigits (isDigit : Char → Bool) : List Char → List Char × List Char
  | '_' :: c :: s =>
    if isDigit c then
      let (ds, rest) := moreDigits isDigit s
      (c :: ds, rest)
    else ([], '_' :: c :: s)
  | c :: s =>
    if isDigit c then
      let (ds, rest) := moreDigits isDigit s
      (c :: ds, rest)
    else ([], c :: s)
  | [] => ([], [])

/-- At least one digit. -/
def readDigits (isDigit : Char → Bool) : Reader (List Char)
  | c :: s =>
    if isDigit c then
      let (ds, rest) := moreDigits isDigit s
      some (c :: ds, rest)
    else none
  | [] => none

/-- Decimal digits without a leading zero, unless there is only a zero. -/
def readDecimal : Reader (List Char)
  | '0' :: s => some (['0'], s)
  | s => readDigits Char.isDigit s

/-- A number is negative. -/
def readSign : Reader Bool
  | '-' :: s => some (true, s)
  | '+' :: s => some (false, s)
  | s => some (false, s)

/-! ### Whole numbers -/

/-- A whole number of 64 bits. -/
def ofInt? (n : Int) : Option Value :=
  if -0x8000_0000_0000_0000 ≤ n ∧ n < 0x8000_0000_0000_0000 then some (.integer n) else none

/-- A whole number without a sign in a base, after its mark. -/
def readBased (base : Nat) (isDigit : Char → Bool) : Reader Value := fun s => do
  let (ds, s) ← readDigits isDigit s
  let v ← ofInt? (Text.digitsValue base ds)
  some (v, s)

/-- A whole number. -/
def readInteger : Reader Value
  | '0' :: 'x' :: s => readBased 16 Text.isHexDigit s
  | '0' :: 'o' :: s => readBased 8 (fun c => '0' ≤ c && c ≤ '7') s
  | '0' :: 'b' :: s => readBased 2 (fun c => c = '0' || c = '1') s
  | s => do
    let (negative, s) ← readSign s
    let (ds, s) ← readDecimal s
    let n := Text.digitsValue 10 ds
    let v ← ofInt? (if negative then -(n : Int) else n)
    some (v, s)

/-! ### Real numbers -/

/-- A fraction with its point. -/
def readFraction : Reader (List Char)
  | '.' :: s => readDigits Char.isDigit s
  | _ => none

/-- An exponent with its mark. -/
def readExponent : Reader Int
  | c :: s => do
    if c = 'e' ∨ c = 'E' then
      let (negative, s) ← readSign s
      let (ds, s) ← readDigits Char.isDigit s
      let n := Text.digitsValue 10 ds
      some (if negative then -(n : Int) else n, s)
    else none
  | [] => none

/-- Half a unit above the largest double: what reaches this is rounded to infinity. -/
def doubleLimit : Nat := twoTo 1024 - twoTo 970

/-- The decimal with these digits and this exponent is rounded to infinity.  Beyond the bounds put
on the exponent the digits alone decide. -/
def exceedsDoubles (ds : List Char) (exponent : Int) : Bool :=
  let n := Text.digitsValue 10 ds
  if 0 ≤ exponent then decide (doubleLimit ≤ n * tenTo (min exponent.toNat 310))
  else decide (doubleLimit * tenTo (min (-exponent).toNat ds.length) ≤ n)

/-- A real number written with digits. -/
def readDigitsReal : Reader Value := fun s => do
  let (negative, s) ← readSign s
  let (whole, s) ← readDecimal s
  let (fraction, s) ← Reader.optional readFraction s
  let (exponent, s) ← Reader.optional readExponent s
  if fraction.isNone ∧ exponent.isNone then none
  else
    let places := fraction.getD []
    if !negative && exceedsDoubles (whole ++ places) (exponent.getD 0 - places.length) then none
    else some (.real, s)

/-- An infinity or no number at all. -/
def readSpecialReal : Reader Value := fun s => do
  let (_, s) ← readSign s
  let ((), s) ← (Reader.word ['i', 'n', 'f'] s).or (Reader.word ['n', 'a', 'n'] s)
  some (.real, s)

/-- A number. -/
def readNumber : Reader Value := fun s =>
  ((readDigitsReal s).or (readSpecialReal s)).or (readInteger s)

end RecordStore.Toml
