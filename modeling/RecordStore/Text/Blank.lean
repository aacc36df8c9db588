/-! # White space

The characters with the Unicode property of white space. -/

namespace RecordStore.Text

/-- White space: the ASCII blanks from tab to carriage return, the space, and the blanks beyond
ASCII. -/
def isBlank (c : Char) : Bool :=
  let n := c.toNat
  (decide (9 ≤ n) && decide (n ≤ 13)) || n == 0x20 || n == 0x85 || n == 0xa0 || n == 0x1680 ||
    (decide (0x2000 ≤ n) && decide (n ≤ 0x200a)) || n == 0x2028 || n == 0x2029 || n == 0x202f ||
    n == 0x205f || n == 0x3000

/-- A text without its leading white space. -/
def skipBlank (s : List Char) : List Char := s.dropWhile isBlank

end RecordStore.Text
