import RecordStore.Sql.Compiled

/-! # Digests of statements

A statement and its parameters are identified by a digest.  They are first written as bytes, in a
form from which both can be read back: text ends with a byte that UTF-8 never uses, lists and blobs
begin with their length, and every value begins with the number of its type.  The bytes are then
hashed to 64 bits (SeaHash). -/

namespace RecordStore.Digest

/-! ### Bytes of a statement -/

/-- The lowest bytes of a number, the least significant first. -/
def littleEndian : Nat → Nat → List UInt8
  | 0, _ => []
  | count + 1, n => .ofNat n :: littleEndian count (n / 256)

/-- Eight bytes of a number. -/
def word (n : Nat) : List UInt8 := littleEndian 8 n

/-- The bytes of a text and the byte that ends it. -/
def textBytes (s : String) : List UInt8 := s.toUTF8.toList ++ [0xff]

mutual

/-- The bytes of a value. -/
def valueBytes : Value → List UInt8
  | .null => word 0
  | .bool b => word 1 ++ [if b then 1 else 0]
  | .integer n => word 2 ++ word n.toUInt64.toNat
  | .real x => word 3 ++ word x.bits.toNat
  | .text s => word 4 ++ textBytes s
  | .blob bytes => word 5 ++ word bytes.length ++ bytes
  | .timestamp t =>
    word 6 ++ word (t.seconds % 0x1_0000_0000_0000_0000).toNat ++ littleEndian 4 t.nanos
  | .array items => word 7 ++ word items.length ++ itemsBytes items

/-- The bytes of the values of a list. -/
def itemsBytes : List Value → List UInt8
  | [] => []
  | v :: vs => valueBytes v ++ itemsBytes vs

end

/-- The bytes of a list of values. -/
def listBytes (vs : List Value) : List UInt8 := word vs.length ++ itemsBytes vs

/-- The bytes of a statement and its parameters. -/
def statementBytes (s : CompiledStatement) : List UInt8 := textBytes s.sql ++ listBytes s.params

/-! ### The hash -/

/-- Mixes the bits of a word. -/
def diffuse (x : UInt64) : UInt64 :=
  let x := x * 0x6eed0e9da4d94a4f
  let x := x ^^^ ((x >>> 32) >>> (x >>> 60))
  x * 0x6eed0e9da4d94a4f

/-- The four words that hashing works on. -/
structure State where
  a : UInt64
  b : UInt64
  c : UInt64
  d : UInt64

/-- The state before the first byte. -/
def State.initial : State :=
  ⟨0x16f11fe89b0d677c, 0xb480a793d8e6c86c, 0x6fe2e5aaf078ebc9, 0x14f994a4c5259381⟩

/-- Takes in a word. -/
def State.absorb (s : State) (x : UInt64) : State := ⟨s.b, s.c, s.d, diffuse (s.a ^^^ x)⟩

/-- The number that bytes spell, the least significant first. -/
def ofLittleEndian : List UInt8 → UInt64
  | [] => 0
  | b :: bs => b.toUInt64 + 256 * ofLittleEndian bs

/-- Takes in the words of a list of bytes; an incomplete last word enters the first word only. -/
def State.absorbAll (s : State) : List UInt8 → State
  | b0 :: b1 :: b2 :: b3 :: b4 :: b5 :: b6 :: b7 :: rest =>
    (s.absorb (ofLittleEndian [b0, b1, b2, b3, b4, b5, b6, b7])).absorbAll rest
  | [] => s
  | rest => { s with a := diffuse (s.a ^^^ ofLittleEndian rest) }

/-- The hash of a list of bytes. -/
def hashBytes (bytes : List UInt8) : UInt64 :=
  let s := State.initial.absorbAll bytes
  diffuse (s.a ^^^ s.b ^^^ s.c ^^^ s.d ^^^ .ofNat bytes.length)

/-- A word as sixteen hexadecimal digits. -/
def hexWord (x : UInt64) : String :=
  let ds := Nat.toDigits 16 x.toNat
  String.ofList (List.replicate (16 - ds.length) '0' ++ ds)

/-- The digest of a statement and its parameters. -/
def ofStatement (s : CompiledStatement) : String := hexWord (hashBytes (statementBytes s))

end RecordStore.Digest
