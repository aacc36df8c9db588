import Mathlib.Algebra.Group.Nat.Defs
import Mathlib.Data.List.Basic
import RecordStore.Cache.Address
import RecordStore.Text.Reader

/-! # What the bytes of a statement tell

No text, value or list of values is written as the beginning of another one
(`textBytes_append_inj`, `valueBytes_append_inj`, `itemsBytes_append_inj`).  So statements with the
same bytes have the same text and the same parameters, and the key lists of two queries are in one
place only if these are equal or the hash of their bytes collides (`keyList_shared`).

Lengths are written in one word.  A list of 2^64 items is written like an empty list and the items
after it (`statementBytes_long_list`), which is why lengths are bounded here.  Instants are left
out. -/

namespace RecordStore

namespace Value

mutual

/-- The value holds no instant, and no blob or list that is too long for its length to be a word. -/
def isLegible : Value → Bool
  | timestamp _ => false
  | blob bytes => decide (bytes.length < 2 ^ 64)
  | array items => decide (items.length < 2 ^ 64) && allLegible items
  | null | bool _ | integer _ | real _ | text _ => true

/-- All values of a list are legible. -/
def allLegible : List Value → Bool
  | [] => true
  | v :: vs => v.isLegible && allLegible vs

end

end Value

/-- The parameters are legible, and their number is a word. -/
def CompiledStatement.isLegible (s : CompiledStatement) : Bool := (Value.array s.params).isLegible

namespace Digest

variable {rest rest' : List UInt8}

/-! ### Words -/

theorem length_littleEndian (count n : Nat) : (littleEndian count n).length = count := by
  induction count generalizing n with
  | zero => rfl
  | succ count ih => rw [littleEndian, List.length_cons, ih]

/-- The lowest bytes tell a number up to what they can hold. -/
theorem littleEndian_inj {count n m : Nat} :
    littleEndian count n = littleEndian count m ↔ n % 256 ^ count = m % 256 ^ count := by
  induction count generalizing n m with
  | zero => simp [littleEndian, Nat.mod_one]
  | succ count ih =>
      have hlow : UInt8.ofNat n = .ofNat m ↔ n % 256 = m % 256 := by
        rw [← UInt8.toNat_inj, UInt8.toNat_ofNat', UInt8.toNat_ofNat']
      rw [littleEndian, littleEndian, List.cons.injEq, hlow, ih, Nat.pow_succ', Nat.mod_mul,
        Nat.mod_mul]
      omega

/-- A word is read back whatever comes after it. -/
theorem word_append_inj {n m : Nat} (hn : n < 2 ^ 64) (hm : m < 2 ^ 64)
    (h : word n ++ rest = word m ++ rest') : n = m ∧ rest = rest' := by
  have hlength : (word n).length = (word m).length := by
    unfold word
    rw [length_littleEndian, length_littleEndian]
  obtain ⟨hword, hrest⟩ := List.append_inj h hlength
  have hmod : n % 2 ^ 64 = m % 2 ^ 64 := littleEndian_inj.mp hword
  rw [Nat.mod_eq_of_lt hn, Nat.mod_eq_of_lt hm] at hmod
  exact ⟨hmod, hrest⟩

theorem uint64_append_inj {x y : UInt64} (h : word x.toNat ++ rest = word y.toNat ++ rest') :
    x = y ∧ rest = rest' := by
  obtain ⟨hnat, hrest⟩ := word_append_inj x.toNat_lt y.toNat_lt h
  exact ⟨UInt64.toNat_inj.mp hnat, hrest⟩

/-! ### Texts -/

theorem toList_loop_eq (bytes : ByteArray) (i : Nat) (read : List UInt8) :
    ByteArray.toList.loop bytes i read = read.reverse ++ bytes.data.toList.drop i := by
  fun_induction ByteArray.toList.loop bytes i read with
  | case1 i read h ih =>
      have hi : i < bytes.data.toList.length := by simpa using h
      rw [ih, List.drop_eq_getElem_cons hi]
      simp [ByteArray.get!, h]
  | case2 i read h =>
      rw [List.drop_eq_nil_of_le (by simpa using Nat.le_of_not_lt h), List.append_nil]

theorem toList_eq (bytes : ByteArray) : bytes.toList = bytes.data.toList := by
  unfold ByteArray.toList
  rw [toList_loop_eq, List.drop_zero]
  rfl

/-- The bytes of a text are those of its characters. -/
theorem toUTF8_toList (s : String) : s.toUTF8.toList = s.toList.flatMap String.utf8EncodeChar := by
  conv_lhs => rw [← String.ofList_toList (s := s)]
  rw [toList_eq, String.toUTF8_eq_toByteArray, String.toByteArray_ofList]
  exact List.toList_data_toByteArray

/-- No character has the byte that ends a text. -/
theorem end_notMem_utf8EncodeChar (c : Char) : 0xff ∉ String.utf8EncodeChar c := by
  have hbytes (ns : List Nat) (h : ∀ n ∈ ns, n < 255) : (0xff : UInt8) ∉ ns.map .ofNat := by
    rw [List.mem_map]
    rintro ⟨n, hn, heq⟩
    have hlt := h n hn
    have hmod : n % 256 = 255 := by simpa using congrArg UInt8.toNat heq
    omega
  unfold String.utf8EncodeChar
  dsimp only
  generalize c.val.toNat = n
  split
  · exact hbytes [n] (List.forall_mem_singleton.mpr (by omega))
  · split
    · exact hbytes [n / 64 % 32 + 192, n % 64 + 128] (List.forall_mem_cons.mpr
        ⟨by omega, List.forall_mem_singleton.mpr (by omega)⟩)
    · split
      · exact hbytes [n / 4096 % 16 + 224, n / 64 % 64 + 128, n % 64 + 128]
          (List.forall_mem_cons.mpr ⟨by omega, List.forall_mem_cons.mpr
            ⟨by omega, List.forall_mem_singleton.mpr (by omega)⟩⟩)
      · exact hbytes [n / 262144 % 8 + 240, n / 4096 % 64 + 128, n / 64 % 64 + 128, n % 64 + 128]
          (List.forall_mem_cons.mpr ⟨by omega, List.forall_mem_cons.mpr ⟨by omega,
            List.forall_mem_cons.mpr ⟨by omega, List.forall_mem_singleton.mpr (by omega)⟩⟩⟩)

/-- A byte that stands in neither list ends both in one place. -/
theorem ended_append_inj {a : UInt8} {xs ys : List UInt8} (hxs : a ∉ xs) (hys : a ∉ ys)
    (h : xs ++ a :: rest = ys ++ a :: rest') : xs = ys ∧ rest = rest' := by
  induction xs generalizing ys with
  | nil =>
      cases ys with
      | nil => exact ⟨rfl, (List.cons.inj h).2⟩
      | cons y ys => exact absurd ((List.cons.inj h).1 ▸ List.mem_cons_self) hys
  | cons x xs ih =>
      cases ys with
      | nil => exact absurd ((List.cons.inj h).1 ▸ List.mem_cons_self) hxs
      | cons y ys =>
          obtain ⟨rfl, htail⟩ := List.cons.inj h
          obtain ⟨rfl, hrest⟩ := ih (List.not_mem_of_not_mem_cons hxs)
            (List.not_mem_of_not_mem_cons hys) htail
          exact ⟨rfl, hrest⟩

/-- A text is read back whatever comes after it. -/
theorem textBytes_append_inj {s t : String} (h : textBytes s ++ rest = textBytes t ++ rest') :
    s = t ∧ rest = rest' := by
  have hend (s : String) : 0xff ∉ s.toUTF8.toList := by
    rw [toUTF8_toList, List.mem_flatMap]
    rintro ⟨c, -, hc⟩
    exact end_notMem_utf8EncodeChar c hc
  unfold textBytes at h
  rw [List.append_assoc, List.append_assoc] at h
  obtain ⟨hbytes, hrest⟩ := ended_append_inj (hend s) (hend t) h
  rw [toList_eq, toList_eq, Array.toList_inj] at hbytes
  exact ⟨String.toByteArray_inj.mp (ByteArray.ext hbytes), hrest⟩

/-! ### Values -/

/-- The number of a type, with which its values begin. -/
def typeNumber : ValueType → Nat
  | .null => 0
  | .bool => 1
  | .integer => 2
  | .real => 3
  | .text => 4
  | .blob => 5
  | .timestamp => 6
  | .array => 7

theorem exists_valueBytes (v : Value) :
    ∃ content, valueBytes v = word (typeNumber v.type) ++ content := by
  cases v with
  | null => exact ⟨[], rfl⟩
  | bool | integer | real | text =>
      rw [valueBytes]
      exact ⟨_, rfl⟩
  | blob | timestamp | array =>
      rw [valueBytes, List.append_assoc]
      exact ⟨_, rfl⟩

/-- Values of different types begin with different words. -/
theorem type_eq_of_valueBytes {a b : Value} (h : valueBytes a ++ rest = valueBytes b ++ rest') :
    a.type = b.type := by
  obtain ⟨content, ha⟩ := exists_valueBytes a
  obtain ⟨content', hb⟩ := exists_valueBytes b
  rw [ha, hb, List.append_assoc, List.append_assoc] at h
  have hlt (type : ValueType) : typeNumber type < 2 ^ 64 := by cases type <;> decide
  have hnumber := (word_append_inj (hlt _) (hlt _) h).1
  revert hnumber
  cases a.type <;> cases b.type <;> decide

mutual

/-- A value is read back whatever comes after it. -/
theorem valueBytes_append_inj {rest rest' : List UInt8} : ∀ {a b : Value}, a.isLegible = true →
    b.isLegible = true → valueBytes a ++ rest = valueBytes b ++ rest' → a = b ∧ rest = rest'
  | a, b, ha, hb, h => by
    have htype := type_eq_of_valueBytes h
    cases a with
    | null =>
        cases b with
        | null => exact ⟨rfl, List.append_cancel_left h⟩
        | _ => cases htype
    | bool x =>
        cases b with
        | bool y =>
            obtain ⟨hbyte, hrest⟩ := List.cons.inj ((List.append_right_inj (word 1)).mp h)
            have hxy : x = y := by cases x <;> cases y <;> first | rfl | cases hbyte
            exact ⟨congrArg Value.bool hxy, hrest⟩
        | _ => cases htype
    | integer n =>
        cases b with
        | integer m =>
            rw [valueBytes, valueBytes, List.append_assoc, List.append_assoc] at h
            obtain ⟨hword, hrest⟩ := uint64_append_inj (List.append_cancel_left h)
            cases n
            cases hword
            exact ⟨rfl, hrest⟩
        | _ => cases htype
    | real x =>
        cases b with
        | real y =>
            rw [valueBytes, valueBytes, List.append_assoc, List.append_assoc] at h
            obtain ⟨hword, hrest⟩ := uint64_append_inj (List.append_cancel_left h)
            cases x
            cases hword
            exact ⟨rfl, hrest⟩
        | _ => cases htype
    | text s =>
        cases b with
        | text t =>
            rw [valueBytes, valueBytes, List.append_assoc, List.append_assoc] at h
            obtain ⟨rfl, hrest⟩ := textBytes_append_inj (List.append_cancel_left h)
            exact ⟨rfl, hrest⟩
        | _ => cases htype
    | blob xs =>
        cases b with
        | blob ys =>
            rw [valueBytes, valueBytes] at h
            simp only [List.append_assoc] at h
            obtain ⟨hlength, hbytes⟩ := word_append_inj (of_decide_eq_true ha)
              (of_decide_eq_true hb) (List.append_cancel_left h)
            obtain ⟨rfl, hrest⟩ := List.append_inj hbytes hlength
            exact ⟨rfl, hrest⟩
        | _ => cases htype
    | timestamp t => cases ha
    | array as =>
        cases b with
        | array bs =>
            rw [Value.isLegible, Bool.and_eq_true, decide_eq_true_eq] at ha hb
            rw [valueBytes, valueBytes] at h
            simp only [List.append_assoc] at h
            obtain ⟨hlength, hitems⟩ := word_append_inj ha.1 hb.1 (List.append_cancel_left h)
            obtain ⟨rfl, hrest⟩ := itemsBytes_append_inj hlength ha.2 hb.2 hitems
            exact ⟨rfl, hrest⟩
        | _ => cases htype

/-- A list of known length is read back whatever comes after it. -/
theorem itemsBytes_append_inj {rest rest' : List UInt8} : ∀ {as bs : List Value},
    as.length = bs.length → Value.allLegible as = true → Value.allLegible bs = true →
    itemsBytes as ++ rest = itemsBytes bs ++ rest' → as = bs ∧ rest = rest'
  | [], [], _, _, _, h => ⟨rfl, h⟩
  | a :: as, b :: bs, hlength, has, hbs, h => by
    rw [Value.allLegible, Bool.and_eq_true] at has hbs
    rw [itemsBytes, itemsBytes, List.append_assoc, List.append_assoc] at h
    obtain ⟨rfl, htail⟩ := valueBytes_append_inj has.1 hbs.1 h
    obtain ⟨rfl, hrest⟩ :=
      itemsBytes_append_inj (Nat.succ.inj hlength) has.2 hbs.2 htail
    exact ⟨rfl, hrest⟩

end

/-! ### Statements -/

/-- Statements with the same bytes have the same text and the same parameters. -/
theorem statementBytes_inj {s t : CompiledStatement} (hs : s.isLegible = true)
    (ht : t.isLegible = true) :
    statementBytes s = statementBytes t ↔ s.sql = t.sql ∧ s.params = t.params := by
  constructor
  · intro h
    unfold CompiledStatement.isLegible at hs ht
    rw [Value.isLegible, Bool.and_eq_true, decide_eq_true_eq] at hs ht
    obtain ⟨hsql, hlist⟩ := textBytes_append_inj h
    obtain ⟨hlength, hitems⟩ := word_append_inj hs.1 ht.1 hlist
    have hitems : itemsBytes s.params ++ [] = itemsBytes t.params ++ [] := by
      rw [List.append_nil, List.append_nil]
      exact hitems
    exact ⟨hsql, (itemsBytes_append_inj hlength hs.2 ht.2 hitems).1⟩
  · rintro ⟨hsql, hparams⟩
    unfold statementBytes
    rw [hsql, hparams]

/-- A list of 2^64 items is written like an empty list and the items after it. -/
theorem statementBytes_long_list (sql : String) {items : List Value}
    (h : items.length = 2 ^ 64) : statementBytes ⟨sql, [Value.array items].map .value⟩ =
      statementBytes ⟨sql, (Value.array [] :: items).map .value⟩ := by
  have hparams (vs : List Value) : CompiledStatement.params ⟨sql, vs.map .value⟩ = vs := by
    unfold CompiledStatement.params
    rw [List.map_map]
    exact List.map_id vs
  have hinner : word items.length = word ([] : List Value).length :=
    littleEndian_inj.mpr (by rw [h]; rfl)
  have houter : word [Value.array items].length = word (Value.array [] :: items).length :=
    littleEndian_inj.mpr (by rw [List.length_cons, List.length_cons, h]; rfl)
  unfold statementBytes
  rw [hparams, hparams, listBytes, listBytes, houter, itemsBytes, itemsBytes, itemsBytes,
    valueBytes, valueBytes, itemsBytes, hinner, List.append_nil, List.append_nil]

/-! ### Digests -/

/-- The digits of a number are read as this number. -/
theorem digitsValue_toDigits (n : Nat) : Text.digitsValue 16 (Nat.toDigits 16 n) = n := by
  have hdigit : ∀ d < 16, (if (Nat.digitChar d).isDigit then (Nat.digitChar d).toNat - 48
      else (Nat.digitChar d).toLower.toNat - 87) = d := by decide
  unfold Text.digitsValue
  induction n using Nat.base_induction 16 (by decide) with
  | single d hd =>
      rw [Nat.toDigits_of_lt_base hd, List.foldl_cons, List.foldl_nil, hdigit d hd, Nat.mul_zero,
        Nat.zero_add]
  | digit n d hd hn ih =>
      rw [← Nat.toDigits_append_toDigits (by decide) hn hd, List.foldl_append, ih,
        Nat.toDigits_of_lt_base hd, List.foldl_cons, List.foldl_nil, hdigit d hd]

/-- A digest names the hash. -/
theorem digitsValue_hexWord (x : UInt64) : Text.digitsValue 16 (hexWord x).toList = x.toNat := by
  have hzeros (count : Nat) (ds : List Char) :
      Text.digitsValue 16 (List.replicate count '0' ++ ds) = Text.digitsValue 16 ds := by
    induction count with
    | zero => rfl
    | succ count ih => exact ih
  unfold hexWord
  rw [String.toList_ofList, hzeros, digitsValue_toDigits]

/-- Digests differ as far as the hash does. -/
theorem ofStatement_inj {s t : CompiledStatement} :
    ofStatement s = ofStatement t ↔
      hashBytes (statementBytes s) = hashBytes (statementBytes t) := by
  constructor
  · intro h
    have hread : Text.digitsValue 16 (ofStatement s).toList =
        Text.digitsValue 16 (ofStatement t).toList := by rw [h]
    unfold ofStatement at hread
    rw [digitsValue_hexWord, digitsValue_hexWord] at hread
    exact UInt64.toNat_inj.mp hread
  · intro h
    unfold ofStatement
    rw [h]

/-- The key lists of two queries are in one place if the queries are on one record type and their
bytes have the same hash. -/
theorem ofKeyList_inj {r r' : RecordType} {s t : CompiledStatement} :
    CacheAddress.ofKeyList r s = CacheAddress.ofKeyList r' t ↔
      r.name = r'.name ∧ hashBytes (statementBytes s) = hashBytes (statementBytes t) := by
  have hbin : r.keyListBin = r'.keyListBin ↔ r.name = r'.name := String.append_left_inj "#keys"
  unfold CacheAddress.ofKeyList
  rw [CacheAddress.mk.injEq, hbin, List.cons.injEq, Value.text.injEq, ofStatement_inj]
  exact and_congr_right fun _ => and_iff_left rfl

/-- Different bytes have the same hash. -/
def Collide (bytes bytes' : List UInt8) : Prop :=
  bytes ≠ bytes' ∧ hashBytes bytes = hashBytes bytes'

/-- Two statements are written alike exactly if they have the same text and the same parameters.  So
the key lists of two queries are in one place exactly if the queries are on one record type and are
equal, or the hash of their bytes collides. -/
theorem keyList_shared {s t : CompiledStatement} (hs : s.isLegible = true)
    (ht : t.isLegible = true) :
    (statementBytes s = statementBytes t ↔ s.sql = t.sql ∧ s.params = t.params) ∧
      ∀ r r', CacheAddress.ofKeyList r s = CacheAddress.ofKeyList r' t ↔
        r.name = r'.name ∧
          ((s.sql = t.sql ∧ s.params = t.params) ∨
            Collide (statementBytes s) (statementBytes t)) := by
  refine ⟨statementBytes_inj hs ht, fun r r' => ?_⟩
  rw [ofKeyList_inj, ← statementBytes_inj hs ht]
  refine and_congr_right fun _ => ?_
  constructor
  · intro hhash
    by_cases h : statementBytes s = statementBytes t
    · exact .inl h
    · exact .inr ⟨h, hhash⟩
  · rintro (h | h)
    · rw [h]
    · exact h.2

end Digest

namespace Sample

/-- A statement with a list of two items as its parameter. -/
def pairListed : CompiledStatement :=
  ⟨"SELECT ?", [.value (.array [.integer 1, .blob [2]])]⟩

/-- The statement with the second item moved out of the list. -/
def pairSplit : CompiledStatement :=
  ⟨"SELECT ?", [.value (.array [.integer 1]), .value (.blob [2])]⟩

/-- Where a list ends is seen in the bytes. -/
theorem pairListed_apart : pairListed.isLegible = true ∧ pairSplit.isLegible = true ∧
    Digest.statementBytes pairListed ≠ Digest.statementBytes pairSplit ∧
    ∀ r, CacheAddress.ofKeyList r pairListed = CacheAddress.ofKeyList r pairSplit →
      Digest.Collide (Digest.statementBytes pairListed) (Digest.statementBytes pairSplit) := by
  have hlisted : pairListed.isLegible = true := by decide
  have hsplit : pairSplit.isLegible = true := by decide
  have hparams : ¬ (pairListed.sql = pairSplit.sql ∧ pairListed.params = pairSplit.params) := by
    decide
  obtain ⟨hbytes, hshared⟩ := Digest.keyList_shared hlisted hsplit
  refine ⟨hlisted, hsplit, fun h => hparams (hbytes.mp h), fun r h => ?_⟩
  exact ((hshared r r).mp h).2.resolve_left hparams

end Sample

end RecordStore
