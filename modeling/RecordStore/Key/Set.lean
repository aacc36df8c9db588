import RecordStore.Chunks
import RecordStore.Distinct
import RecordStore.Key.Basic

/-! # Sets of keys

How a set of keys of one record type keeps its members is chosen when it is made: there are none, or
they are values of the only key field in the order of their first mention, or they are the tuples of
a hash set, which lists them in an order of its own (`HashOrder`).  The condition of the set holds
for exactly the rows with one of the keys: nothing for no keys, a membership test for the values of
one field, and alternatives of key conditions for tuples. -/

namespace RecordStore

/-- The orders in which hash sets list their members: nothing is known of them, and sets that are
made from different lists may have unlike ones. -/
structure HashOrder where
  arrange : List (List Value) → List (List Value)
  perm : ∀ tuples, (arrange tuples).Perm tuples

/-- Members are listed as they were first mentioned. -/
def HashOrder.firstMention : HashOrder := ⟨id, fun _ => .refl _⟩

/-- A finite set of keys of a record type. -/
inductive KeySet (r : RecordType) where
  | empty
  /-- Values of the only key field. -/
  | single (width : r.primaryKey.length = 1) (values : List Value) (filled : values ≠ [])
      (nodup : values.Nodup)
  /-- The tuples of a hash set, as it lists them. -/
  | multi (width : 1 < r.primaryKey.length) (tuples : List (List Value)) (filled : tuples ≠ [])
      (nodup : tuples.Nodup) (widths : ∀ tuple ∈ tuples, tuple.length = r.primaryKey.length)

namespace KeySet

variable {r : RecordType}

instance : Inhabited (KeySet r) := ⟨empty⟩

/-! ### Making sets -/

/-- The first values of keys, each once. -/
def firstValues (keys : List (Key r)) : List Value :=
  distinct (keys.filterMap (·.values.head?))

/-- The tuples of keys, as the hash set of them lists them. -/
def hashed (order : HashOrder) (keys : List (Key r)) : List (List Value) :=
  order.arrange (distinct (keys.map (·.values)))

theorem nodup_hashed (order : HashOrder) (keys : List (Key r)) : (hashed order keys).Nodup :=
  (order.perm _).nodup_iff.mpr (nodup_distinct _)

theorem mem_hashed {order : HashOrder} {keys : List (Key r)} {tuple : List Value} :
    tuple ∈ hashed order keys ↔ ∃ key ∈ keys, key.values = tuple := by
  rw [hashed, (order.perm _).mem_iff, mem_distinct, List.mem_map]

theorem widths_hashed (order : HashOrder) (keys : List (Key r)) :
    ∀ tuple ∈ hashed order keys, tuple.length = r.primaryKey.length := by
  intro tuple h
  obtain ⟨key, -, rfl⟩ := mem_hashed.mp h
  exact key.width

/-- Where there is a key, there is a key field. -/
theorem width_of_firstValues {keys : List (Key r)} (hwidth : ¬ 1 < r.primaryKey.length)
    (h : firstValues keys ≠ []) : r.primaryKey.length = 1 := by
  obtain ⟨v, hv⟩ := List.exists_mem_of_ne_nil _ h
  obtain ⟨key, -, hhead⟩ := List.mem_filterMap.mp (mem_distinct.mp hv)
  have hne : key.values ≠ [] := fun hnil => by
    rw [hnil] at hhead
    cases hhead
  have hpos : 0 < key.values.length := List.length_pos_iff.mpr hne
  rw [key.width] at hpos
  omega

/-- The set of the keys of a list. -/
def ofKeys (keys : List (Key r)) (order : HashOrder := .firstMention) : KeySet r :=
  if width : 1 < r.primaryKey.length then
    if filled : hashed order keys = [] then .empty
    else .multi width (hashed order keys) filled (nodup_hashed _ _) (widths_hashed _ _)
  else
    if filled : firstValues keys = [] then .empty
    else .single (width_of_firstValues width filled) (firstValues keys) filled (nodup_distinct _)

/-- The set of keys with these values. -/
def ofValues (r : RecordType) (tuples : List (List Value)) (order : HashOrder := .firstMention) :
    Except StoreError (KeySet r) := do
  r.requireKey
  return ofKeys (← tuples.mapM (Key.ofValues r)) order

/-! ### Using sets -/

/-- The number of keys. -/
def size : KeySet r → Nat
  | empty => 0
  | single _ values _ _ => values.length
  | multi _ tuples _ _ _ => tuples.length

/-- There is no key. -/
def isEmpty (s : KeySet r) : Bool := s.size == 0

/-- The values of the members, in the order in which the set lists them. -/
def tuples : KeySet r → List (List Value)
  | empty => []
  | single _ values _ _ => values.map ([·])
  | multi _ tuples _ _ _ => tuples

/-- The keys that the members are, in the order in which the set lists them. -/
def keys (s : KeySet r) : List (Key r) :=
  s.tuples.filterMap fun values => (Key.ofValues r values).toOption

/-- The key is in the set. -/
def contains (s : KeySet r) (k : Key r) : Bool :=
  match s with
  | empty => false
  | single _ values _ _ => k.values.head?.any values.contains
  | multi _ tuples _ _ _ => tuples.contains k.values

/-- The set cut into sets of at most so many keys. -/
def chunks (s : KeySet r) (max : Nat) (order : HashOrder := .firstMention) : List (KeySet r) :=
  (RecordStore.chunks max s.keys).map (ofKeys · order)

/-- The condition that a row has one of the keys. -/
def rowCondition : KeySet r → Expr
  | empty => .any []
  | single _ values _ _ => .inValues false (.col r r.primaryKey[0]) values
  | multi _ tuples _ _ _ => .any (tuples.map r.keyCondition)

/-- The query of the rows with the keys. -/
def select (s : KeySet r) : Select := { record := r, filter := some s.rowCondition }

/-- A set of keys to look at. -/
def inspect (s : KeySet r) : String := "KeySet<" ++ r.name ++ ">(" ++ toString s.size ++ " keys)"

end KeySet

end RecordStore
