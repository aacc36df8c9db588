import RecordStore.Cache.Memory
import RecordStore.Key.Set

/-! # Evicting what a write changes

A directive says which records a write may change.  Applying it to a cache removes the rows it
covers, and all key lists of the record type, since any write may change which rows a query
finds. -/

namespace RecordStore

/-- Rows that are named by their keys. -/
inductive Target where
  | key (r : RecordType) (k : Key r)
  | keys (r : RecordType) (s : KeySet r)

/-- The rows that a write may change. -/
inductive Directive where
  | rows (target : Target)
  /-- Any row of a record type. -/
  | allRecords (r : RecordType)

namespace Target

/-- The record type of the rows. -/
def record : Target → RecordType
  | key r _ => r
  | keys r _ => r

/-- The keys of the rows. -/
def tuples : Target → List (List Value)
  | key _ k => [k.values]
  | keys _ s => s.tuples

/-- The condition that a row is one of the rows. -/
def condition : Target → Except StoreError Expr
  | key _ k => .ok k.condition
  | keys r s => do
    r.requireKey
    return s.rowCondition

end Target

namespace MemoryCache

/-- Removes all key lists of a record type and counts them. -/
def evictKeyLists (c : MemoryCache) (r : RecordType) : Nat × MemoryCache :=
  let keys := c.enumerate r.keyListBin
  (keys.length, c.removeAll r.keyListBin keys)

/-- Removes the rows of a record type with these keys and all its key lists, and counts the keys and
the lists. -/
def evict (c : MemoryCache) (r : RecordType) (keys : List (List Value)) : Nat × MemoryCache :=
  let (lists, c) := (c.removeAll r.rowBin keys).evictKeyLists r
  (keys.length + lists, c)

end MemoryCache

namespace Directive

/-- The record type whose rows may change. -/
def record : Directive → RecordType
  | rows target => target.record
  | allRecords r => r

/-- Refuses to stand guard over a write to another record type. -/
def validate (d : Directive) (target : RecordType) : Except StoreError Unit :=
  if d.record.sameAs target then .ok ()
  else .error (.configuration (.foreignGuard d.record.name target.name))

/-- Evicts what the directive covers, and counts. -/
def apply (d : Directive) (c : MemoryCache) : Nat × MemoryCache :=
  match d with
  | rows target => c.evict target.record target.tuples
  | allRecords r => c.evict r (c.enumerate r.rowBin)

end Directive

end RecordStore
