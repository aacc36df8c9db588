import RecordStore.Cache.Digest
import RecordStore.Record.Type

/-! # Addresses of cached entries

The cache is divided into bins.  The rows of a record type are in the bin of its name, each under
its key; the key lists of queries on the type are in a bin of their own, each under the digest of
its query. -/

namespace RecordStore

/-- What the cache holds. -/
inductive CacheValue where
  /-- The values of all fields of a record. -/
  | row (values : List Value)
  /-- The keys of the rows of a query, in the order of the query. -/
  | keys (tuples : List (List Value))
deriving DecidableEq

/-- The place of an entry. -/
structure CacheAddress where
  bin : String
  key : List Value
deriving DecidableEq

/-- The bin of the rows of a record type. -/
def RecordType.rowBin (r : RecordType) : String := r.name

/-- The bin of the key lists of a record type. -/
def RecordType.keyListBin (r : RecordType) : String := r.name ++ "#keys"

/-- Rows and key lists of a type are in different bins. -/
theorem RecordType.rowBin_ne_keyListBin (r : RecordType) : r.rowBin ≠ r.keyListBin := by
  intro h
  have hlength := congrArg String.length h
  unfold rowBin keyListBin at hlength
  rw [String.length_append] at hlength
  exact absurd hlength (by simp)

/-- Records with a table and a primary key can be cached. -/
def RecordType.isCacheable (r : RecordType) : Bool := !r.isComputed && r.hasKey

namespace CacheAddress

/-- The place of the row with a key. -/
def ofRow (r : RecordType) (key : List Value) : CacheAddress := ⟨r.rowBin, key⟩

/-- The place of the key list of a query. -/
def ofKeyList (r : RecordType) (query : CompiledStatement) : CacheAddress :=
  ⟨r.keyListBin, [.text (Digest.ofStatement query)]⟩

end CacheAddress

end RecordStore
