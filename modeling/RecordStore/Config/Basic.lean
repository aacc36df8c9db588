import RecordStore.Dialect

/-! # Settings of a repository -/

namespace RecordStore

/-- Settings of the cache.  Times are in seconds; zero means that entries do not expire. -/
structure CacheConfig where
  enabled : Bool := true
  maxEntriesPerBin : Nat := 10000
  recordTtl : Nat := 300
  shortTtl : Nat := 30
  longTtl : Nat := 600
deriving DecidableEq

/-- Settings of a repository. -/
structure Config where
  dialect : Dialect := .sqlite
  /-- The greatest number of keys in one query; without it the dialect decides. -/
  maxBatchSize : Option Nat := none
  cache : CacheConfig := {}
deriving DecidableEq

/-- The number of keys in one query for a dialect, at least one. -/
def Config.batchSize (c : Config) (dialect : Dialect) : Nat :=
  max (c.maxBatchSize.getD dialect.maxInList) 1

end RecordStore
