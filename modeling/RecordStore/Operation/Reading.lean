import RecordStore.Cache.Memory
import RecordStore.Compiler
import RecordStore.Connection
import RecordStore.Key.Basic

/-! # Steps of reading

Reading goes on over a connection, a cache that may be missing, and a count of what it cost.  All
three keep what happened when a step fails. -/

namespace RecordStore

/-- What reading cost. -/
structure ReadStats where
  /-- Records from the cache. -/
  cachedRecords : Nat := 0
  /-- Records from the database. -/
  uncachedRecords : Nat := 0
  /-- Steps that needed no query. -/
  cachedQueries : Nat := 0
  /-- Queries that the database answered. -/
  uncachedQueries : Nat := 0
deriving DecidableEq

/-- What reading goes on over. -/
structure ReadState (σ : Type) where
  connection : σ
  cache : Option MemoryCache
  stats : ReadStats := {}

/-- A step of reading. -/
abbrev Reading (σ : Type) := EStateM StoreError (ReadState σ)

namespace Reading

variable {σ : Type}

/-- Adds to the count of what reading cost. -/
def count (f : ReadStats → ReadStats) : Reading σ Unit :=
  modify fun st => { st with stats := f st.stats }

/-- Changes the cache, if there is one. -/
def modifyCache (f : MemoryCache → MemoryCache) : Reading σ Unit :=
  modify fun st => { st with cache := st.cache.map f }

/-- There is a cache. -/
def hasCache : Reading σ Bool := return (← get).cache.isSome

/-- The value at an address of the cache, if there is a cache. -/
def lookupAt (a : CacheAddress) : Reading σ (Option CacheValue) := fun st =>
  match st.cache with
  | none => .ok none st
  | some cache => .ok (cache.lookupAt a).1 { st with cache := some (cache.lookupAt a).2 }

/-- The answer of the database to a query. -/
def query (conn : Connection σ) (statement : CompiledStatement) : Reading σ (List (List Value)) :=
  fun st =>
    match conn.query statement st.connection with
    | (.ok rows, connection) =>
      .ok rows { st with
        connection
        stats := { st.stats with uncachedQueries := st.stats.uncachedQueries + 1 } }
    | (.error e, connection) => .error e { st with connection }

/-- How hash sets list their members at this time. -/
def hashOrder (conn : Connection σ) : Reading σ HashOrder :=
  return conn.hashOrder (← get).connection

/-- A query in the words of the database. -/
def compile (conn : Connection σ) (s : Select) : Reading σ CompiledStatement :=
  ofExcept (StoreError.lift (s.compile conn.dialect))

variable {α : Type} [Record α]

/-- The cached record under a key.  An entry that cannot be read as a record is removed. -/
def cachedRecord (key : List Value) : Reading σ (Option α) := do
  let address := CacheAddress.ofRow (Record.type α) key
  match ← lookupAt address with
  | some (.row values) =>
    match (Record.ofValues (Record.type α).fieldNames values : Except StatementError α) with
    | .ok record => return some record
    | .error _ => do
      modifyCache (·.removeAt address)
      return none
  | some (.keys _) | none => return none

/-- Caches a record under a key. -/
def storeRecord (key : List Value) (record : α) : Reading σ Unit := do
  if ← hasCache then
    let values ← ofExcept (StoreError.lift (Record.toValues record))
    modifyCache (·.storeAt (.ofRow (Record.type α) key) (.row values) .record)

/-- The records of rows. -/
def records (fields : List String) (rows : List (List Value)) : Reading σ (List α) :=
  ofExcept (rows.mapM fun row => StoreError.lift (Record.ofValues fields row))

end Reading

end RecordStore
