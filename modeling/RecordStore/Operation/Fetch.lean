import RecordStore.Key.Set
import RecordStore.Operation.Reading
import RecordStore.Operation.Strategy
import RecordStore.Value.Conversion

/-! # Reading many records

A query of records runs as it is (`Reading.direct`), or in two steps: the keys of its rows are asked
for, and then the records of those keys that the cache does not hold, in batches
(`Reading.withCache`).  The list of keys may itself be cached under the digest of its query
(`Reading.withKeys`). -/

namespace RecordStore

/-- The category of lists of keys. -/
def Lifetime.category : Lifetime → CacheCategory
  | short => .shortKeys
  | long => .longKeys

namespace Reading

variable {σ : Type} (conn : Connection σ)

/-- Refuses a query that does not return all fields of records of the type. -/
def requireRecords (r : RecordType) (s : Select) : Reading σ Unit := do
  if !s.record.sameAs r then throw (.configuration (.foreignSelect s.record.name r.name))
  if s.selection != .fields then throw (.configuration (.partialSelect s.record.name))

/-- The number of rows of a query. -/
def countRows (r : RecordType) (s : Select) : Reading σ Nat := do
  requireRecords r s
  let statement ← compile conn s.count
  let rows ← query conn statement
  match (rows.head?.bind List.head?).bind Value.toInteger? with
  | some n => return n.toInt.toNat
  | none => throw (.driver "COUNT(*) returned no integer" statement.sql)

variable (α : Type) [Record α]

/-- The records of a query as the database returns them. -/
def direct (s : Select) : Reading σ (List α) := do
  requireRecords (Record.type α) s
  let statement ← compile conn s
  let rows ← query conn statement
  count fun st => { st with uncachedRecords := st.uncachedRecords + rows.length }
  records s.outputFields rows

/-- The keys of the rows of a query for keys, in the form in which records give them back. -/
def queryKeys (statement : CompiledStatement) : Reading σ (List (List Value)) := do
  let rows ← query conn statement
  ofExcept (rows.mapM (Record.normalizeKey α))

/-- Records by their keys, the last found first. -/
abbrev Found := List (List Value × α)

/-- Divides keys into those whose records are cached and the rest. -/
def divide : List (List Value) → Reading σ (Found α × List (List Value))
  | [] => return ([], [])
  | key :: keys => do
    match ← (cachedRecord key : Reading σ (Option α)) with
    | some record => do
      count fun s => { s with cachedRecords := s.cachedRecords + 1 }
      let (found, missing) ← divide keys
      return ((key, record) :: found, missing)
    | none => do
      let (found, missing) ← divide keys
      return (found, key :: missing)

/-- Caches loaded records under their keys and adds them to what was found. -/
def collect (found : Found α) : List α → Reading σ (Found α)
  | [] => return found
  | record :: rest => do
    let key ← ofExcept (Record.keyValues record)
    storeRecord key record
    count fun s => { s with uncachedRecords := s.uncachedRecords + 1 }
    collect ((key, record) :: found) rest

/-- Loads the records of a set of keys with one query. -/
def loadBatch (found : Found α) (batch : KeySet (Record.type α)) : Reading σ (Found α) := do
  let statement ← compile conn batch.select
  let rows ← query conn statement
  collect α found (← records (Record.type α).fieldNames rows)

/-- Loads the records of missing keys in batches. -/
def loadMissing (batchSize : Nat) (found : Found α) (missing : List (List Value)) :
    Reading σ (Found α) := do
  if missing.isEmpty then
    count fun s => { s with cachedQueries := s.cachedQueries + 1 }
    return found
  let order ← hashOrder conn
  let keys ← ofExcept (KeySet.ofValues (Record.type α) missing order)
  (keys.chunks batchSize order).foldlM (loadBatch conn α) found

/-- The records of a list of keys in its order.  A key without a record is left out. -/
def fetchByKeys (batchSize : Nat) (keys : List (List Value)) : Reading σ (List α) := do
  let (found, missing) ← divide α (distinct keys)
  let found ← loadMissing conn α batchSize found missing
  return keys.filterMap fun key => List.lookup key found

/-- The records of a query by their keys, those in the cache from there. -/
def withCache (batchSize : Nat) (s : Select) : Reading σ (List α) := do
  requireRecords (Record.type α) s
  ofExcept s.requireKeyFetch
  let statement ← compile conn s.keysOnly
  let keys ← queryKeys conn α statement
  fetchByKeys conn α batchSize keys

/-- The list of keys of a query, from the cache if it is there; a list that is asked for is cached
for the lifetime. -/
def keyList (statement : CompiledStatement) (lifetime : Lifetime) :
    Reading σ (List (List Value)) := do
  let address := CacheAddress.ofKeyList (Record.type α) statement
  match ← lookupAt address with
  | some (.keys keys) => do
    count fun s => { s with cachedQueries := s.cachedQueries + 1 }
    return keys
  | some (.row _) | none => do
    let keys ← queryKeys conn α statement
    modifyCache (·.storeAt address (.keys keys) lifetime.category)
    return keys

/-- The records of a query by their keys, the list of keys from the cache if it is there. -/
def withKeys (batchSize : Nat) (s : Select) (lifetime : Lifetime := .short) :
    Reading σ (List α) := do
  requireRecords (Record.type α) s
  ofExcept s.requireKeyFetch
  let statement ← compile conn s.keysOnly
  let keys ← keyList conn α statement lifetime
  fetchByKeys conn α batchSize keys

/-- The records of a query, read in the given way. -/
def fetch (batchSize : Nat) (s : Select) : Execution → Reading σ (List α)
  | .direct => direct conn α s
  | .keyThenFetch => withCache conn α batchSize s
  | .keyList lifetime => withKeys conn α batchSize s lifetime

end Reading

end RecordStore
