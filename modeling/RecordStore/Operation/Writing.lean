import RecordStore.Compiler
import RecordStore.Connection
import RecordStore.Invalidation

/-! # Writing

A write runs its statement first and touches the cache only after the statement succeeded; then it
evicts what the write may have changed.  An insertion reads back the key that the database chose and
caches the new record under it. -/

namespace RecordStore

/-- What writing cost. -/
structure WriteStats where
  statements : Nat := 0
  rowsAffected : Nat := 0
  /-- Entries evicted from the cache. -/
  invalidations : Nat := 0
deriving DecidableEq

/-- What writing goes on over. -/
structure WriteState (σ : Type) where
  connection : σ
  cache : Option MemoryCache
  stats : WriteStats := {}

/-- A step of writing. -/
abbrev Writing (σ : Type) := EStateM StoreError (WriteState σ)

/-- A write under which the record in the caller's hands may change. -/
abbrev RecordWriting (σ α : Type) := EStateM StoreError (WriteState σ × α)

namespace Writing

variable {σ : Type} (conn : Connection σ)

/-- Sends a statement to the database and returns the number of affected rows. -/
def run (s : Statement) : Writing σ Nat := fun st =>
  match StoreError.lift (compile conn.dialect s) with
  | .error e => .error e st
  | .ok compiled =>
    match conn.execute compiled st.connection with
    | (.ok affected, connection) =>
      .ok affected { st with
        connection
        stats := { st.stats with
          statements := st.stats.statements + 1
          rowsAffected := st.stats.rowsAffected + affected } }
    | (.error e, connection) => .error e { st with connection }

/-- Evicts entries from the cache, if there is one, and counts them. -/
def evict (f : MemoryCache → Nat × MemoryCache) : Writing σ Unit :=
  modify fun st =>
    match st.cache with
    | none => st
    | some cache =>
      { st with
        cache := some (f cache).2
        stats := { st.stats with invalidations := st.stats.invalidations + (f cache).1 } }

/-- Changes the rows that meet a condition and applies the directive. -/
def updateMatching (r : RecordType) (assignments : List FieldExpr) (condition : Expr)
    (guard : Directive) : Writing σ Nat := do
  ofExcept (guard.validate r)
  let affected ← run conn (.update ⟨r, assignments, some condition⟩)
  evict guard.apply
  return affected

/-- Removes the rows that meet a condition and applies the directive. -/
def deleteMatching (r : RecordType) (condition : Expr) (guard : Directive) : Writing σ Nat := do
  ofExcept (guard.validate r)
  let affected ← run conn (.delete ⟨r, some condition⟩)
  evict guard.apply
  return affected

/-- Creates an index. -/
def createIndex (i : CreateIndex) : Writing σ Nat := run conn (.createIndex i)

/-- Drops an index. -/
def dropIndex (i : DropIndex) : Writing σ Nat := run conn (.dropIndex i)

variable {α : Type} [Record α]

/-- Changes the row of a record to the record's values. -/
def updateRecord (record : α) : Writing σ Nat := do
  match ← ofExcept (Record.key record) with
  | none => throw (.configuration (.updateWithoutKey (Record.type α).name))
  | some key => do
    let update ← ofExcept (StoreError.lift (Update.ofRecord record))
    let affected ← run conn (.update update)
    evict (Directive.rows (.key _ key)).apply
    return affected

end Writing

namespace RecordWriting

variable {σ : Type} (conn : Connection σ) {α : Type} [Record α]

/-- A step that leaves the record alone. -/
def lift {β : Type} (w : Writing σ β) : RecordWriting σ α β := fun (st, record) =>
  match w st with
  | .ok b st => .ok b (st, record)
  | .error e st => .error e (st, record)

/-- The key that the database gave to the last inserted row. -/
def lastGeneratedKey : RecordWriting σ α (Option Value) := fun (st, record) =>
  match conn.lastGeneratedKey st.connection with
  | (.ok v, connection) => .ok v ({ st with connection }, record)
  | (.error e, connection) => .error e ({ st with connection }, record)

/-- The record leaves its only key field to the database. -/
def awaitsKey (record : α) : Except StoreError (Option String) := do
  match (Record.type α).primaryKey with
  | [name] =>
    let field ← StoreError.lift ((Record.type α).field name)
    if !field.isGenerated then return none
    let v ← StoreError.lift (Record.get record name)
    return if v.isUnset then some name else none
  | _ => return none

/-- Sets the key that the database chose on the record. -/
def assignGeneratedKey : RecordWriting σ α Unit := do
  match ← ofExcept (awaitsKey (← get).2) with
  | none => return
  | some name =>
    match ← lastGeneratedKey conn with
    | none => return
    | some v => do
      let (st, record) ← get
      let record ← ofExcept (StoreError.lift (Record.set record name v))
      set (st, record)

/-- Caches the record under its key, unless that is absent. -/
def rememberRecord : RecordWriting σ α Unit := do
  let (st, record) ← get
  match ← ofExcept (Record.key record) with
  | none => return
  | some key => do
    let values ← ofExcept (StoreError.lift (Record.toValues record))
    let address := CacheAddress.ofRow (Record.type α) key.values
    let cache := st.cache.map fun (c : MemoryCache) => c.storeAt address (.row values) .record
    set ({ st with cache }, record)

/-- Removes the key lists of the record's type and caches the record, if there is a cache and it may
hold records of the type. -/
def cacheInserted : RecordWriting σ α Unit := do
  if (← get).1.cache.isSome && (Record.type α).isCacheable then
    lift (Writing.evict (·.evictKeyLists (Record.type α)))
    rememberRecord

/-- Inserts the record and sets the key that the database chose. -/
def sendInsert : RecordWriting σ α Nat := do
  let insert ← ofExcept (StoreError.lift (Insert.ofRecord (← get).2))
  let affected ← lift (Writing.run conn (.insert insert))
  assignGeneratedKey conn
  return affected

/-- Inserts the record and caches it under the key that it has then. -/
def insertRecord : RecordWriting σ α Nat := do
  let affected ← sendInsert conn
  cacheInserted
  return affected

end RecordWriting

end RecordStore
