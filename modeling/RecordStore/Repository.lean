import RecordStore.Config.Basic
import RecordStore.Operation.Fetch
import RecordStore.Operation.Lookup
import RecordStore.Operation.Writing

/-! # Repositories

A repository reads and writes records over one connection and, usually, a cache.  Reading through
the cache can be switched off; writes evict entries in any case, so that switching it on again
serves nothing that a write has changed. -/

namespace RecordStore

/-- Records over a database with state `σ`. -/
structure Repository (σ : Type) where
  connection : Connection σ
  state : σ
  cache : Option MemoryCache
  config : Config
  /-- Reads go through the cache. -/
  cachingEnabled : Bool
  lastRead : ReadStats := {}
  lastWrite : WriteStats := {}

namespace Repository

variable {σ : Type}

/-- A repository over a cache, or without one. -/
def build (connection : Connection σ) (state : σ) (config : Config) (cache : Option MemoryCache) :
    Repository σ where
  connection
  state
  cache
  config
  cachingEnabled := config.cache.enabled && cache.isSome

/-- A repository with a cache of its own if the settings enable caching. -/
def new (connection : Connection σ) (state : σ) (config : Config) : Repository σ :=
  build connection state config
    (if config.cache.enabled then some (.ofConfig config.cache) else none)

/-- A repository over an existing cache. -/
def withCache (connection : Connection σ) (state : σ) (config : Config) (cache : MemoryCache) :
    Repository σ :=
  build connection state config (some cache)

/-- A repository without a cache. -/
def withoutCache (connection : Connection σ) (state : σ) (config : Config) : Repository σ :=
  build connection state config none

/-- An operation of a repository. -/
abbrev Operation (σ : Type) := EStateM StoreError (Repository σ)

/-- The repository after reading. -/
def afterRead (repo : Repository σ) (st : ReadState σ) : Repository σ :=
  { repo with
    state := st.connection
    cache := if repo.cachingEnabled then st.cache else repo.cache
    lastRead := st.stats }

/-- The repository after writing. -/
def afterWrite (repo : Repository σ) (st : WriteState σ) : Repository σ :=
  { repo with
    state := st.connection
    cache := st.cache
    lastWrite := st.stats }

/-- Reads over the connection, and over the cache while caching is enabled. -/
def read {β : Type} (reading : Connection σ → Reading σ β) : Operation σ β := fun repo =>
  let cache := if repo.cachingEnabled then repo.cache else none
  match reading repo.connection ⟨repo.state, cache, {}⟩ with
  | .ok b st => .ok b (repo.afterRead st)
  | .error e st => .error e (repo.afterRead st)

/-- Writes over the connection and the cache. -/
def write (writing : Connection σ → Writing σ Nat) : Operation σ Nat := fun repo =>
  match writing repo.connection ⟨repo.state, repo.cache, {}⟩ with
  | .ok n st => .ok n (repo.afterWrite st)
  | .error e st => .error e (repo.afterWrite st)

/-! ### Reading -/

section

variable {α : Type} [Record α]

/-- The record with a key; bypassing, it is read from the database. -/
def get (key : Key (Record.type α)) (strategy : Strategy) : Operation σ (Option α) :=
  read fun conn => Reading.lookup conn (strategy ≠ .bypass) (.key key)

/-- The first record that meets a condition. -/
def findOne (α : Type) [Record α] (condition : Expr) : Operation σ (Option α) :=
  read fun conn => Reading.lookup conn true (.condition condition)

/-- The records of a query. -/
def find (α : Type) [Record α] (s : Select) (strategy : Strategy) : Operation σ (List α) := do
  let repo ← MonadState.get
  let execution ← ofExcept (strategy.resolve s repo.cachingEnabled)
  read fun conn => Reading.fetch conn α (repo.config.batchSize conn.dialect) s execution

/-- The number of records of a query. -/
def count (α : Type) [Record α] (s : Select) : Operation σ Nat :=
  read fun conn => Reading.countRows conn (Record.type α) s

/-! ### Writing -/

/-- Inserts a record and returns the number of affected rows; the record is returned in any case,
with the key that the database chose if it is known. -/
def insert (record : α) (repo : Repository σ) : EStateM.Result StoreError (Repository σ × α) Nat :=
  match RecordWriting.insertRecord repo.connection (⟨repo.state, repo.cache, {}⟩, record) with
  | .ok n (st, record) => .ok n (repo.afterWrite st, record)
  | .error e (st, record) => .error e (repo.afterWrite st, record)

/-- Changes the row of a record to the record's values. -/
def update (record : α) : Operation σ Nat := write fun conn => Writing.updateRecord conn record

end

/-- Changes the rows of a target. -/
def updateWhere (assignments : List FieldExpr) (target : Target) : Operation σ Nat := do
  let condition ← ofExcept target.condition
  write fun conn => Writing.updateMatching conn target.record assignments condition (.rows target)

/-- Changes the rows that meet a condition under the guard of a directive. -/
def updateMatching (r : RecordType) (assignments : List FieldExpr) (condition : Expr)
    (guard : Directive) : Operation σ Nat :=
  write fun conn => Writing.updateMatching conn r assignments condition guard

/-- Removes the rows of a target. -/
def deleteWhere (target : Target) : Operation σ Nat := do
  let condition ← ofExcept target.condition
  write fun conn => Writing.deleteMatching conn target.record condition (.rows target)

/-- Removes the row with a key. -/
def delete {r : RecordType} (key : Key r) : Operation σ Nat := deleteWhere (.key r key)

/-- Creates an index. -/
def createIndex (i : CreateIndex) : Operation σ Nat := write fun conn => Writing.createIndex conn i

/-- Drops an index. -/
def dropIndex (i : DropIndex) : Operation σ Nat := write fun conn => Writing.dropIndex conn i

/-- Switches reading through the cache on or off; without a cache it stays off. -/
def setCachingEnabled (enabled : Bool) (repo : Repository σ) : Repository σ :=
  { repo with cachingEnabled := enabled && repo.cache.isSome }

/-- Shuts the cache down. -/
def shutdown (repo : Repository σ) : Repository σ :=
  { repo with cache := repo.cache.map MemoryCache.shutdown }

end Repository

end RecordStore
