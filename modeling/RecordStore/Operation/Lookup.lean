import RecordStore.Operation.Reading

/-! # Reading one record

A record is looked up by its key or by a condition.  By key the cache is asked first, unless no row
can have the key yet; what the database returns is cached under the key of the returned record. -/

namespace RecordStore

/-- What identifies the record that is looked up. -/
inductive LookupTarget (r : RecordType) where
  | key (k : Key r)
  | condition (e : Expr)

namespace LookupTarget

variable {r : RecordType}

/-- The query of the record. -/
def select : LookupTarget r → Select
  | key k => k.select
  | condition e => { record := r, filter := some e, limit := some ⟨1, none⟩ }

/-- The key to ask the cache for. -/
def cacheKey? : LookupTarget r → Option (List Value)
  | key k => if k.isAbsent then none else some k.values
  | condition _ => none

end LookupTarget

namespace Reading

variable {σ : Type} (conn : Connection σ) {α : Type} [Record α]

/-- Caches a record that was loaded under its own key, unless that is absent. -/
def rememberRecord (record : α) : Reading σ Unit := do
  if ← hasCache then
    let key ← ofExcept (Record.keyValues record)
    if !isAbsentKey key then storeRecord key record

/-- The record as the database has it. -/
def loadRecord (usesCache : Bool) (target : LookupTarget (Record.type α)) :
    Reading σ (Option α) := do
  let statement ← compile conn target.select
  let rows ← query conn statement
  let loaded : List α ← records (Record.type α).fieldNames rows
  match loaded.head? with
  | none => return none
  | some record => do
    count fun s => { s with uncachedRecords := s.uncachedRecords + 1 }
    if usesCache then rememberRecord record
    return some record

/-- The record that the cache has for a target, if it may be used. -/
def cachedTarget (usesCache : Bool) (target : LookupTarget (Record.type α)) :
    Reading σ (Option α) :=
  match target.cacheKey? with
  | some key => if usesCache then cachedRecord key else return none
  | none => return none

/-- The cached record, or else the record as the database has it. -/
def orLoad (usesCache : Bool) (target : LookupTarget (Record.type α)) :
    Option α → Reading σ (Option α)
  | some record => do
    count fun s => { s with
      cachedRecords := s.cachedRecords + 1
      cachedQueries := s.cachedQueries + 1 }
    return some record
  | none => loadRecord conn usesCache target

/-- At most one record, from the cache if it may be used. -/
def lookup (useCache : Bool) (target : LookupTarget (Record.type α)) : Reading σ (Option α) := do
  let usesCache := useCache && (Record.type α).isCacheable
  orLoad conn usesCache target (← cachedTarget usesCache target)

end Reading

end RecordStore
