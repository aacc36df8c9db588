import RecordStore.Select
import RecordStore.StoreError

/-! # Strategies for reading

A caller asks for a strategy; what runs depends on the query and on whether reads are cached
(`Strategy.resolve`).  Reading keys first needs a table, a primary key and fields as they are
stored (`Select.requireKeyFetch_eq_ok`). -/

namespace RecordStore

/-- How a caller wants records to be read. -/
inductive Strategy where
  /-- As the query says. -/
  | bypass
  /-- Through the cache where the records allow it. -/
  | bestEffort
  /-- Keys first, the list of keys cached for a short time. -/
  | shortKeyList
  /-- Keys first, the list of keys cached for a long time. -/
  | longKeyList
  /-- Keys first, the list of keys not cached. -/
  | keyThenFetch
  /-- The whole result; it runs as the query says. -/
  | wholeResult
deriving DecidableEq

instance : Inhabited Strategy := ⟨.bestEffort⟩

/-- How long a list of keys is cached. -/
inductive Lifetime where
  | short
  | long
deriving DecidableEq

/-- How records are read. -/
inductive Execution where
  | direct
  | keyThenFetch
  | keyList (lifetime : Lifetime)
deriving DecidableEq

/-- Refuses a query whose records cannot be read by key first. -/
def Select.requireKeyFetch (s : Select) : Except StoreError Unit :=
  let refuse (obstacle : KeyFetchObstacle) : Except StoreError Unit :=
    .error (.configuration (.keyFetch s.record.name obstacle))
  if s.record.isComputed then refuse .computed
  else if !s.record.hasKey then refuse .noKey
  else if s.usesOverrides then refuse .overrides
  else .ok ()

/-- A query can be read by key where its record type has a table and a key and nothing is
overridden. -/
theorem Select.requireKeyFetch_eq_ok {s : Select} : s.requireKeyFetch = .ok () ↔
    s.record.isComputed = false ∧ s.record.hasKey = true ∧ s.usesOverrides = false := by
  unfold requireKeyFetch
  cases s.record.isComputed <;> cases s.record.hasKey <;> cases s.usesOverrides <;> simp

namespace Strategy

/-- The strategy of a name, in any case of its letters. -/
def ofName (name : String) : Except StoreError Strategy :=
  let lower := name.toLower
  if lower = "bypass" then .ok bypass
  else if lower = "best_effort" then .ok bestEffort
  else if lower = "key_cache_short_ttl" then .ok shortKeyList
  else if lower = "key_cache_long_ttl" then .ok longKeyList
  else if lower = "key_then_fetch" then .ok keyThenFetch
  else if lower = "whole_result" then .ok wholeResult
  else .error (.configuration (.unknownStrategy lower))

/-- The strategy insists on reading keys first. -/
def insistsOnKeys : Strategy → Bool
  | shortKeyList | longKeyList | keyThenFetch => true
  | bypass | bestEffort | wholeResult => false

/-- How a strategy runs while reads are cached. -/
def execution : Strategy → Execution
  | bypass | wholeResult => .direct
  | bestEffort | shortKeyList => .keyList .short
  | longKeyList => .keyList .long
  | keyThenFetch => .keyThenFetch

/-- How a query is read.  A strategy that insists on keys is refused for a query that cannot be read
by key, whether or not reads are cached; best effort gives way. -/
def resolve (strategy : Strategy) (s : Select) (cachingEnabled : Bool) :
    Except StoreError Execution :=
  match s.requireKeyFetch with
  | .error e =>
    if strategy.insistsOnKeys then .error e else .ok .direct
  | .ok () => .ok (if cachingEnabled then strategy.execution else .direct)

/-- A query is read by its keys only if it can be, while reads are cached, and if the strategy reads
keys first. -/
theorem of_resolve {strategy : Strategy} {s : Select} {cachingEnabled : Bool} {e : Execution}
    (h : strategy.resolve s cachingEnabled = .ok e) (he : e ≠ .direct) :
    s.requireKeyFetch = .ok () ∧ cachingEnabled = true ∧ strategy.execution = e := by
  unfold resolve at h
  split at h
  · split at h
    · cases h
    · cases h
      exact absurd rfl he
  · next hkeyFetch =>
    cases cachingEnabled with
    | true =>
      cases h
      exact ⟨hkeyFetch, rfl, rfl⟩
    | false =>
      cases h
      exact absurd rfl he

end Strategy

end RecordStore
