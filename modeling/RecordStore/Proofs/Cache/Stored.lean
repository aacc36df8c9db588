import RecordStore.Compiler
import RecordStore.Key.Basic
import RecordStore.Operation.Strategy
import RecordStore.Proofs.Cache.Steps
import RecordStore.Proofs.Record.Laws

/-! # What is stored

Two kinds of values are stored in a cache: a record, under its own key (`StoresRow`), and the keys
of a query that may be read by key, under the digest of the query for keys (`StoresKeyList`).  Which
records a step stores is said by `StoresRowOf`, and in which form it stores keys by
`Record.ListsKeys`. -/

namespace RecordStore

/-- A record of the type, under its own key. -/
def StoresRow (α : Type) [Record α] : Storable := fun a value =>
  ∃ (record : α) (key values : List Value), Record.keyValues record = .ok key ∧
    Record.toValues record = .ok values ∧ a = .ofRow (Record.type α) key ∧ value = .row values

/-- A record of this kind, under its own key. -/
def StoresRowOf {α : Type} [Record α] (P : α → Prop) : Storable := fun a value =>
  ∃ (record : α) (key values : List Value), P record ∧ Record.keyValues record = .ok key ∧
    Record.toValues record = .ok values ∧ a = .ofRow (Record.type α) key ∧ value = .row values

/-- The record has a key that a row can have. -/
def Record.Identified {α : Type} [Record α] (record : α) : Prop :=
  ∃ key, Record.keyValues record = .ok key ∧ isAbsentKey key = false

theorem StoresRow.of_rowOf {α : Type} [Record α] {P : α → Prop} {a : CacheAddress}
    {value : CacheValue} (h : StoresRowOf P a value) : StoresRow α a value := by
  obtain ⟨record, key, values, -, hrest⟩ := h
  exact ⟨record, key, values, hrest⟩

/-- A record under its own key, unless no row can have that. -/
abbrev StoresIdentified (α : Type) [Record α] : Storable :=
  StoresRowOf (Record.Identified : α → Prop)

namespace StoresRowOf

variable {α : Type} [Record α] {P Q : α → Prop} {a : CacheAddress} {value : CacheValue}

theorem mono (h : ∀ record, P record → Q record) (hstores : StoresRowOf P a value) :
    StoresRowOf Q a value := by
  obtain ⟨record, key, values, hP, hrest⟩ := hstores
  exact ⟨record, key, values, h record hP, hrest⟩

/-- A record with a key that a row can have is not stored under an absent key. -/
theorem isAbsentKey_eq (hstores : StoresIdentified α a value) :
    isAbsentKey a.key = false := by
  obtain ⟨record, key, values, ⟨key', hkey', habsent⟩, hkey, -, rfl, -⟩ := hstores
  rw [hkey] at hkey'
  cases hkey'
  exact habsent

end StoresRowOf

/-- The keys of the query, which can be read by key, under the digest of its query for keys. -/
def StoresKeyList (dialect : Dialect) (α : Type) [Record α] (s : Select) : Storable :=
  fun a value => ∃ (statement : CompiledStatement) (tuples : List (List Value)),
    s.record.sameAs (Record.type α) = true ∧ s.requireKeyFetch = .ok () ∧
    s.keysOnly.compile dialect = .ok statement ∧ a = .ofKeyList (Record.type α) statement ∧
    value = .keys tuples

/-- What reading the records of a query may store. -/
def ReadStores (dialect : Dialect) (α : Type) [Record α] (s : Select) : Storable := fun a value =>
  StoresRow α a value ∨ StoresKeyList dialect α s a value

/-- Records give the key back in this form. -/
def Record.TypedKey (α : Type) [Record α] (key : List Value) : Prop :=
  ∃ record : α, Record.MadeFrom Record.blank record ∧ Record.keyValues record = .ok key

/-- A list of keys in the form in which records give them back. -/
def Record.ListsKeys (α : Type) [Record α] (value : CacheValue) : Prop :=
  ∃ tuples, value = .keys tuples ∧ ∀ tuple ∈ tuples, Record.TypedKey α tuple

/-- What reading the records of a query may store: records as they were loaded, and the keys of the
query in their form. -/
def LoadStores (dialect : Dialect) (α : Type) [Record α] (s : Select) : Storable := fun a value =>
  StoresRowOf (Record.MadeFrom (Record.blank : α)) a value ∨
    (StoresKeyList dialect α s a value ∧ Record.ListsKeys α value)

theorem ReadStores.of_loads {dialect : Dialect} {α : Type} [Record α] {s : Select}
    {a : CacheAddress} {value : CacheValue} (h : LoadStores dialect α s a value) :
    ReadStores dialect α s a value := h.imp .of_rowOf And.left

namespace Record

variable {α : Type} [Record α] {record : α}

theorem TypedKey.of_normalizeKey {row key : List Value} (h : normalizeKey α row = .ok key) :
    TypedKey α key := by
  unfold normalizeKey at h
  obtain ⟨probe, hprobe, hkey⟩ := except_bind_eq_ok.mp h
  exact ⟨probe, ⟨_, lift_eq_ok.mp hprobe⟩, hkey⟩

/-- There is a value for each key field. -/
theorem length_of_keyValues {key : List Value} (h : keyValues record = .ok key) :
    key.length = (type α).primaryKey.length := by
  unfold keyValues at h
  obtain ⟨_, -, h⟩ := except_bind_eq_ok.mp h
  exact except_mapM_length (lift_eq_ok.mp h)

theorem TypedKey.length_eq {key : List Value} (h : TypedKey α key) :
    key.length = (type α).primaryKey.length :=
  h.elim fun _ hrecord => length_of_keyValues hrecord.2

end Record

/-- A query that can be read by key is one of a type whose records can be cached. -/
theorem Select.isCacheable_of_requireKeyFetch {s : Select} (h : s.requireKeyFetch = .ok ()) :
    s.record.isCacheable = true := by
  obtain ⟨hcomputed, hkey, -⟩ := requireKeyFetch_eq_ok.mp h
  unfold RecordType.isCacheable
  rw [hcomputed, hkey]
  rfl

end RecordStore
