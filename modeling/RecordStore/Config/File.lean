import RecordStore.Config.Basic
import RecordStore.StoreError
import RecordStore.Toml.Document

/-! # Settings in a file

Settings are the entries of a TOML document; those that are missing have their defaults, and keys
that are not settings do not matter.  A setting of the wrong type is as bad as a malformed document.
The settings of the cache are a table of their own, or the array of their values in order; the
dialect is given by its name, or by a table with that name as its only key. -/

namespace RecordStore

open Toml (Table)

/-! ### Values of settings -/

namespace Toml

/-- A number that is not negative. -/
def Value.toNat? : Value → Option Nat
  | .integer n => if 0 ≤ n then some n.toNat else none
  | _ => none

/-- A truth value. -/
def Value.toBool? : Value → Option Bool
  | .boolean b => some b
  | _ => none

/-- An array or a table without content. -/
def Value.isVoid : Value → Bool
  | .array items => items.isEmpty
  | .table _ entries => entries.isEmpty
  | _ => false

/-- A setting of a table, or its default. -/
def Table.setting {α : Type} (t : Table) (key : String) (read : Value → Option α) (default : α) :
    Option α :=
  match t.lookup key with
  | some v => read v
  | none => some default

end Toml

/-- The dialect of this name in lower case. -/
def Dialect.named? (name : String) : Option Dialect :=
  [generic, sqlite, postgres, mysql].find? (·.name = name)

/-- The dialect that a value names. -/
def Dialect.ofToml? : Toml.Value → Option Dialect
  | .string s => Dialect.named? s
  | .table _ [(name, v)] => if v.isVoid then Dialect.named? name else none
  | _ => none

/-! ### Settings -/

namespace CacheConfig

/-- The keys of the settings in their order. -/
def keys : List String :=
  ["enabled", "max_entries_per_bin", "record_ttl_secs", "short_ttl_secs", "long_ttl_secs"]

/-- The settings of a table. -/
def ofTable? (t : Table) : Option CacheConfig := do
  let base : CacheConfig := {}
  let enabled ← t.setting "enabled" Toml.Value.toBool? base.enabled
  let maxEntriesPerBin ← t.setting "max_entries_per_bin" Toml.Value.toNat? base.maxEntriesPerBin
  let recordTtl ← t.setting "record_ttl_secs" Toml.Value.toNat? base.recordTtl
  let shortTtl ← t.setting "short_ttl_secs" Toml.Value.toNat? base.shortTtl
  let longTtl ← t.setting "long_ttl_secs" Toml.Value.toNat? base.longTtl
  some { enabled, maxEntriesPerBin, recordTtl, shortTtl, longTtl }

/-- The settings of a value.  A moment counts as a table of which no key is a setting. -/
def ofToml? : Toml.Value → Option CacheConfig
  | .table _ entries => ofTable? entries
  | .array items => ofTable? (keys.zip items)
  | .moment => ofTable? []
  | _ => none

end CacheConfig

namespace Config

/-- The settings of a table. -/
def ofTable? (t : Table) : Option Config := do
  let base : Config := {}
  let dialect ← t.setting "dialect" Dialect.ofToml? base.dialect
  let maxBatchSize ← t.setting "max_batch_size" (fun v => v.toNat?.map some) base.maxBatchSize
  let cache ← t.setting "cache" CacheConfig.ofToml? base.cache
  some { dialect, maxBatchSize, cache }

/-- The settings that the text of a file gives. -/
def parse (text : String) : Except StoreError Config :=
  match (Table.parse? text).bind ofTable? with
  | none => .error .configFile
  | some config =>
    if config.maxBatchSize = some 0 then .error (.configuration .zeroBatchSize) else .ok config

end Config

end RecordStore
