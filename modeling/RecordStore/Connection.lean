import RecordStore.Key.Set
import RecordStore.Sql.Compiled

/-! # Connections to a database

A connection answers queries, runs writes and tells the key that the database gave to the last
inserted row.  It is anything that does so over a state of its own, which every call may change,
also one that fails.  With it goes the other thing that is not settled by what is asked: the order
in which hash sets list their members. -/

namespace RecordStore

/-- A database with state `σ`. -/
structure Connection (σ : Type) where
  dialect : Dialect
  /-- The rows of a query, each with one value for every result column. -/
  query : CompiledStatement → σ → Except StoreError (List (List Value)) × σ
  /-- The number of rows that a write affected. -/
  execute : CompiledStatement → σ → Except StoreError Nat × σ
  /-- The key of the last inserted row, if the database chose one. -/
  lastGeneratedKey : σ → Except StoreError (Option Value) × σ
  /-- How the hash sets that are made in a state list their members. -/
  hashOrder : σ → HashOrder := fun _ => .firstMention

end RecordStore
