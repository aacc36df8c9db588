import RecordStore.Record.Row
import RecordStore.Connection

/-! # A sample record type

Items with a number as their key and a name, a database that gives one answer to every query and one
that gives prepared answers in their order.  The general theorems are instantiated with these. -/

namespace RecordStore.Sample

/-- Items in a table of their own. -/
def schema : Schema where
  name := "Item"
  table := some "items"
  columns := [⟨.stored "id" "item_id", .integer, false⟩, ⟨.stored "name" "item_name", .text, false⟩]
  primaryKey := ["id"]

abbrev Item := Row schema

/-- The item of a number and a name. -/
def item (id : Int64) (name : String) : Item := ⟨[.integer id, .text name]⟩

/-- The key of an item. -/
def itemKey (id : Int64) : Key schema.type := ⟨[.integer id], rfl, rfl⟩

/-- A database that answers every query with these rows. -/
def database (rows : List (List Value)) : Connection Unit where
  dialect := .sqlite
  query _ st := (.ok rows, st)
  execute _ st := (.ok 1, st)
  lastGeneratedKey st := (.ok none, st)

/-- A database that answers queries with prepared rows, one answer after the other. -/
def script : Connection (List (List (List Value))) where
  dialect := .sqlite
  query _ answers := (.ok (answers.headD []), answers.tail)
  execute _ answers := (.ok 1, answers)
  lastGeneratedKey answers := (.ok none, answers)

end RecordStore.Sample
