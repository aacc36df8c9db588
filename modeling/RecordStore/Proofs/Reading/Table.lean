import Mathlib.Data.List.Perm.Basic
import Mathlib.Data.List.Nodup
import RecordStore.Operation.Fetch
import RecordStore.Proofs.Cache.Stored
import RecordStore.Proofs.Key.Sets

/-! # Tables behind a connection

A table holds records under distinct keys.  A connection serves batches of keys from it when it
answers the query of every batch with the rows of exactly the records with these keys, in any order
(`Connection.Serves`).  Looking a key up in what such answers add up to is looking it up in the
table (`Table.lookup_answer`). -/

namespace RecordStore

/-! ### Lists of pairs with distinct keys -/

section

variable {κ ν : Type} [BEq κ] [LawfulBEq κ] {l l' : List (κ × ν)} {k : κ}

theorem mem_of_lookup_eq_some {v : ν} (h : l.lookup k = some v) : (k, v) ∈ l := by
  obtain ⟨l₁, l₂, rfl, -⟩ := List.lookup_eq_some_iff.mp h
  exact List.mem_append_right l₁ List.mem_cons_self

/-- Where no key occurs twice, looking up finds what is in the list. -/
theorem lookup_eq_some_iff_mem {v : ν} (h : (l.map (·.1)).Nodup) :
    l.lookup k = some v ↔ (k, v) ∈ l := by
  constructor
  · exact mem_of_lookup_eq_some
  · intro hmem
    obtain ⟨l₁, l₂, rfl⟩ := List.append_of_mem hmem
    refine List.lookup_eq_some_iff.mpr ⟨l₁, l₂, rfl, fun p hp => ?_⟩
    rw [List.map_append, List.map_cons, List.nodup_append] at h
    have hne := h.2.2 p.1 (List.mem_map_of_mem hp) k List.mem_cons_self
    exact bne_iff_ne.mpr hne.symm

/-- The order does not matter where no key occurs twice. -/
theorem lookup_perm (h : l.Perm l') (hnodup : (l.map (·.1)).Nodup) : l.lookup k = l'.lookup k := by
  have hnodup' : (l'.map (·.1)).Nodup := (h.map _).nodup_iff.mp hnodup
  refine Option.ext fun v => ?_
  rw [lookup_eq_some_iff_mem hnodup, lookup_eq_some_iff_mem hnodup', h.mem_iff]

/-- Looking up in a part of a list that is chosen by the keys. -/
theorem lookup_filter_keys (p : κ → Bool) (l : List (κ × ν)) (k : κ) :
    (l.filter fun q => p q.1).lookup k = if p k then l.lookup k else none := by
  induction l with
  | nil => simp
  | cons q l ih =>
      obtain ⟨k', v⟩ := q
      by_cases hk : k = k'
      · subst hk
        cases hp : p k with
        | true => rw [List.filter_cons_of_pos (by exact hp), List.lookup_cons_self,
            List.lookup_cons_self, if_pos rfl]
        | false =>
            rw [List.filter_cons_of_neg (by simp [hp]), ih, hp]
            rfl
      · cases hp : p k' with
        | true =>
            rw [List.filter_cons_of_pos (by exact hp), List.lookup_cons, List.lookup_cons,
              beq_eq_false_iff_ne.mpr hk]
            exact ih
        | false =>
            rw [List.filter_cons_of_neg (by simp [hp]), List.lookup_cons,
              beq_eq_false_iff_ne.mpr hk]
            exact ih

/-- Looking up in a list that is made from keys. -/
theorem lookup_filterMap_key (f : κ → Option ν) (keys : List κ) (k : κ) [DecidableEq κ] :
    (keys.filterMap fun k' => (f k').map (k', ·)).lookup k = if k ∈ keys then f k else none := by
  induction keys with
  | nil => rfl
  | cons k' keys ih =>
      by_cases hk : k = k'
      · subst hk
        rw [if_pos List.mem_cons_self, List.filterMap_cons]
        cases hf : f k with
        | some v => exact List.lookup_cons_self
        | none =>
            change (keys.filterMap fun k' => (f k').map (k', ·)).lookup k = none
            rw [ih, hf]
            split <;> rfl
      · have hmem : k ∈ k' :: keys ↔ k ∈ keys := by simp [hk]
        rw [List.filterMap_cons]
        simp only [hmem]
        cases hf : f k' with
        | none => exact ih
        | some v =>
            change List.lookup k ((k', v) :: _) = _
            rw [List.lookup_cons, beq_eq_false_iff_ne.mpr hk]
            exact ih

end

/-- Normalized keys have one value for each key field. -/
theorem Record.length_of_normalizeKey {α : Type} [Record α] {row key : List Value}
    (h : Record.normalizeKey α row = .ok key) : key.length = (Record.type α).primaryKey.length :=
  (Record.TypedKey.of_normalizeKey h).length_eq

/-! ### Tables -/

/-- Records under their keys, which are distinct; all fields of the records can be read. -/
structure Table (α : Type) [Record α] where
  rows : List (List Value × α)
  keyed : ∀ p ∈ rows, Record.keyValues p.2 = .ok p.1
  readable : ∀ p ∈ rows, ∃ values, Record.toValues p.2 = .ok values
  distinct : (rows.map (·.1)).Nodup

namespace Table

variable {α : Type} [Record α] (T : Table α)

/-- The record of a key. -/
def find? (key : List Value) : Option α := T.rows.lookup key

/-- The rows of the keys of a list. -/
def rowsOf (keys : List (List Value)) : List (List Value × α) := T.rows.filter (·.1 ∈ keys)

theorem mem_of_mem_rowsOf {keys : List (List Value)} {p : List Value × α} (h : p ∈ T.rowsOf keys) :
    p ∈ T.rows := (List.mem_filter.mp h).1

/-- A permutation of the rows of some keys has the records of these keys, and no others. -/
theorem lookup_answer {keys : List (List Value)} {answer : List (List Value × α)}
    (h : answer.Perm (T.rowsOf keys)) (key : List Value) :
    answer.lookup key = if key ∈ keys then T.find? key else none := by
  have hnodup : ((T.rowsOf keys).map (·.1)).Nodup :=
    T.distinct.sublist (List.filter_sublist.map _)
  rw [lookup_perm h ((h.map _).nodup_iff.mpr hnodup)]
  unfold rowsOf find?
  rw [lookup_filter_keys (fun k => decide (k ∈ keys))]
  simp only [decide_eq_true_eq]

/-- Records in any order are rows in that order. -/
theorem exists_answer {keys : List (List Value)} {loaded : List α}
    (h : loaded.Perm ((T.rowsOf keys).map (·.2))) :
    ∃ answer : List (List Value × α), answer.map (·.2) = loaded ∧ answer.Perm (T.rowsOf keys) := by
  let entry (record : α) : List Value × α :=
    match Record.keyValues record with
    | .ok key => (key, record)
    | .error _ => ([], record)
  refine ⟨loaded.map entry, ?_, ?_⟩
  · rw [List.map_map]
    refine (List.map_congr_left fun record _ => ?_).trans (List.map_id loaded)
    change (entry record).2 = record
    unfold entry
    split <;> rfl
  · have hrows : ((T.rowsOf keys).map (·.2)).map entry = T.rowsOf keys := by
      rw [List.map_map]
      refine (List.map_congr_left fun p hp => ?_).trans (List.map_id _)
      change entry p.2 = p
      unfold entry
      rw [T.keyed p (T.mem_of_mem_rowsOf hp)]
    rw [← hrows]
    exact h.map entry

end Table

/-- The connection answers the queries of these batches, one after the other, with the rows of
exactly the records of the table that have a key of the batch. -/
def Connection.Serves {σ α : Type} [Record α] (conn : Connection σ) (T : Table α) :
    List (KeySet (Record.type α)) → σ → Prop
  | [], _ => True
  | batch :: rest, db => ∀ statement, batch.select.compile conn.dialect = .ok statement →
      ∃ rows loaded db', conn.query statement db = (.ok rows, db') ∧
        rows.mapM (Record.ofValues (Record.type α).fieldNames) = .ok loaded ∧
        loaded.Perm ((T.rowsOf batch.tuples).map (·.2)) ∧ conn.Serves T rest db'

/-- The connection serves the keys with these values in batches of this size, however the hash sets
of them list their members. -/
def Connection.ServesKeys {σ α : Type} [Record α] (conn : Connection σ) (T : Table α)
    (batchSize : Nat) (tuples : List (List Value)) (db : σ) : Prop :=
  ∀ set, KeySet.ofValues (Record.type α) tuples (conn.hashOrder db) = .ok set →
    conn.Serves T (set.chunks batchSize (conn.hashOrder db)) db

end RecordStore
