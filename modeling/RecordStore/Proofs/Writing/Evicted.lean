import RecordStore.Proofs.Sample
import RecordStore.Proofs.Writing.Stages

/-! # What a write has evicted

A write whose statement has succeeded leaves no key list of its record type and no row that its
directive covers (`Modifier.Evicted`), whether it then returns a number or an error; what had
expired before counts as gone.  There is one exception: an insertion that cannot read back or set
the key of its record returns before it has evicted anything (`Modifier.evicted_of_executed`). -/

namespace RecordStore

namespace Modifier

/-- The record type of the rows that a write changes. -/
def changed? (α : Type) [Record α] : Modifier → Option RecordType
  | insertRecord | updateRecord => some (Record.type α)
  | updateMatching r _ _ _ | deleteMatching r _ _ => some r
  | createIndex _ | dropIndex _ => none

variable {σ α : Type} [Record α]

/-- The cache is without the key lists of the record type, and without the rows of the directive,
those aside that have expired: they are not listed and cannot be looked up. -/
structure Evicted (m : Modifier) (record : α) (r : RecordType) (c : MemoryCache) : Prop where
  keyLists : c.enumerate r.keyListBin = []
  rows {d : Directive} {key : List Value} (hguard : m.guard? record = some d)
    (hcovers : d.covers r key) : c.freshAt? (.ofRow r key) = none

/-- An insertion that fails before it comes to the cache. -/
def LosesKey (conn : Connection σ) (st : WriteState σ) (record : α) : Modifier → Prop
  | insertRecord => ∃ e p, RecordWriting.sendInsert conn (st, record) = .error e p
  | _ => False

variable {conn : Connection σ} {st : WriteState σ} {record : α} {m : Modifier} {r : RecordType}

/-- A directive for the record type evicts what a write under it has to. -/
theorem Evicted.apply {d : Directive} (hguard : m.guard? record = some d)
    (hrecord : d.record.sameAs r = true) (c : MemoryCache) : m.Evicted record r (d.apply c).2 where
  keyLists := d.enumerate_apply_keyList c hrecord
  rows hguard' hcovers := by
    rw [hguard] at hguard'
    cases hguard'
    exact d.freshAt?_apply_row c hcovers

/-- Removing the key lists is what an insertion has to evict. -/
theorem Evicted.keyLists_removed (c : MemoryCache) :
    insertRecord.Evicted record (Record.type α) (c.evictKeyLists (Record.type α)).2 where
  keyLists := c.enumerate_evictKeyLists (Record.type α)
  rows hguard := by cases hguard

/-- Storing the inserted record does not bring a key list back. -/
theorem Evicted.inserted {record' : α} {c c' : MemoryCache}
    (hcacheable : (Record.type α).isCacheable = true) (h : Inserted record' c c') :
    insertRecord.Evicted record (Record.type α) c' := by
  cases h with
  | uncached huncached =>
      rw [hcacheable] at huncached
      cases huncached
  | keyless _ => exact .keyLists_removed c
  | row _ _ =>
      refine ⟨?_, fun hguard => by cases hguard⟩
      rw [MemoryCache.enumerate_store_of_bin_ne _ _ (Record.type α).rowBin_ne_keyListBin.symm]
      exact c.enumerate_evictKeyLists (Record.type α)

/-- A write that changes rows and is prepared is an insertion, or it has a directive for the record
type. -/
theorem guard?_of_prepare {compiled : CompiledStatement} (hchanged : m.changed? α = some r)
    (hprepare : m.prepare conn.dialect record = .ok compiled) :
    m = insertRecord ∨ ∃ d, m.guard? record = some d ∧ d.record.sameAs r = true := by
  unfold prepare at hprepare
  obtain ⟨s, hstatement, -⟩ := except_bind_eq_ok.mp hprepare
  cases m with
  | insertRecord => exact .inl rfl
  | createIndex i => cases hchanged
  | dropIndex i => cases hchanged
  | updateMatching r' assignments condition guard =>
      cases hchanged
      obtain ⟨u, hvalid, -⟩ := except_bind_eq_ok.mp hstatement
      exact .inr ⟨guard, rfl, Writing.sameAs_of_validate hvalid⟩
  | deleteMatching r' condition guard =>
      cases hchanged
      obtain ⟨u, hvalid, -⟩ := except_bind_eq_ok.mp hstatement
      exact .inr ⟨guard, rfl, Writing.sameAs_of_validate hvalid⟩
  | updateRecord =>
      cases hchanged
      obtain ⟨key?, hkey, hstatement⟩ := except_bind_eq_ok.mp hstatement
      cases key? with
      | none => cases hstatement
      | some key =>
          unfold guard?
          rw [hkey]
          exact .inr ⟨_, rfl, beq_self_eq_true _⟩

variable (st) in
/-- A write under a directive ends by applying it once its statement has succeeded. -/
theorem finalState_of_executed {d : Directive} (hguard : m.guard? record = some d)
    {compiled : CompiledStatement} {affected : Nat} {db : σ}
    (hprepare : m.prepare conn.dialect record = .ok compiled)
    (hexecute : conn.execute compiled st.connection = (.ok affected, db)) :
    (finalState (m.perform conn (st, record))).1 =
      finalState (Writing.evict d.apply (sent st record affected db).1) := by
  have hfinish : m.finish conn record = RecordWriting.lift (Writing.evict d.apply) := by
    unfold finish
    cases m with
    | insertRecord => cases hguard
    | _ =>
      dsimp only
      rw [hguard]
  rw [perform_eq, hprepare]
  unfold complete
  dsimp only
  rw [hexecute]
  dsimp only
  rw [finalState_bind_pure, hfinish]
  rfl

variable (st) in
/-- What a write under a directive leaves in the cache once its statement has succeeded. -/
theorem cache_of_executed {d : Directive} (hguard : m.guard? record = some d)
    {compiled : CompiledStatement} {affected : Nat} {db : σ}
    (hprepare : m.prepare conn.dialect record = .ok compiled)
    (hexecute : conn.execute compiled st.connection = (.ok affected, db)) :
    (finalState (m.perform conn (st, record))).1.cache =
      st.cache.map fun c => (d.apply c).2 := by
  rw [finalState_of_executed st hguard hprepare hexecute]
  exact Writing.cache_evict d.apply (sent st record affected db).1

/-- Whatever comes of caching an inserted record, the key lists are evicted. -/
theorem cacheInserted_evicted (hcacheable : (Record.type α).isCacheable = true)
    (st : WriteState σ) (record record' : α) :
    Option.Rel (fun _ c' => insertRecord.Evicted record (Record.type α) c') st.cache
      (finalState
        ((RecordWriting.cacheInserted : RecordWriting σ α Unit) (st, record'))).1.cache := by
  cases hcache : st.cache with
  | none =>
      rw [RecordWriting.cacheInserted_uncached record' (by rw [hcache]; rfl)]
      change Option.Rel _ none st.cache
      rw [hcache]
      exact .none
  | some c =>
      have hstored := RecordWriting.cacheInserted_cached record' hcache hcacheable
      cases hrun : (RecordWriting.cacheInserted : RecordWriting σ α Unit) (st, record') with
      | error e p =>
          rw [hrun] at hstored
          change Option.Rel _ (some c) p.1.cache
          rw [show p.1.cache = _ from hstored]
          exact .some (.keyLists_removed c)
      | ok u p =>
          rw [hrun] at hstored
          obtain ⟨-, c', hc', hinserted⟩ := hstored
          change Option.Rel _ (some c) p.1.cache
          rw [hc']
          exact .some (.inserted hcacheable hinserted)

/-- What becomes of the cache when an insertion is over, whichever way it went. -/
theorem insertRecord_evicted (hcacheable : (Record.type α).isCacheable = true) (st : WriteState σ)
    (record : α) :
    Option.Rel (fun c c' => (insertRecord.LosesKey conn st record → c' = c) ∧
        (¬ insertRecord.LosesKey conn st record →
          insertRecord.Evicted record (Record.type α) c'))
      st.cache (finalState (insertRecord.perform conn (st, record))).1.cache := by
  have hsent := RecordWriting.sendInsert_leaves conn (st, record)
  have hperform : insertRecord.perform conn (st, record) = (do
      let affected ← RecordWriting.sendInsert conn
      RecordWriting.cacheInserted
      return affected : RecordWriting σ α Nat) (st, record) := rfl
  rw [hperform]
  cases hsend : RecordWriting.sendInsert conn (st, record) with
  | error e p =>
      have hloses : insertRecord.LosesKey conn st record := ⟨e, p, hsend⟩
      rw [hsend] at hsent
      rw [bind_of_error hsend]
      change Option.Rel _ _ p.1.cache
      rw [show p.1.cache = st.cache from hsent]
      cases st.cache with
      | none => exact .none
      | some c => exact .some ⟨fun _ => rfl, fun hkept => absurd hloses hkept⟩
  | ok affected p =>
      obtain ⟨st₁, record₁⟩ := p
      have hkept : ¬ insertRecord.LosesKey conn st record := by
        rintro ⟨e, p, herror⟩
        rw [hsend] at herror
        cases herror
      rw [hsend] at hsent
      change st₁.cache = st.cache at hsent
      have hevicted := cacheInserted_evicted hcacheable st₁ record record₁
      rw [bind_of_ok hsend, finalState_bind_pure, ← hsent]
      generalize st₁.cache = before at hevicted ⊢
      generalize (finalState (RecordWriting.cacheInserted (st₁, record₁))).1.cache = after
        at hevicted ⊢
      cases hevicted with
      | none => exact .none
      | some h => exact .some ⟨fun hloses => absurd hloses hkept, fun _ => h⟩

/-- Once the statement of a write has succeeded, the write has evicted what it must when it returns,
unless it is an insertion that fails before it comes to the cache: then the cache is as it was. -/
theorem evicted_of_executed (m : Modifier) (conn : Connection σ) (db : σ)
    (cache : Option MemoryCache) (record : α) {r : RecordType} {s : CompiledStatement} {n : Nat}
    (hchanged : m.changed? α = some r) (hcacheable : r.isCacheable = true)
    (hexecuted : Exchange.execute s (.ok n) ∈ m.exchanges conn ⟨db, cache, {}⟩ record) :
    Option.Rel (fun c c' => (m.LosesKey conn ⟨db, cache, {}⟩ record → c' = c) ∧
        (¬ m.LosesKey conn ⟨db, cache, {}⟩ record → m.Evicted record r c'))
      cache (finalState (m.perform conn (⟨db, cache, {}⟩, record))).1.cache := by
  obtain ⟨compiled, affected, db', hprepare, hexecute⟩ := exists_of_executed hexecuted
  rcases guard?_of_prepare hchanged hprepare with rfl | ⟨d, hguard, hrecord⟩
  · cases hchanged
    exact insertRecord_evicted hcacheable ⟨db, cache, {}⟩ record
  · have hcache := cache_of_executed ⟨db, cache, {}⟩ hguard hprepare hexecute
    rw [hcache]
    cases cache with
    | none => exact .none
    | some c =>
        refine .some ⟨fun hloses => ?_, fun _ => .apply hguard hrecord c⟩
        cases m with
        | insertRecord => cases hguard
        | _ => cases hloses

end Modifier

namespace Sample

/-- A cache with an item and the keys of all items. -/
def cachedItems : MemoryCache :=
  ((MemoryCache.new 8).storeAt (.ofRow schema.type [.integer 1])
    (.row [.integer 1, .text "one"]) .record).storeAt ⟨"Item#keys", [.text "all"]⟩
      (.keys [[.integer 1]]) .shortKeys

/-- The update of the item evicts both. -/
theorem evicted_of_item_update : ∃ c',
    (finalState (Modifier.updateRecord.perform (database [])
      (⟨(), some cachedItems, {}⟩, item 1 "two"))).1.cache = some c' ∧
    c'.enumerate "Item#keys" = [] ∧ c'.freshAt? (.ofRow schema.type [.integer 1]) = none := by
  have hprepare : Modifier.updateRecord.prepare (database []).dialect (item 1 "two") = .ok
      ⟨"UPDATE \"items\" SET \"item_name\" = ? WHERE \"item_id\" = ?",
        [.field "name" (.text "two"), .value (.integer 1)]⟩ := rfl
  have hexecute (s : CompiledStatement) : (database []).execute s () = (.ok 1, ()) := rfl
  have hrel := Modifier.evicted_of_executed .updateRecord (database []) () (some cachedItems)
    (item 1 "two") rfl rfl (Modifier.mem_exchanges_of_executed hprepare (hexecute _))
  generalize (finalState (Modifier.updateRecord.perform (database [])
      (⟨(), some cachedItems, {}⟩, item 1 "two"))).1.cache = cache at hrel
  cases hrel with
  | some h =>
    have hevicted := h.2 id
    exact ⟨_, rfl, hevicted.keyLists, hevicted.rows rfl ⟨rfl, List.mem_singleton_self _⟩⟩

/-- Notes under a number that the database chooses. -/
def noteSchema : Schema where
  name := "Note"
  table := some "notes"
  columns := [⟨.generated "id" "id", .integer, false⟩, ⟨.stored "body" "body", .text, false⟩]
  primaryKey := ["id"]

/-- A database that inserts rows and does not tell their keys. -/
def secretive : Connection Unit :=
  { database [] with lastGeneratedKey := fun st => (.error (.driver "connection lost" ""), st) }

/-- A cache with the keys of all notes. -/
def cachedNotes : MemoryCache :=
  (MemoryCache.new 8).storeAt ⟨"Note#keys", [.text "all"]⟩ (.keys []) .shortKeys

/-- A note without a number. -/
def note : Row noteSchema := ⟨[.integer 0, .text "new"]⟩

/-- The insertion of a note succeeds in the database, and the list of all notes stays. -/
theorem keyLists_outlive_insertion :
    noteSchema.type.isCacheable = true ∧
      .execute ⟨"INSERT INTO \"notes\" (\"body\") VALUES (?)", [.field "body" (.text "new")]⟩
          (.ok 1) ∈
        Modifier.insertRecord.exchanges secretive ⟨(), some cachedNotes, {}⟩ note ∧
      (finalState (Modifier.insertRecord.perform secretive
        (⟨(), some cachedNotes, {}⟩, note))).1.cache.map
          (·.enumerate noteSchema.type.keyListBin) = some [[.text "all"]] := by
  have hprepare : Modifier.insertRecord.prepare secretive.dialect note = .ok
      ⟨"INSERT INTO \"notes\" (\"body\") VALUES (?)", [.field "body" (.text "new")]⟩ := rfl
  have hexecute (s : CompiledStatement) : secretive.execute s () = (.ok 1, ()) := rfl
  exact ⟨rfl, Modifier.mem_exchanges_of_executed hprepare (hexecute _), by decide +kernel⟩

end Sample

end RecordStore
