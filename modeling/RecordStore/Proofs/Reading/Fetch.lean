import RecordStore.Proofs.Reading.Cache
import RecordStore.Proofs.Reading.Table
import RecordStore.Proofs.Sample
import RecordStore.Proofs.Sql.KeyQueries

/-! # What reading by key returns

Reading by key divides the keys into those with a readable record in the cache and the rest, and
loads the rest in batches.  What it has found at any time is a list in which looking a key up finds
the record of the table (`Reading.loadBatch_found`, `Reading.loadBatches_found`), so that in the end
the keys are replaced by their records, whatever the cache held and however the keys were cut into
batches (`Reading.fetch_eq_table`). -/

namespace RecordStore

namespace Reading

/-- The value at an address of a cache that may be missing, if it has not expired. -/
def valueAt (cache : Option MemoryCache) (a : CacheAddress) : Option CacheValue :=
  cache.bind fun c => (c.freshAt? a).map (·.value)

/-- The record that the cache has under a key, if it can be read. -/
def cached? (α : Type) [Record α] (cache : Option MemoryCache) (key : List Value) : Option α :=
  match valueAt cache (.ofRow (Record.type α) key) with
  | some (.row values) => (Record.ofValues (Record.type α).fieldNames values).toOption
  | _ => none

/-- The keys of a list that the database has to be asked for. -/
def missing (α : Type) [Record α] (cache : Option MemoryCache) (keys : List (List Value)) :
    List (List Value) :=
  (distinct keys).filter fun key => (cached? α cache key).isNone

variable {σ : Type} (conn : Connection σ) {α : Type} [Record α]

/-! ### Single steps -/

theorem count_bind {β : Type} (f : ReadStats → ReadStats) (x : Reading σ β) (st : ReadState σ) :
    (count f >>= fun _ => x) st = x { st with stats := f st.stats } := rfl

theorem hashOrder_bind {β : Type} (f : HashOrder → Reading σ β) (st : ReadState σ) :
    (hashOrder conn >>= f) st = f (conn.hashOrder st.connection) st := rfl

/-- Caches with the same values have the same records. -/
theorem cached?_congr {cache cache' : Option MemoryCache}
    (h : ∀ key, valueAt cache' (.ofRow (Record.type α) key) =
      valueAt cache (.ofRow (Record.type α) key)) : cached? α cache' = cached? α cache := by
  funext key
  unfold cached?
  rw [h]

/-- Looking something up in the cache leaves every entry that can be found where it is. -/
theorem lookupAt_eq (a : CacheAddress) (st : ReadState σ) :
    ∃ st', lookupAt a st = .ok (valueAt st.cache a) st' ∧ st'.connection = st.connection ∧
      st'.stats = st.stats ∧ ∀ b, valueAt st'.cache b = valueAt st.cache b := by
  obtain ⟨db, cache, stats⟩ := st
  cases cache with
  | none => exact ⟨_, rfl, rfl, rfl, fun _ => rfl⟩
  | some c =>
      refine ⟨⟨db, some (c.lookupAt a).2, stats⟩, ?_, rfl, rfl, fun b => ?_⟩
      · change EStateM.Result.ok (c.lookupAt a).1 _ = _
        rw [MemoryCache.lookupAt_fst]
        rfl
      · exact congrArg (Option.map (·.value)) (c.freshAt?_lookup a b)

/-- Removing an entry that cannot be read changes no record that the cache has. -/
theorem cached?_remove {cache : Option MemoryCache} {key : List Value}
    (h : cached? α cache key = none) :
    cached? α (cache.map (·.removeAt (.ofRow (Record.type α) key))) = cached? α cache := by
  cases cache with
  | none => rfl
  | some c =>
      have hentry (k : List Value) := c.freshAt?_remove (.ofRow (Record.type α) key)
        (.ofRow (Record.type α) k)
      funext k
      by_cases hk : k = key
      · subst hk
        rw [h]
        unfold cached? valueAt
        simp only [Option.map_some, Option.bind_some]
        rw [hentry, if_pos rfl]
        rfl
      · unfold cached? valueAt
        simp only [Option.map_some, Option.bind_some]
        rw [hentry, if_neg fun heq => hk (congrArg CacheAddress.key heq)]

/-- Asking the cache for a record returns the record it has, and changes no record it has. -/
theorem cachedRecord_eq (key : List Value) (st : ReadState σ) :
    ∃ st', cachedRecord key st = .ok (cached? α st.cache key) st' ∧
      st'.connection = st.connection ∧ cached? α st'.cache = cached? α st.cache := by
  obtain ⟨st₁, hlookup, hdb, -, hvalues⟩ := lookupAt_eq (.ofRow (Record.type α) key) st
  have hsame : cached? α st₁.cache = cached? α st.cache := cached?_congr fun _ => hvalues _
  have hkey : cached? α st.cache key = match valueAt st.cache (.ofRow (Record.type α) key) with
      | some (.row values) => (Record.ofValues (Record.type α).fieldNames values).toOption
      | _ => none := rfl
  unfold cachedRecord
  rw [bind_of_ok hlookup]
  cases hvalue : valueAt st.cache (.ofRow (Record.type α) key) with
  | none =>
      rw [hvalue] at hkey
      exact ⟨st₁, by rw [hkey]; rfl, hdb, hsame⟩
  | some value =>
      rw [hvalue] at hkey
      cases value with
      | keys tuples => exact ⟨st₁, by rw [hkey]; rfl, hdb, hsame⟩
      | row values =>
          dsimp only at hkey ⊢
          cases hread : (Record.ofValues (Record.type α).fieldNames values : Except _ α) with
          | ok record =>
              rw [hread] at hkey
              exact ⟨st₁, by rw [hkey]; rfl, hdb, hsame⟩
          | error e =>
              rw [hread] at hkey
              have hnone : cached? α st₁.cache key = none := by
                rw [hsame]
                exact hkey
              exact ⟨{ st₁ with cache := st₁.cache.map (·.removeAt (.ofRow (Record.type α) key)) },
                by rw [hkey]; rfl, hdb, (cached?_remove hnone).trans hsame⟩

variable (α) in
/-- Dividing keys by the cache changes no record it has. -/
theorem divide_eq (keys : List (List Value)) (st : ReadState σ) :
    ∃ st', divide α keys st = .ok (
        keys.filterMap fun key => (cached? α st.cache key).map (key, ·),
        keys.filter fun key => (cached? α st.cache key).isNone) st' ∧
      st'.connection = st.connection := by
  induction keys generalizing st with
  | nil => exact ⟨st, rfl, rfl⟩
  | cons key keys ih =>
      obtain ⟨st₁, hrun, hdb, hsame⟩ := cachedRecord_eq (α := α) key st
      unfold divide
      rw [bind_of_ok hrun]
      cases hcached : cached? α st.cache key with
      | none =>
          obtain ⟨st₂, hrest, hdb'⟩ := ih st₁
          rw [hsame] at hrest
          refine ⟨st₂, ?_, hdb'.trans hdb⟩
          dsimp only
          rw [bind_of_ok hrest, List.filterMap_cons, List.filter_cons, hcached]
          rfl
      | some record =>
          let counted : ReadState σ :=
            { st₁ with stats := { st₁.stats with cachedRecords := st₁.stats.cachedRecords + 1 } }
          obtain ⟨st₂, hrest, hdb'⟩ := ih counted
          rw [show counted.cache = st₁.cache from rfl, hsame] at hrest
          refine ⟨st₂, ?_, hdb'.trans hdb⟩
          dsimp only
          rw [count_bind, bind_of_ok hrest, List.filterMap_cons, List.filter_cons, hcached]
          rfl

/-! ### Loading -/

theorem compile_of_ok {s : Select} {statement : CompiledStatement}
    (h : s.compile conn.dialect = .ok statement) (st : ReadState σ) :
    compile conn s st = .ok statement st := by
  unfold compile
  rw [h]
  rfl

/-- The state after a query that the database answered. -/
def answered (st : ReadState σ) (db : σ) : ReadState σ :=
  { st with
    connection := db
    stats := { st.stats with uncachedQueries := st.stats.uncachedQueries + 1 } }

theorem query_of_ok {statement : CompiledStatement} {rows : List (List Value)} {st : ReadState σ}
    {db : σ} (h : conn.query statement st.connection = (.ok rows, db)) :
    query conn statement st = .ok rows (answered st db) := by
  unfold query
  rw [h]
  rfl

theorem records_of_ok {rows : List (List Value)} {loaded : List α} {fields : List String}
    (h : rows.mapM (Record.ofValues fields) = .ok loaded) (st : ReadState σ) :
    records fields rows st = .ok loaded st := by
  unfold records
  rw [mapM_lift h]
  rfl

/-- Caching a record whose fields can be read succeeds. -/
theorem storeRecord_ok (key : List Value) {record : α} {values : List Value}
    (h : Record.toValues record = .ok values) (st : ReadState σ) :
    ∃ st', storeRecord key record st = .ok () st' ∧ st'.connection = st.connection := by
  obtain ⟨db, cache, stats⟩ := st
  unfold storeRecord
  cases cache with
  | none => exact ⟨_, rfl, rfl⟩
  | some c =>
      rw [h]
      exact ⟨_, rfl, rfl⟩

variable (α) in
/-- Collecting records puts each under its key, the last one first. -/
theorem collect_ok {answer : List (List Value × α)}
    (hkeyed : ∀ p ∈ answer, Record.keyValues p.2 = .ok p.1)
    (hreadable : ∀ p ∈ answer, ∃ values, Record.toValues p.2 = .ok values) (found : Found α)
    (st : ReadState σ) :
    ∃ st', collect α found (answer.map (·.2)) st = .ok (answer.reverse ++ found) st' ∧
      st'.connection = st.connection := by
  induction answer generalizing found st with
  | nil => exact ⟨st, rfl, rfl⟩
  | cons p answer ih =>
      obtain ⟨key, record⟩ := p
      obtain ⟨values, hvalues⟩ := hreadable _ List.mem_cons_self
      obtain ⟨st₁, hstore, hdb⟩ := storeRecord_ok key hvalues st
      let counted : ReadState σ :=
        { st₁ with stats := { st₁.stats with uncachedRecords := st₁.stats.uncachedRecords + 1 } }
      obtain ⟨st₂, hrest, hdb'⟩ := ih (fun p hp => hkeyed p (List.mem_cons_of_mem _ hp))
        (fun p hp => hreadable p (List.mem_cons_of_mem _ hp)) ((key, record) :: found) counted
      refine ⟨st₂, ?_, hdb'.trans hdb⟩
      rw [List.map_cons, collect, hkeyed _ List.mem_cons_self, bind_of_ok (ofExcept_ok _ _),
        bind_of_ok hstore, count_bind, hrest, List.reverse_cons, List.append_assoc]
      rfl

variable {conn} {T : Table α}

/-- A batch that is served collects the rows of its keys. -/
theorem loadBatch_served {batch : KeySet (Record.type α)} {rest : List (KeySet (Record.type α))}
    {statement : CompiledStatement} (hcompile : batch.select.compile conn.dialect = .ok statement)
    {st : ReadState σ} (hserves : conn.Serves T (batch :: rest) st.connection) (found : Found α) :
    ∃ (answer : List (List Value × α)) (db : σ), answer.Perm (T.rowsOf batch.tuples) ∧
      conn.Serves T rest db ∧
      loadBatch conn α found batch st = collect α found (answer.map (·.2)) (answered st db) := by
  obtain ⟨rows, loaded, db, hquery, hloaded, hperm, hrest⟩ := hserves statement hcompile
  obtain ⟨answer, rfl, hanswer⟩ := T.exists_answer hperm
  refine ⟨answer, db, hanswer, hrest, ?_⟩
  unfold loadBatch
  rw [bind_of_ok (compile_of_ok conn hcompile st), bind_of_ok (query_of_ok conn hquery),
    bind_of_ok (records_of_ok hloaded _)]

/-- Collecting rows of the table puts them under their keys. -/
theorem collect_rows {keys : List (List Value)} {answer : List (List Value × α)}
    (hanswer : answer.Perm (T.rowsOf keys)) (found : Found α) (st : ReadState σ) :
    ∃ found' st', collect α found (answer.map (·.2)) st = .ok found' st' ∧
      st'.connection = st.connection ∧ ∀ key, found'.lookup key =
        (if key ∈ keys then T.find? key else none).or (found.lookup key) := by
  have hrows {p : List Value × α} (hp : p ∈ answer) : p ∈ T.rows :=
    T.mem_of_mem_rowsOf (hanswer.mem_iff.mp hp)
  obtain ⟨st', hcollect, hdb⟩ := collect_ok α (fun p hp => T.keyed p (hrows hp))
    (fun p hp => T.readable p (hrows hp)) found st
  refine ⟨_, st', hcollect, hdb, fun key => ?_⟩
  rw [List.lookup_append, T.lookup_answer (answer.reverse_perm.trans hanswer)]

/-- A batch that is served adds the records of its keys. -/
theorem loadBatch_found
    (hread : ∀ field ∈ (Record.type α).fieldNames, (Record.type α).Readable field)
    (hkey : ∀ field ∈ (Record.type α).primaryKey, field ∈ (Record.type α).fieldNames)
    {batch : KeySet (Record.type α)} {rest : List (KeySet (Record.type α))} {st : ReadState σ}
    (hserves : conn.Serves T (batch :: rest) st.connection) (found : Found α) :
    ∃ found' st', loadBatch conn α found batch st = .ok found' st' ∧
      conn.Serves T rest st'.connection ∧
      ∀ key, found'.lookup key =
        (if key ∈ batch.tuples then T.find? key else none).or (found.lookup key) := by
  obtain ⟨statement, hcompile⟩ := batch.compile_select hread hkey conn.dialect
  obtain ⟨answer, db, hanswer, hrest, hload⟩ := loadBatch_served hcompile hserves found
  obtain ⟨found', st', hcollect, hdb, hlookup⟩ := collect_rows hanswer found (answered st db)
  refine ⟨found', st', hload.trans hcollect, ?_, hlookup⟩
  rw [hdb]
  exact hrest

/-- What is found for some keys and then for more of them. -/
theorem find?_or_append (T : Table α) (keys more : List (List Value)) (key : List Value)
    (found : Option α) : (if key ∈ more then T.find? key else none).or
      ((if key ∈ keys then T.find? key else none).or found) =
      (if key ∈ keys ++ more then T.find? key else none).or found := by
  simp only [List.mem_append]
  by_cases hkeys : key ∈ keys <;> by_cases hmore : key ∈ more <;>
    simp only [hkeys, hmore, if_true, if_false, Option.none_or, or_true, or_false]
  cases T.find? key <;> rfl

/-- Batches that are served add the records of all their keys. -/
theorem loadBatches_found
    (hread : ∀ field ∈ (Record.type α).fieldNames, (Record.type α).Readable field)
    (hkey : ∀ field ∈ (Record.type α).primaryKey, field ∈ (Record.type α).fieldNames)
    {batches : List (KeySet (Record.type α))} {st : ReadState σ}
    (hserves : conn.Serves T batches st.connection) (found : Found α) :
    ∃ found' st', batches.foldlM (loadBatch conn α) found st = .ok found' st' ∧
      ∀ key, found'.lookup key =
        (if key ∈ batches.flatMap KeySet.tuples then T.find? key else none).or
          (found.lookup key) := by
  induction batches generalizing found st with
  | nil => exact ⟨found, st, rfl, fun key => rfl⟩
  | cons batch rest ih =>
      obtain ⟨found₁, st₁, hload, hrest, hlookup⟩ := loadBatch_found hread hkey hserves found
      obtain ⟨found₂, st₂, hfold, hlookup₂⟩ := ih hrest found₁
      refine ⟨found₂, st₂, ?_, fun key => ?_⟩
      · rw [List.foldlM_cons, bind_of_ok hload]
        exact hfold
      · rw [hlookup₂, hlookup, List.flatMap_cons, find?_or_append]

/-! ### Keys to records -/

/-- What is found for keys of the table: the records that the cache has, then those that are loaded.
-/
theorem loadMissing_found
    (hread : ∀ field ∈ (Record.type α).fieldNames, (Record.type α).Readable field)
    (hkey : ∀ field ∈ (Record.type α).primaryKey, field ∈ (Record.type α).fieldNames)
    (hhas : (Record.type α).hasKey = true) {tuples : List (List Value)}
    (hwidth : ∀ tuple ∈ tuples, tuple.length = (Record.type α).primaryKey.length)
    {batchSize : Nat} {st : ReadState σ}
    (hserves : conn.ServesKeys T batchSize tuples st.connection) (found : Found α) :
    ∃ found' st', loadMissing conn α batchSize found tuples st = .ok found' st' ∧
      ∀ key, found'.lookup key =
        (if key ∈ tuples then T.find? key else none).or (found.lookup key) := by
  unfold loadMissing
  cases tuples with
  | nil => exact ⟨found, _, rfl, fun key => rfl⟩
  | cons tuple rest =>
      obtain ⟨set, hset, hmem⟩ :=
        KeySet.exists_ofValues hhas hwidth (conn.hashOrder st.connection)
      obtain ⟨found', st', hload, hlookup⟩ :=
        loadBatches_found hread hkey (hserves set hset) found
      refine ⟨found', st', ?_, fun key => ?_⟩
      · change (hashOrder conn >>= _) st = _
        rw [hashOrder_bind, hset]
        exact hload
      · rw [hlookup]
        simp only [set.mem_flatMap_chunks, hmem]

/-- Looking keys up in what was cached and what was loaded is looking them up in the table. -/
theorem filterMap_found {cache : Option MemoryCache} {keys : List (List Value)} {found : Found α}
    (hcached : ∀ key ∈ keys, ∀ record, cached? α cache key = some record →
      T.find? key = some record)
    (hlookup : ∀ key, found.lookup key =
      (if key ∈ missing α cache keys then T.find? key else none).or (List.lookup key
        ((distinct keys).filterMap fun key => (cached? α cache key).map (key, ·)))) :
    (keys.filterMap fun key => List.lookup key found) = keys.filterMap T.find? := by
  refine List.filterMap_congr fun key hmem => ?_
  rw [hlookup, lookup_filterMap_key, if_pos (mem_distinct.mpr hmem)]
  unfold missing
  cases hrecord : cached? α cache key with
  | some record => simp [hrecord, hcached key hmem record hrecord]
  | none => simp [hrecord, hmem]

/-- Keys are replaced by their records in the table, those without one left out. -/
theorem fetchByKeys_eq_table
    (hread : ∀ field ∈ (Record.type α).fieldNames, (Record.type α).Readable field)
    (hkey : ∀ field ∈ (Record.type α).primaryKey, field ∈ (Record.type α).fieldNames)
    (hhas : (Record.type α).hasKey = true) {keys : List (List Value)}
    (hwidth : ∀ key ∈ keys, key.length = (Record.type α).primaryKey.length)
    {batchSize : Nat} {st : ReadState σ}
    (hcached : ∀ key ∈ keys, ∀ record, cached? α st.cache key = some record →
      T.find? key = some record)
    (hserves : conn.ServesKeys T batchSize (missing α st.cache keys) st.connection) :
    ∃ st', fetchByKeys conn α batchSize keys st = .ok (keys.filterMap T.find?) st' := by
  obtain ⟨st₁, hdivide, hdb⟩ := divide_eq α (distinct keys) st
  rw [← hdb] at hserves
  obtain ⟨found, st₂, hload, hlookup⟩ := loadMissing_found hread hkey hhas (fun key hmem => by
    exact hwidth key (mem_distinct.mp (List.mem_filter.mp hmem).1)) hserves
    ((distinct keys).filterMap fun key => (cached? α st.cache key).map (key, ·))
  refine ⟨st₂, ?_⟩
  rw [← filterMap_found hcached hlookup]
  unfold fetchByKeys
  rw [bind_of_ok hdivide]
  exact bind_of_ok hload

/-! ### Queries to records -/

variable (conn α) in
/-- The keys that reading in the given way takes for the keys of a query, and the state of the
database after it: those of a list in the cache or, where there is none or none is looked for, those
that the database answers, in the form in which records give them back. -/
inductive TakesKeys (statement : CompiledStatement) (st : ReadState σ) :
    Execution → List (List Value) → σ → Prop
  | asked {rows keys db} (hquery : conn.query statement st.connection = (.ok rows, db))
      (hkeys : rows.mapM (Record.normalizeKey α) = .ok keys) :
      TakesKeys statement st .keyThenFetch keys db
  | cached {lifetime keys}
      (hvalue : valueAt st.cache (.ofKeyList (Record.type α) statement) = some (.keys keys))
      (hwidth : ∀ key ∈ keys, key.length = (Record.type α).primaryKey.length) :
      TakesKeys statement st (.keyList lifetime) keys st.connection
  | notCached {lifetime rows keys db}
      (hvalue : ∀ tuples,
        valueAt st.cache (.ofKeyList (Record.type α) statement) ≠ some (.keys tuples))
      (hquery : conn.query statement st.connection = (.ok rows, db))
      (hkeys : rows.mapM (Record.normalizeKey α) = .ok keys) :
      TakesKeys statement st (.keyList lifetime) keys db

theorem TakesKeys.width {statement : CompiledStatement} {st : ReadState σ} {e : Execution}
    {keys : List (List Value)} {db : σ} (h : TakesKeys conn α statement st e keys db) :
    ∀ key ∈ keys, key.length = (Record.type α).primaryKey.length := by
  cases h with
  | asked _ hkeys | notCached _ _ hkeys =>
      intro key hmem
      obtain ⟨row, -, hrow⟩ := exists_of_mem_except_mapM hkeys hmem
      exact Record.length_of_normalizeKey hrow
  | cached _ hwidth => exact hwidth

theorem queryKeys_of_ok {statement : CompiledStatement} {st : ReadState σ}
    {rows keys : List (List Value)} {db : σ}
    (hquery : conn.query statement st.connection = (.ok rows, db))
    (hkeys : rows.mapM (Record.normalizeKey α) = .ok keys) :
    queryKeys conn α statement st = .ok keys (answered st db) := by
  unfold queryKeys
  rw [bind_of_ok (query_of_ok conn hquery), hkeys]
  rfl

/-- Storing a key list changes no record that the cache has. -/
theorem cached?_storeKeys (cache : Option MemoryCache) (statement : CompiledStatement)
    (keys : List (List Value)) (lifetime : Lifetime) :
    cached? α (cache.map (·.storeAt (.ofKeyList (Record.type α) statement) (.keys keys)
      lifetime.category)) = cached? α cache := by
  refine cached?_congr fun key => ?_
  cases cache with
  | none => rfl
  | some c =>
      unfold valueAt
      simp only [Option.map_some, Option.bind_some]
      rw [MemoryCache.freshAt?_store_of_bin_ne c _ _ (Record.type α).rowBin_ne_keyListBin]

variable (conn α) in
/-- A list of keys is the one that the cache has for the query, which is counted, or it is asked
for. -/
theorem keyList_cases (statement : CompiledStatement) (lifetime : Lifetime) (st : ReadState σ) :
    ∃ st₁, st₁.connection = st.connection ∧ (∀ b, valueAt st₁.cache b = valueAt st.cache b) ∧
      ((∃ keys, valueAt st.cache (.ofKeyList (Record.type α) statement) = some (.keys keys) ∧
          keyList conn α statement lifetime st = .ok keys st₁ ∧
          st₁.stats = { st.stats with cachedQueries := st.stats.cachedQueries + 1 }) ∨
        ((∀ keys, valueAt st.cache (.ofKeyList (Record.type α) statement) ≠ some (.keys keys)) ∧
          keyList conn α statement lifetime st = askKeys conn α statement lifetime st₁ ∧
          st₁.stats = st.stats)) := by
  obtain ⟨st₁, hlookup, hdb, hstats, hvalues⟩ :=
    lookupAt_eq (.ofKeyList (Record.type α) statement) st
  unfold keyList
  rw [bind_of_ok hlookup]
  cases hvalue : valueAt st.cache (.ofKeyList (Record.type α) statement) with
  | none => exact ⟨st₁, hdb, hvalues, .inr ⟨nofun, rfl, hstats⟩⟩
  | some value =>
      cases value with
      | row values => exact ⟨st₁, hdb, hvalues, .inr ⟨nofun, rfl, hstats⟩⟩
      | keys tuples =>
          refine ⟨{ st₁ with stats :=
              { st₁.stats with cachedQueries := st₁.stats.cachedQueries + 1 } },
            hdb, hvalues, .inl ⟨tuples, rfl, rfl, ?_⟩⟩
          rw [hstats]

/-- The list of keys is taken from the cache or asked for, and no record that the cache has changes.
-/
theorem keyList_ok {statement : CompiledStatement} {st : ReadState σ} {lifetime : Lifetime}
    {keys : List (List Value)} {db : σ}
    (h : TakesKeys conn α statement st (.keyList lifetime) keys db) :
    ∃ st', keyList conn α statement lifetime st = .ok keys st' ∧ st'.connection = db ∧
      cached? α st'.cache = cached? α st.cache := by
  obtain ⟨st₁, hdb, hvalues, htaken⟩ := keyList_cases conn α statement lifetime st
  have hsame : cached? α st₁.cache = cached? α st.cache := cached?_congr fun _ => hvalues _
  cases h with
  | cached hvalue _ =>
      rcases htaken with ⟨keys', hvalue', hlist, -⟩ | ⟨hnone, -, -⟩
      · rw [hvalue] at hvalue'
        cases hvalue'
        exact ⟨st₁, hlist, hdb, hsame⟩
      · exact absurd hvalue (hnone _)
  | notCached hvalue hquery hkeys =>
      rcases htaken with ⟨keys', hvalue', -, -⟩ | ⟨-, hlist, -⟩
      · exact absurd hvalue' (hvalue keys')
      · rw [← hdb] at hquery
        rw [hlist]
        unfold askKeys
        rw [bind_of_ok (queryKeys_of_ok hquery hkeys)]
        exact ⟨_, rfl, rfl, (cached?_storeKeys st₁.cache statement keys _).trans hsame⟩

/-- Reading the records of a query by key returns, for the keys that it takes, the records of the
table with these keys in the order of the keys, whatever the cache holds besides, whatever the size
of a batch and however hash sets list their members. -/
theorem fetch_eq_table (T : Table α) {s : Select} (hrecord : s.record = Record.type α)
    (hfields : s.selection = .fields) (hkeyFetch : s.requireKeyFetch = .ok ())
    {compiled : CompiledStatement} (hcompile : s.compile conn.dialect = .ok compiled)
    (hkey : ∀ field ∈ (Record.type α).primaryKey, field ∈ (Record.type α).fieldNames)
    {e : Execution} {batchSize : Nat} {st : ReadState σ} {keys : List (List Value)} {db : σ}
    (htakes : ∀ statement, s.keysOnly.compile conn.dialect = .ok statement →
      TakesKeys conn α statement st e keys db)
    (hcached : ∀ key ∈ keys, ∀ record, cached? α st.cache key = some record →
      T.find? key = some record)
    (hserves : conn.ServesKeys T batchSize (missing α st.cache keys) db) :
    ∃ st', fetch conn α batchSize s e st = .ok (keys.filterMap T.find?) st' := by
  obtain ⟨-, hhas, hno⟩ := Select.requireKeyFetch_eq_ok.mp hkeyFetch
  rw [hrecord] at hhas
  have hread := Select.readable_of_compile hfields hno hcompile
  obtain ⟨statement, hstatement⟩ :=
    Select.compile_keysOnly hfields hno (by rw [hrecord]; exact hkey) hcompile
  rw [hrecord] at hread
  have htakes := htakes statement hstatement
  have hwidth := htakes.width
  have hpasses : requireRecords (Record.type α) s st = .ok () st :=
    requireRecords_eq_ok.mpr ⟨by rw [hrecord]; exact beq_self_eq_true _, hfields, rfl⟩
  have hcompiles := compile_of_ok conn hstatement st
  -- Both ways come to a state with the same cached records, from which the keys are fetched.
  have hfetch {st' : ReadState σ} (hdb : st'.connection = db)
      (hsame : cached? α st'.cache = cached? α st.cache) :
      ∃ st'', fetchByKeys conn α batchSize keys st' = .ok (keys.filterMap T.find?) st'' := by
    refine fetchByKeys_eq_table hread hkey hhas hwidth ?_ ?_
    · rw [hsame]
      exact hcached
    · unfold missing
      rw [hsame, hdb]
      exact hserves
  cases e with
  | direct => cases htakes
  | keyThenFetch =>
      cases htakes with
      | asked hquery hkeys =>
          obtain ⟨st', hresult⟩ := @hfetch (answered st db) rfl rfl
          refine ⟨st', ?_⟩
          change withCache conn α batchSize s st = _
          unfold withCache
          rw [bind_of_ok hpasses, hkeyFetch, bind_of_ok (ofExcept_ok _ _), bind_of_ok hcompiles,
            bind_of_ok (queryKeys_of_ok hquery hkeys)]
          exact hresult
  | keyList lifetime =>
      obtain ⟨st₁, hlist, hdb, hsame⟩ := keyList_ok htakes
      obtain ⟨st', hresult⟩ := hfetch hdb hsame
      refine ⟨st', ?_⟩
      change withKeys conn α batchSize s lifetime st = _
      unfold withKeys
      rw [bind_of_ok hpasses, hkeyFetch, bind_of_ok (ofExcept_ok _ _), bind_of_ok hcompiles,
        bind_of_ok hlist]
      exact hresult

end Reading

namespace Sample
open Reading

/-- Two items. -/
def table : Table Item where
  rows := [([.integer 1], item 1 "one"), ([.integer 2], item 2 "two")]
  keyed := by
    intro p hp
    simp only [List.mem_cons, List.not_mem_nil, or_false] at hp
    rcases hp with rfl | rfl <;> rfl
  readable := by
    intro p hp
    simp only [List.mem_cons, List.not_mem_nil, or_false] at hp
    rcases hp with rfl | rfl
    · exact ⟨_, rfl⟩
    · exact ⟨_, rfl⟩
  distinct := by decide

/-- A cache with a readable row under one key and an unreadable row under another. -/
def cache : MemoryCache :=
  ((MemoryCache.new 8).storeAt (.ofRow schema.type [.integer 1])
    (.row [.integer 1, .text "one"])).storeAt (.ofRow schema.type [.integer 2]) (.row [])

/-- What the database answers to the query for keys and to two batches of one key. -/
def answers : List (List (List Value)) :=
  [[[.integer 2], [.integer 1], [.integer 3], [.integer 2]], [[.integer 2, .text "two"]], []]

/-- The row that is not readable and the one that is not there are asked for, one key after the
other, and the list of keys gets its records in its order. -/
theorem fetch_eq_items_of_keys : ∃ st',
    fetch script Item 1 { record := schema.type } .keyThenFetch ⟨answers, some cache, {}⟩ =
      .ok [item 2 "two", item 1 "one", item 2 "two"] st' := by
  have hcompile : Select.compile .sqlite { record := schema.type } = .ok
      ⟨"SELECT t0.\"item_id\" AS \"id\", t0.\"item_name\" AS \"name\" FROM \"items\" t0", []⟩ := by
    decide +kernel
  have hmissing : missing Item (some cache)
      [[.integer 2], [.integer 1], [.integer 3], [.integer 2]] =
      [[.integer 2], [.integer 3]] := by decide +kernel
  have hkeys (statement : CompiledStatement) : TakesKeys script Item statement
      ⟨answers, some cache, {}⟩ .keyThenFetch
      [[.integer 2], [.integer 1], [.integer 3], [.integer 2]] answers.tail :=
    .asked
      (show script.query statement answers = (.ok (answers.headD []), answers.tail) from rfl) rfl
  refine fetch_eq_table table rfl rfl rfl hcompile (by decide) (fun statement _ => hkeys statement)
    ?_ fun set hset => ?_
  · have hone : cached? Item (some cache) [.integer 1] = some (item 1 "one") := by decide +kernel
    have htwo : cached? Item (some cache) [.integer 2] = none := by decide +kernel
    have hthree : cached? Item (some cache) [.integer 3] = none := by decide +kernel
    intro key hkey record hrecord
    change key ∈ [[Value.integer 2], [.integer 1], [.integer 3], [.integer 2]] at hkey
    change cached? Item (some cache) key = some record at hrecord
    simp only [List.mem_cons, List.not_mem_nil, or_false] at hkey
    rcases hkey with rfl | rfl | rfl | rfl
    · rw [htwo] at hrecord
      cases hrecord
    · rw [hone] at hrecord
      rw [← hrecord]
      rfl
    · rw [hthree] at hrecord
      cases hrecord
    · rw [htwo] at hrecord
      cases hrecord
  · change KeySet.ofValues schema.type (missing Item (some cache)
      [[.integer 2], [.integer 1], [.integer 3], [.integer 2]]) = .ok set at hset
    rw [hmissing] at hset
    obtain rfl := Except.ok.inj hset
    intro _ _
    refine ⟨_, [item 2 "two"], _, rfl, rfl, .refl _, ?_⟩
    intro _ _
    exact ⟨_, [], _, rfl, rfl, .refl _, trivial⟩

end Sample

end RecordStore
