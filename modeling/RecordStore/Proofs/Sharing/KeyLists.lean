import RecordStore.Proofs.Reading.Fetch
import RecordStore.Proofs.Sharing.Freshness

/-! # Lists of keys that are taken from the cache

Reading a query by its keys may take the list of keys from the cache (`Repository.TakesKeyList`) and
goes on with it without asking the database (`Repository.TakesKeyList.find_eq`).  Such a list was
stored by reading, if it was not there from the beginning, and since then no write on the record
type of the query has succeeded; writes on other record types leave the list where it is
(`Sharing.no_write_since_keyList`).  So a list that depends on a joined table is taken although a
row has been added to it. -/

namespace RecordStore

namespace Reading

variable {σ : Type} (conn : Connection σ) (α : Type) [Record α]

/-- The query for the keys of a query, and its keys, from the cache if they are there. -/
def listKeys (s : Select) (lifetime : Lifetime) :
    Reading σ (CompiledStatement × List (List Value)) := do
  requireRecords (Record.type α) s
  ofExcept s.requireKeyFetch
  let statement ← compile conn s.keysOnly
  return (statement, ← keyList conn α statement lifetime)

/-- Reading by keys lists the keys and then fetches their records. -/
theorem withKeys_eq (batchSize : Nat) (s : Select) (lifetime : Lifetime) :
    withKeys conn α batchSize s lifetime =
      listKeys conn α s lifetime >>= fun listed => fetchByKeys conn α batchSize listed.2 := by
  unfold withKeys listKeys
  simp only [bind_assoc, pure_bind]

variable {conn α} {lifetime : Lifetime} {statement : CompiledStatement}
  {keys : List (List Value)} {st st' : ReadState σ}

/-- Keys that are asked for are not counted as cached. -/
theorem cachedQueries_of_askKeys (h : askKeys conn α statement lifetime st = .ok keys st') :
    st'.stats.cachedQueries = st.stats.cachedQueries := by
  obtain ⟨asked, st₁, hasked, h⟩ := bind_eq_ok.mp h
  cases h
  obtain ⟨rows, st₂, hquery, hasked⟩ := bind_eq_ok.mp hasked
  obtain ⟨-, rfl⟩ := ofExcept_eq_ok.mp hasked
  unfold query at hquery
  split at hquery
  · cases hquery
    rfl
  · cases hquery

/-- A list of keys that counts as cached is the one that the cache has for the query, and the
database is not asked for it. -/
theorem keyList_cached (h : keyList conn α statement lifetime st = .ok keys st')
    (hcached : st.stats.cachedQueries < st'.stats.cachedQueries) :
    st'.connection = st.connection ∧
      valueAt st.cache (.ofKeyList (Record.type α) statement) = some (.keys keys) := by
  obtain ⟨st₁, hdb, -, ⟨keys', hvalue, hlist, -⟩ | ⟨-, hlist, hstats⟩⟩ :=
    keyList_cases conn α statement lifetime st
  · rw [hlist] at h
    cases h
    exact ⟨hdb, hvalue⟩
  · rw [hlist] at h
    rw [cachedQueries_of_askKeys h, hstats] at hcached
    exact absurd hcached (Nat.lt_irrefl _)

/-- A list of keys that the cache has for the query is taken from there. -/
theorem keyList_of_value
    (hvalue : valueAt st.cache (.ofKeyList (Record.type α) statement) = some (.keys keys)) :
    ∃ st', keyList conn α statement lifetime st = .ok keys st' ∧
      st'.stats.cachedQueries = st.stats.cachedQueries + 1 := by
  obtain ⟨st₁, -, -, ⟨keys', hvalue', hlist, hcount⟩ | ⟨hnone, -, -⟩⟩ :=
    keyList_cases conn α statement lifetime st
  · rw [hvalue] at hvalue'
    cases hvalue'
    exact ⟨st₁, hlist, by rw [hcount]⟩
  · exact absurd hvalue (hnone _)

/-- Listing the keys of a query is listing those of its query for keys. -/
theorem listKeys_eq_ok {s : Select} : listKeys conn α s lifetime st = .ok (statement, keys) st' ↔
    s.record.sameAs (Record.type α) = true ∧ s.selection = .fields ∧ s.requireKeyFetch = .ok () ∧
      s.keysOnly.compile conn.dialect = .ok statement ∧
      keyList conn α statement lifetime st = .ok keys st' := by
  unfold listKeys
  constructor
  · intro h
    obtain ⟨u, st₁, hrecords, h⟩ := bind_eq_ok.mp h
    obtain ⟨hsame, hfields, rfl⟩ := requireRecords_eq_ok.mp hrecords
    obtain ⟨u', st₂, hrequire, h⟩ := bind_eq_ok.mp h
    obtain ⟨hkeyFetch, rfl⟩ := ofExcept_eq_ok.mp hrequire
    obtain ⟨compiled, st₃, hstatement, h⟩ := bind_eq_ok.mp h
    obtain ⟨hcompile, rfl⟩ := ofExcept_eq_ok.mp hstatement
    obtain ⟨listed, st₄, hkeys, h⟩ := bind_eq_ok.mp h
    cases h
    exact ⟨hsame, hfields, hkeyFetch, lift_eq_ok.mp hcompile, hkeys⟩
  · rintro ⟨hsame, hfields, hkeyFetch, hcompile, hkeys⟩
    have hrecords : requireRecords (Record.type α) s st = .ok () st :=
      requireRecords_eq_ok.mpr ⟨hsame, hfields, rfl⟩
    have hstatement : compile conn s.keysOnly st = .ok statement st :=
      ofExcept_eq_ok.mpr ⟨lift_eq_ok.mpr hcompile, rfl⟩
    rw [bind_of_ok hrecords, hkeyFetch, bind_of_ok (ofExcept_ok () st), bind_of_ok hstatement,
      bind_of_ok hkeys]
    rfl

end Reading

namespace Repository

variable {σ : Type}

/-- Finding the records of the query takes these keys from the cache, where they are kept under this
query for keys. -/
def TakesKeyList (repo : Repository σ) (α : Type) [Record α] (s : Select) (strategy : Strategy)
    (statement : CompiledStatement) (keys : List (List Value)) : Prop :=
  repo.cachingEnabled = true ∧
    ∃ lifetime, strategy.resolve s repo.cachingEnabled = .ok (.keyList lifetime) ∧
      ∃ st, Reading.listKeys repo.connection α s lifetime ⟨repo.state, repo.cache, {}⟩ =
          .ok (statement, keys) st ∧ 0 < st.stats.cachedQueries

variable {repo : Repository σ} {α : Type} [Record α] {s : Select} {strategy : Strategy}
  {statement : CompiledStatement} {keys : List (List Value)}

/-- Keys are taken from the cache where the strategy comes to a list of keys and the cache has one
under the query for the keys. -/
theorem takesKeyList_iff : repo.TakesKeyList α s strategy statement keys ↔
    repo.cachingEnabled = true ∧
      (∃ lifetime, strategy.resolve s repo.cachingEnabled = .ok (.keyList lifetime)) ∧
      s.record.sameAs (Record.type α) = true ∧ s.selection = .fields ∧
      s.keysOnly.compile repo.connection.dialect = .ok statement ∧
      Reading.valueAt repo.cache (.ofKeyList (Record.type α) statement) = some (.keys keys) := by
  constructor
  · rintro ⟨hcaching, lifetime, hresolve, st, hlist, hcached⟩
    obtain ⟨hsame, hfields, -, hcompile, hkeys⟩ := Reading.listKeys_eq_ok.mp hlist
    exact ⟨hcaching, ⟨lifetime, hresolve⟩, hsame, hfields, hcompile,
      (Reading.keyList_cached hkeys hcached).2⟩
  · rintro ⟨hcaching, ⟨lifetime, hresolve⟩, hsame, hfields, hcompile, hvalue⟩
    obtain ⟨st, hkeys, hcount⟩ :
        ∃ st, Reading.keyList repo.connection α statement lifetime
            ⟨repo.state, repo.cache, {}⟩ = .ok keys st ∧ st.stats.cachedQueries = 1 :=
      Reading.keyList_of_value hvalue
    refine ⟨hcaching, lifetime, hresolve, st, Reading.listKeys_eq_ok.mpr
      ⟨hsame, hfields, (Strategy.of_resolve hresolve nofun).1, hcompile, hkeys⟩, ?_⟩
    rw [hcount]
    exact Nat.succ_pos _

/-- Finding goes on with the keys that it has taken, before it asks the database for anything. -/
theorem TakesKeyList.find_eq (h : repo.TakesKeyList α s strategy statement keys) :
    ∃ st, st.connection = repo.state ∧ find α s strategy repo = read (fun conn _ =>
      Reading.fetchByKeys conn α (repo.config.batchSize conn.dialect) keys st) repo := by
  obtain ⟨hcaching, lifetime, hresolve, st, hlist, hcached⟩ := h
  obtain ⟨-, -, -, -, hkeys⟩ := Reading.listKeys_eq_ok.mp hlist
  refine ⟨st, (Reading.keyList_cached hkeys hcached).1, ?_⟩
  rw [find_of_resolve hresolve]
  unfold read Reading.fetch
  dsimp only
  rw [hcaching, if_pos rfl, Reading.withKeys_eq, bind_of_ok hlist]

end Repository

namespace Sharing

variable {σ : Type} (s : Sharing σ)

/-- Every repository has the values of the cache that they share. -/
theorem valueAt_repository (i : Nat) (a : CacheAddress) :
    Reading.valueAt (s.repository i).cache a = (s.cache.freshAt? a).map (·.value) := rfl

/-- Writes that leave a list of keys are on other record types if the list is alive in the end: on
its own record type they would have found it expired. -/
theorem writes_elsewhere {later : List Turn} {r : RecordType} {e : CacheEntry}
    (hcacheable : ∀ t ∈ later, ∀ r' ∈ t.call.records, r'.sameAs r = true → r'.isCacheable = true)
    (hwrites : ∀ w ∈ s.writes later, w.record.sameAs r = true →
      w.record.isCacheable = false ∨ e.isExpired w.time = true)
    (hlive : e.isExpired (s.run later).cache.now = false) :
    ∀ w ∈ s.writes later, w.record.sameAs r = false := by
  intro w hw
  by_contra hrecord
  rw [Bool.not_eq_false] at hrecord
  obtain ⟨t, ht, hrecords⟩ := exists_turn_of_write _ hw
  rcases hwrites w hw hrecord with hnot | hexpired
  · rw [hcacheable t ht _ hrecords hrecord] at hnot
    cases hnot
  · have hlater := CacheEntry.isExpired_mono (s.time_le_of_mem_writes hw) hlive
    rw [hexpired] at hlater
    cases hlater

/-- A write on another record type leaves a list of keys where it is. -/
theorem entryAt?_keyList_step {t : Turn} {w : Write} {r : RecordType}
    (hw : (s.step t).1 = some w) (hother : w.record.sameAs r = false)
    (hrows : w.record.name ≠ r.name ++ "#keys") (statement : CompiledStatement) :
    (s.step t).2.cache.entryAt? (.ofKeyList r statement) =
      s.cache.entryAt? (.ofKeyList r statement) := by
  obtain ⟨c', hwrote, hcache⟩ := step_wrote _ hw
  rw [hcache]
  exact hwrote.entryAt?_keyList_of_ne hother hrows _

/-- A list of keys that finding the records of a query takes from the cache was there from the
beginning or was stored by reading, and no write on the record type of the query has succeeded since
then.  A write on another record type leaves the list where it is. -/
theorem no_write_since_keyList (turns : List Turn) {i : Nat} {α : Type} [Record α]
    {select : Select} {strategy : Strategy} {statement : CompiledStatement}
    {keys : List (List Value)}
    (hname : ∀ t ∈ turns, ∀ r ∈ t.call.records, r.sameAs select.record = true → r = select.record)
    (htakes : ((s.run turns).repository i).TakesKeyList α select strategy statement keys) :
    (∃ e, e.value = .keys keys ∧
      ((s.cache.entryAt? (.ofKeyList (Record.type α) statement) = some e ∧
          ∀ w ∈ s.writes turns, w.record.sameAs select.record = false) ∨
        ∃ earlier t later, turns = earlier ++ t :: later ∧
          s.StoredIn earlier t (.ofKeyList (Record.type α) statement) e ∧ t.call.isRead = true ∧
          ∀ w ∈ (s.run (earlier ++ [t])).writes later,
            w.record.sameAs select.record = false)) ∧
    ∀ t w, ((s.run turns).step t).1 = some w → w.record.sameAs select.record = false →
      w.record.name ≠ select.record.name ++ "#keys" →
      ((s.run turns).step t).2.cache.entryAt? (.ofKeyList (Record.type α) statement) =
        (s.run turns).cache.entryAt? (.ofKeyList (Record.type α) statement) := by
  obtain ⟨-, ⟨lifetime, hresolve⟩, hsame, -, -, hkeys⟩ := Repository.takesKeyList_iff.mp htakes
  have hselected : select.record.name = (Record.type α).name := beq_iff_eq.mp hsame
  have hsameAs (r : RecordType) : r.sameAs select.record = r.sameAs (Record.type α) := by
    unfold RecordType.sameAs
    rw [hselected]
  simp only [hsameAs, hselected] at hname ⊢
  refine ⟨?_, fun t w hw hother hrows => entryAt?_keyList_step _ hw hother hrows statement⟩
  have hcacheable : ∀ t ∈ turns, ∀ r ∈ t.call.records, r.sameAs (Record.type α) = true →
      r.isCacheable = true := by
    intro t ht r hr hrecord
    rw [hname t ht r hr hrecord]
    exact Select.isCacheable_of_requireKeyFetch (Strategy.of_resolve hresolve nofun).1
  rw [valueAt_repository] at hkeys
  obtain ⟨e, hfresh, hvalue⟩ := Option.map_eq_some_iff.mp hkeys
  obtain ⟨he, hlive⟩ := MemoryCache.freshAt?_eq_some.mp hfresh
  refine ⟨e, hvalue, ?_⟩
  rcases s.stored_since turns he (P := fun w => w.record.sameAs (Record.type α) = true →
      w.record.isCacheable = false ∨ e.isExpired w.time = true)
      fun _ hwrote hleft _ hw => hwrote.not_isCacheable_of_keyList hw hleft hvalue with
    ⟨hstart, hwrites⟩ | ⟨earlier, t, later, rfl, hstored, hwrites⟩
  · exact .inl ⟨hstart, s.writes_elsewhere hcacheable hwrites hlive⟩
  · have hstores := hstored.2.2
    rw [hvalue] at hstores
    have hend : (s.run (earlier ++ [t])).run later = s.run (earlier ++ t :: later) := by
      rw [← run_append, List.append_assoc]
      rfl
    exact .inr ⟨earlier, t, later, rfl, hstored, (t.call.stores_keys hstores).1,
      writes_elsewhere _ (fun t' ht' => hcacheable t' (by simp [ht'])) hwrites
        (by rw [hend]; exact hlive)⟩

end Sharing

namespace Sample

/-- Sales under the number of the item. -/
def saleSchema : Schema where
  name := "Sale"
  table := some "sales"
  columns := [⟨.stored "id" "id", .integer, false⟩]
  primaryKey := ["id"]

/-- The items that have been sold. -/
def soldItems : Select where
  record := schema.type
  joins := [⟨.inner, saleSchema.type,
    .binary .eq (.col saleSchema.type "id") (.col schema.type "id")⟩]

/-- The query for their keys. -/
def soldItemsKeys : CompiledStatement where
  sql := "SELECT t0.\"item_id\" AS \"id\" FROM \"items\" t0 " ++
    "INNER JOIN \"sales\" t1 ON t1.\"id\" = t0.\"item_id\""
  bindings := []

/-- An item changes its name, the sold items are found, and an item is sold. -/
def sale : List Turn :=
  [⟨1, .update (item 1 "two"), 0⟩, ⟨0, .find Item soldItems .shortKeyList, 1000000000⟩,
   ⟨1, .insert (⟨[.integer 1]⟩ : Row saleSchema), 0⟩]

/-- The entry with the list of their keys. -/
theorem freshAt?_soldItemsKeys :
    (sharing.run sale).cache.freshAt? (.ofKeyList schema.type soldItemsKeys) =
      some ⟨.keys [[.integer 1]], 1, some 30000000000⟩ := by decide +kernel

/-- Finding the sold items again takes the list of their keys from the cache. -/
theorem takes_soldItems : ((sharing.run sale).repository 0).TakesKeyList Item soldItems .bestEffort
    soldItemsKeys [[.integer 1]] :=
  Repository.takesKeyList_iff.mpr ⟨by decide +kernel, ⟨.short, rfl⟩, rfl, rfl, rfl,
    (sharing.run sale).valueAt_repository 0 _ ▸
      Option.map_eq_some_iff.mpr ⟨_, freshAt?_soldItemsKeys, rfl⟩⟩

/-- No item has changed since the list was stored. -/
theorem no_item_since_soldItems :
    ∃ e, e.value = .keys [[.integer 1]] ∧
      ((sharing.cache.entryAt? (.ofKeyList schema.type soldItemsKeys) = some e ∧
          ∀ w ∈ sharing.writes sale, w.record.sameAs schema.type = false) ∨
        ∃ earlier t later, sale = earlier ++ t :: later ∧
          sharing.StoredIn earlier t (.ofKeyList schema.type soldItemsKeys) e ∧
          t.call.isRead = true ∧
          ∀ w ∈ (sharing.run (earlier ++ [t])).writes later,
            w.record.sameAs schema.type = false) :=
  (sharing.no_write_since_keyList sale (by decide) takes_soldItems).1

/-- The sale has succeeded since then, and the list depends on the sales. -/
theorem sale_since_soldItems :
    ((sharing.run sale).repository 0).TakesKeyList Item soldItems .bestEffort
        soldItemsKeys [[.integer 1]] ∧
      soldItems.keysOnly.compile .sqlite = .ok soldItemsKeys ∧
      ((sharing.run (sale.take 2)).writes (sale.drop 2)).map (·.record) = [saleSchema.type] :=
  ⟨takes_soldItems, rfl, rfl⟩

end Sample

end RecordStore
