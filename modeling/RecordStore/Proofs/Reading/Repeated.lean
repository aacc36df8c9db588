import RecordStore.Proofs.Cache.History
import RecordStore.Proofs.Reading.Accounts

/-! # Reading by key again

While the records of some keys are fetched, the cache keeps more and more of them: the entries of
the kept keys are among the first of their bin, with none but those of the keys that are fetched,
so that older entries of other keys are dropped before them (`Reading.Warm`).  Each step of fetching
preserves this (`Reading.Warm.cachedRecord`, `Reading.Warm.storeRecord`), and in the end all keys
are kept (`Reading.Warm.fetchByKeys`).  Fetching again asks for nothing then
(`Reading.Warm.fetch_again`), and gives the same records (`Reading.fetch_repeated`). -/

namespace RecordStore

namespace Reading

variable {σ : Type} {α : Type} [Record α]

/-! ### What the cache has under a key after an operation -/

section

variable {c : MemoryCache} {key k : List Value} {a : CacheAddress} {value : CacheValue}
  {category : CacheCategory}

theorem cached?_lookupAt (c : MemoryCache) (a : CacheAddress) :
    cached? α (some (c.lookupAt a).2) = cached? α (some c) :=
  cached?_congr fun key => by
    unfold valueAt
    rw [Option.bind_some, Option.bind_some, c.freshAt?_lookup]

/-- A record that is stored is there, if it can be read back. -/
theorem cached?_storeAt_self {record : α} {values : List Value} (hopen : c.isShutDown = false)
    (hread : Record.ofValues (Record.type α).fieldNames values = .ok record) :
    cached? α (some (c.storeAt (.ofRow (Record.type α) key) (.row values) category)) key =
      some record := by
  have hentry : (c.storeAt (.ofRow (Record.type α) key) (.row values) category).freshAt?
      (.ofRow (Record.type α) key) = some (c.entryFor (.row values) category) :=
    c.freshAt?_store_self _ hopen
  unfold cached? valueAt
  rw [Option.bind_some, hentry]
  change (Record.ofValues (Record.type α).fieldNames values : Except _ α).toOption = _
  rw [hread]
  rfl

/-- The value under another key is the one that was there, as long as there is one. -/
theorem valueAt_storeAt_ne (hne : k ≠ key) (hthere : (c.storeAt (.ofRow (Record.type α) key)
    value category).entryAt? (.ofRow (Record.type α) k) ≠ none) :
    valueAt (some (c.storeAt (.ofRow (Record.type α) key) value category))
        (.ofRow (Record.type α) k) =
      valueAt (some c) (.ofRow (Record.type α) k) := by
  obtain ⟨entry, hentry⟩ := Option.ne_none_iff_exists'.mp hthere
  have hold : c.entryAt? (.ofRow (Record.type α) k) = some entry := by
    rcases c.entryAt?_of_store _ _ hentry with ⟨heq, -⟩ | hold
    · exact absurd (congrArg CacheAddress.key heq) hne
    · exact hold
  unfold valueAt MemoryCache.freshAt?
  rw [Option.bind_some, Option.bind_some, hentry, hold, c.now_store]

/-- A record under another key was there before. -/
theorem cached?_of_storeAt_ne {record : α} (hne : k ≠ key)
    (h : cached? α (some (c.storeAt (.ofRow (Record.type α) key) value category)) k =
      some record) :
    cached? α (some c) k = some record := by
  rw [← h]
  unfold cached?
  rw [valueAt_storeAt_ne hne]
  intro hnone
  unfold cached? valueAt MemoryCache.freshAt? at h
  rw [Option.bind_some, hnone] at h
  cases h

end

/-- Looking something up in a cache that is there. -/
theorem lookupAt_of_cache {st : ReadState σ} {c : MemoryCache} (hcache : st.cache = some c)
    (a : CacheAddress) : lookupAt a st =
      .ok (valueAt (some c) a) { st with cache := some (c.lookupAt a).2 } := by
  unfold lookupAt
  rw [hcache]
  exact congrArg (EStateM.Result.ok · _) (c.lookupAt_fst a)

/-! ### Keys that are kept -/

/-- The cache, which has been changed on the way from another one, has room for the keys that are
used, has nothing wrong under them, and keeps records under some of them.  The bins of other records
are as they were. -/
structure Warm (T : Table α) (before : MemoryCache) (used kept : List (List Value))
    (c : MemoryCache) : Prop where
  isOpen : c.isShutDown = false
  room : used.length ≤ c.capacity
  keeps : (c.bin (Record.type α).rowBin).Keeps kept used
  readable : ∀ key ∈ kept, (cached? α (some c) key).isSome
  correct : ∀ key ∈ used, ∀ record, cached? α (some c) key = some record →
    T.find? key = some record
  apart : ∀ a, a.bin ≠ (Record.type α).rowBin → c.freshAt? a = before.freshAt? a

namespace Warm

variable {T : Table α} {before c : MemoryCache} {used kept : List (List Value)} {key : List Value}

theorem mono (h : Warm T before used kept c) {kept' : List (List Value)} (hsub : kept' ⊆ kept) :
    Warm T before used kept' c :=
  { h with
    keeps := h.keeps.mono hsub (List.Subset.refl used)
    readable := fun key hkey => h.readable key (hsub hkey) }

/-- The bin of the records after looking one up. -/
theorem bin_lookupAt (c : MemoryCache) (key : List Value) :
    (c.lookupAt (.ofRow (Record.type α) key)).2.bin (Record.type α).rowBin =
      (c.bin (Record.type α).rowBin).lookedUp c.now key := (c.bin_lookupAt _ _).trans (if_pos rfl)

/-- A record that the cache has is one of an entry that has not expired. -/
theorem exists_fresh (hread : (cached? α (some c) key).isSome) :
    ∃ entry, c.freshAt? (.ofRow (Record.type α) key) = some entry := by
  rw [← Option.ne_none_iff_exists']
  intro hnone
  unfold cached? valueAt at hread
  rw [Option.bind_some, hnone] at hread
  cases hread

/-- Looking up a key that is used. -/
theorem lookupAt (h : Warm T before used kept c) (hkey : key ∈ used) :
    Warm T before used kept (c.lookupAt (.ofRow (Record.type α) key)).2 := by
  have hsettings := c.settings_lookup (.ofRow (Record.type α) key)
  have hsame := cached?_lookupAt (α := α) c (.ofRow (Record.type α) key)
  exact
    { isOpen := (congrArg CacheSettings.isShutDown hsettings).trans h.isOpen
      room := Nat.le_trans h.room (Nat.le_of_eq (congrArg CacheSettings.capacity hsettings).symm)
      keeps := by
        rw [bin_lookupAt]
        refine h.keeps.lookedUp (fun _ => hkey) fun entry hentry hexpired hkept => ?_
        -- A record that is kept is found, so that its entry has not expired.
        obtain ⟨entry', hfresh⟩ := exists_fresh (h.readable key hkept)
        obtain ⟨hentry', hlive⟩ := MemoryCache.freshAt?_eq_some.mp hfresh
        rw [Option.some.inj (hentry.symm.trans hentry'), hlive] at hexpired
        cases hexpired
      readable := by
        rw [hsame]
        exact h.readable
      correct := by
        rw [hsame]
        exact h.correct
      apart := fun a ha => (c.freshAt?_lookup _ a).trans (h.apart a ha) }

/-- A record that is read is kept. -/
theorem hit (h : Warm T before used kept c) (hkey : key ∈ used)
    (hread : (cached? α (some c) key).isSome) :
    Warm T before used (key :: kept) (c.lookupAt (.ofRow (Record.type α) key)).2 := by
  obtain ⟨entry, hfresh⟩ := exists_fresh hread
  obtain ⟨hentry, hlive⟩ := MemoryCache.freshAt?_eq_some.mp hfresh
  have hsame := cached?_lookupAt (α := α) c (.ofRow (Record.type α) key)
  exact
    { h.lookupAt hkey with
      keeps := by
        have hfind : (c.bin (Record.type α).rowBin).find? key = some entry := hentry
        rw [bin_lookupAt, Bin.lookedUp_of_fresh hfind hlive]
        exact (h.keeps.touch key entry).mono (List.Subset.refl _)
          (List.cons_subset.mpr ⟨hkey, List.Subset.refl used⟩)
      readable := by
        rw [hsame]
        exact List.forall_mem_cons.mpr ⟨hread, h.readable⟩ }

/-- Removing an entry that cannot be read. -/
theorem removeAt (h : Warm T before used kept c) (hnone : cached? α (some c) key = none) :
    Warm T before used kept (c.removeAt (.ofRow (Record.type α) key)) := by
  have hsame : cached? α (some (c.removeAt (.ofRow (Record.type α) key))) = cached? α (some c) :=
    cached?_remove hnone
  have hbin : (c.removeAt (.ofRow (Record.type α) key)).bin (Record.type α).rowBin =
      (c.bin (Record.type α).rowBin).erase key := (c.bin_removeAt _ _).trans (if_pos rfl)
  exact
    { isOpen := h.isOpen
      room := h.room
      keeps := by
        rw [hbin]
        refine h.keeps.erase fun hkey => ?_
        have hread := h.readable key hkey
        rw [hnone] at hread
        cases hread
      readable := by
        rw [hsame]
        exact h.readable
      correct := by
        rw [hsame]
        exact h.correct
      apart := fun a ha => by
        rw [c.freshAt?_remove, if_neg fun heq => ha (congrArg CacheAddress.bin heq)]
        exact h.apart a ha }

/-- A record that is stored is kept, and no record that was kept is dropped for it. -/
theorem storeAt (h : Warm T before used kept c) (hkey : key ∈ used) {record : α}
    (hfind : T.find? key = some record) {values : List Value}
    (hread : Record.ofValues (Record.type α).fieldNames values = .ok record) :
    Warm T before used (key :: kept)
      (c.storeAt (.ofRow (Record.type α) key) (.row values) .record) := by
  have hsettings : (c.storeAt (.ofRow (Record.type α) key) (.row values) .record).settings =
      c.settings := c.settings_store _
  have hself : cached? α (some (c.storeAt (.ofRow (Record.type α) key) (.row values) .record)) key =
      some record := cached?_storeAt_self h.isOpen hread
  have hkeeps : ((c.storeAt (.ofRow (Record.type α) key) (.row values) .record).bin
      (Record.type α).rowBin).Keeps (key :: kept) used := by
    have hsub : key :: used ⊆ used := List.cons_subset.mpr ⟨hkey, List.Subset.refl used⟩
    have hroom : (distinct (key :: used)).length ≤ c.capacity :=
      Nat.le_trans (length_distinct_le hsub) h.room
    rw [c.bin_storeAt, if_pos ⟨rfl, h.isOpen⟩]
    exact (h.keeps.store _ hroom).mono (List.Subset.refl _) hsub
  exact
    { isOpen := (congrArg CacheSettings.isShutDown hsettings).trans h.isOpen
      room := Nat.le_trans h.room (Nat.le_of_eq (congrArg CacheSettings.capacity hsettings).symm)
      keeps := hkeeps
      readable := fun k hk => by
        by_cases hne : k = key
        · rw [hne, hself]
          rfl
        · have hkept : k ∈ kept := (List.mem_cons.mp hk).resolve_left hne
          have hthere := hkeeps.isSome_find? hk
          unfold cached?
          rw [valueAt_storeAt_ne hne (Option.isSome_iff_ne_none.mp hthere)]
          exact h.readable k hkept
      correct := fun k hk record' hrecord => by
        by_cases hne : k = key
        · rw [hne, hself] at hrecord
          rw [hne, hfind, hrecord]
        · exact h.correct k hk record' (cached?_of_storeAt_ne hne hrecord)
      apart := fun a ha => (c.freshAt?_store_of_bin_ne _ a ha).trans (h.apart a ha) }

/-! ### Steps of reading -/

section Runs

variable {conn : Connection σ} {st st' : ReadState σ}

/-- A key that has a record in the cache is kept. -/
theorem cachedRecord {cached : Option α} (hrun : Reading.cachedRecord key st = .ok cached st')
    (hcache : st.cache = some c) (h : Warm T before used kept c) (hkey : key ∈ used) :
    ∃ c', st'.cache = some c' ∧
      Warm T before used ((cached.map fun _ => key).toList ++ kept) c' := by
  unfold Reading.cachedRecord at hrun
  rw [bind_of_ok (lookupAt_of_cache hcache _)] at hrun
  cases hvalue : valueAt (some c) (.ofRow (Record.type α) key) with
  | none =>
      rw [hvalue] at hrun
      cases hrun
      exact ⟨_, rfl, h.lookupAt hkey⟩
  | some value =>
      rw [hvalue] at hrun
      cases value with
      | keys tuples =>
          cases hrun
          exact ⟨_, rfl, h.lookupAt hkey⟩
      | row values =>
          have hcached : cached? α (some c) key =
              (Record.ofValues (Record.type α).fieldNames values).toOption := by
            unfold cached?
            rw [hvalue]
          dsimp only at hrun
          cases hread : (Record.ofValues (Record.type α).fieldNames values : Except _ α) with
          | ok record =>
              rw [hread] at hrun hcached
              cases hrun
              exact ⟨_, rfl, h.hit hkey (by rw [hcached]; rfl)⟩
          | error e =>
              rw [hread] at hrun hcached
              cases hrun
              refine ⟨_, rfl, (h.lookupAt hkey).removeAt ?_⟩
              rw [cached?_lookupAt, hcached]
              rfl

/-- The keys that are found are kept. -/
theorem divide {keys missing : List (List Value)} {found : Found α}
    (hrun : Reading.divide α keys st = .ok (found, missing) st') (hcache : st.cache = some c)
    (h : Warm T before used kept c) (hkeys : keys ⊆ used) :
    ∃ c', st'.cache = some c' ∧ Warm T before used (found.map (·.1) ++ kept) c' := by
  induction keys generalizing found missing st c kept with
  | nil =>
      cases hrun
      exact ⟨c, hcache, h⟩
  | cons key keys ih =>
      obtain ⟨hkey, hrest⟩ := List.cons_subset.mp hkeys
      obtain ⟨cached, st₁, hcached, hrun⟩ := bind_eq_ok.mp hrun
      obtain ⟨c₁, hcache₁, h₁⟩ := h.cachedRecord hcached hcache hkey
      cases cached with
      | none =>
          obtain ⟨⟨found', missing'⟩, st₂, hmore, hrun⟩ := bind_eq_ok.mp hrun
          cases hrun
          exact ih hmore hcache₁ h₁ hrest
      | some record =>
          dsimp only at hrun
          rw [count_bind] at hrun
          obtain ⟨⟨found', missing'⟩, st₂, hmore, hrun⟩ := bind_eq_ok.mp hrun
          cases hrun
          obtain ⟨c', hcache', h'⟩ := ih hmore hcache₁ h₁ hrest
          exact ⟨c', hcache', h'.mono (List.perm_middle.symm.subset)⟩

variable (hback : ∀ p ∈ T.rows, ∀ values, Record.toValues p.2 = .ok values →
  Record.ofValues (Record.type α).fieldNames values = .ok p.2)
include hback

theorem storeRecord {record : α} {u : Unit}
    (hrun : Reading.storeRecord key record st = .ok u st') (hcache : st.cache = some c)
    (h : Warm T before used kept c) (hkey : key ∈ used) (hrow : (key, record) ∈ T.rows) :
    ∃ c', st'.cache = some c' ∧ Warm T before used (key :: kept) c' := by
  unfold Reading.storeRecord at hrun
  obtain ⟨has, st₁, hhas, hrun⟩ := bind_eq_ok.mp hrun
  cases hhas
  rw [hcache, Option.isSome_some, if_pos rfl] at hrun
  obtain ⟨values, st₂, hlift, hrun⟩ := bind_eq_ok.mp hrun
  obtain ⟨hvalues, rfl⟩ := ofExcept_eq_ok.mp hlift
  cases hrun
  have hfind : T.find? key = some record := (lookup_eq_some_iff_mem T.distinct).mpr hrow
  refine ⟨_, congrArg (Option.map _) hcache, h.storeAt hkey hfind ?_⟩
  exact hback _ hrow values (lift_eq_ok.mp hvalues)

/-- Every record that is collected is kept. -/
theorem collect {answer : List (List Value × α)} {found found' : Found α}
    (hrun : Reading.collect α found (answer.map (·.2)) st = .ok found' st')
    (hcache : st.cache = some c) (h : Warm T before used kept c)
    (hrows : ∀ p ∈ answer, p ∈ T.rows ∧ p.1 ∈ used) :
    ∃ c', st'.cache = some c' ∧ Warm T before used (answer.map (·.1) ++ kept) c' := by
  induction answer generalizing found st c kept with
  | nil =>
      cases hrun
      exact ⟨c, hcache, h⟩
  | cons p answer ih =>
      obtain ⟨key, record⟩ := p
      obtain ⟨⟨hrow, hkey⟩, hrest⟩ := List.forall_mem_cons.mp hrows
      obtain ⟨key', st₁, hof, hrun⟩ := bind_eq_ok.mp hrun
      obtain ⟨hkey', rfl⟩ := ofExcept_eq_ok.mp hof
      obtain rfl : key = key' := Except.ok.inj ((T.keyed _ hrow).symm.trans hkey')
      obtain ⟨_, st₂, hstore, hrun⟩ := bind_eq_ok.mp hrun
      obtain ⟨c₁, hcache₁, h₁⟩ := h.storeRecord hback hstore hcache hkey hrow
      rw [count_bind] at hrun
      obtain ⟨c', hcache', h'⟩ := ih hrun hcache₁ h₁ hrest
      exact ⟨c', hcache', h'.mono (List.perm_middle.symm.subset)⟩

/-- The keys of a batch that is served are found, and kept. -/
theorem loadBatch {batch : KeySet (Record.type α)} {rest : List (KeySet (Record.type α))}
    {found found' : Found α} (hrun : Reading.loadBatch conn α found batch st = .ok found' st')
    (hserves : conn.Serves T (batch :: rest) st.connection) (hcache : st.cache = some c)
    (h : Warm T before used kept c) (hsub : batch.tuples ⊆ used)
    (hrows : ∀ key ∈ used, (T.find? key).isSome) :
    conn.Serves T rest st'.connection ∧
      (∀ key, found'.lookup key =
        (if key ∈ batch.tuples then T.find? key else none).or (found.lookup key)) ∧
      ∃ c', st'.cache = some c' ∧ Warm T before used (batch.tuples ++ kept) c' := by
  obtain ⟨statement, st₁, hcompile, -⟩ := bind_eq_ok.mp hrun
  obtain ⟨hstatement, -⟩ := ofExcept_eq_ok.mp hcompile
  obtain ⟨answer, db, hanswer, hrest, hload⟩ :=
    loadBatch_served (lift_eq_ok.mp hstatement) hserves found
  obtain ⟨found₁, st₂, hcollect, hdb, hlookup⟩ := collect_rows hanswer found (answered st db)
  rw [hload, hcollect] at hrun
  cases hrun
  have hmem (p : List Value × α) (hp : p ∈ answer) : p ∈ T.rows ∧ p.1 ∈ batch.tuples := by
    obtain ⟨hrow, hkey⟩ := List.mem_filter.mp (hanswer.mem_iff.mp hp)
    exact ⟨hrow, of_decide_eq_true hkey⟩
  obtain ⟨c', hcache', h'⟩ := h.collect hback hcollect hcache fun p hp =>
    ⟨(hmem p hp).1, hsub (hmem p hp).2⟩
  refine ⟨by rw [hdb]; exact hrest, hlookup, c', hcache', h'.mono ?_⟩
  -- Every key of the batch has a row, which is one of the answer.
  refine List.append_subset.mpr ⟨fun key hkey => ?_, List.subset_append_right _ _⟩
  refine List.mem_append_left _ ?_
  obtain ⟨record, hrecord⟩ := Option.isSome_iff_exists.mp (hrows key (hsub hkey))
  have hrow : (key, record) ∈ T.rowsOf batch.tuples :=
    List.mem_filter.mpr ⟨mem_of_lookup_eq_some hrecord, decide_eq_true hkey⟩
  exact List.mem_map.mpr ⟨(key, record), hanswer.mem_iff.mpr hrow, rfl⟩

/-- The keys of batches that are served are found, and kept. -/
theorem loadBatches {batches : List (KeySet (Record.type α))} {found found' : Found α}
    (hrun : batches.foldlM (Reading.loadBatch conn α) found st = .ok found' st')
    (hserves : conn.Serves T batches st.connection) (hcache : st.cache = some c)
    (h : Warm T before used kept c) (hsub : batches.flatMap KeySet.tuples ⊆ used)
    (hrows : ∀ key ∈ used, (T.find? key).isSome) :
    (∀ key, found'.lookup key =
      (if key ∈ batches.flatMap KeySet.tuples then T.find? key else none).or
        (found.lookup key)) ∧
      ∃ c', st'.cache = some c' ∧
        Warm T before used (batches.flatMap KeySet.tuples ++ kept) c' := by
  induction batches generalizing found st c kept with
  | nil =>
      cases hrun
      exact ⟨fun key => rfl, c, hcache, h⟩
  | cons batch rest ih =>
      rw [List.foldlM_cons] at hrun
      rw [List.flatMap_cons] at hsub ⊢
      obtain ⟨hbatch, hmore⟩ := List.append_subset.mp hsub
      obtain ⟨found₁, st₁, hload, hrun⟩ := bind_eq_ok.mp hrun
      obtain ⟨hrest, hlookup, c₁, hcache₁, h₁⟩ :=
        h.loadBatch hback hload hserves hcache hbatch hrows
      obtain ⟨hlookup', c', hcache', h'⟩ := ih hrun hrest hcache₁ h₁ hmore
      refine ⟨fun key => by rw [hlookup', hlookup, find?_or_append], c', hcache', h'.mono ?_⟩
      intro key hkey
      simp only [List.mem_append] at hkey ⊢
      tauto

/-- The keys that are missing are found, and kept. -/
theorem loadMissing {batchSize : Nat} {missing : List (List Value)} (hnodup : missing.Nodup)
    {found found' : Found α}
    (hrun : Reading.loadMissing conn α batchSize found missing st = .ok found' st')
    (hserves : conn.ServesKeys T batchSize missing st.connection)
    (hcache : st.cache = some c) (h : Warm T before used kept c) (hsub : missing ⊆ used)
    (hrows : ∀ key ∈ used, (T.find? key).isSome) :
    (∀ key, found'.lookup key =
      (if key ∈ missing then T.find? key else none).or (found.lookup key)) ∧
      ∃ c', st'.cache = some c' ∧ Warm T before used (missing ++ kept) c' := by
  unfold Reading.loadMissing at hrun
  cases missing with
  | nil =>
      cases hrun
      exact ⟨fun key => rfl, c, hcache, h⟩
  | cons key rest =>
      change (hashOrder conn >>= _) st = _ at hrun
      rw [hashOrder_bind] at hrun
      obtain ⟨set, st₁, hof, hrun⟩ := bind_eq_ok.mp hrun
      obtain ⟨hset, rfl⟩ := ofExcept_eq_ok.mp hof
      have hmem (k : List Value) :
          k ∈ (set.chunks batchSize (conn.hashOrder st.connection)).flatMap KeySet.tuples ↔
            k ∈ key :: rest := by
        rw [set.mem_flatMap_chunks, (KeySet.perm_of_ofValues hnodup hset).mem_iff]
      obtain ⟨hlookup, c', hcache', h'⟩ := h.loadBatches hback hrun (hserves set hset) hcache
        (fun k hk => hsub ((hmem k).mp hk)) hrows
      simp only [hmem] at hlookup
      refine ⟨hlookup, c', hcache', h'.mono fun k hk => ?_⟩
      rw [List.mem_append] at hk ⊢
      exact hk.imp (hmem k).mpr id

/-- Keys that all have a row are replaced by their records, and kept. -/
theorem fetchByKeys {batchSize : Nat} {keys : List (List Value)} {fetched : List α}
    (hrun : Reading.fetchByKeys conn α batchSize keys st = .ok fetched st')
    (hserves : conn.ServesKeys T batchSize (missing α st.cache keys) st.connection)
    (hcache : st.cache = some c) (h : Warm T before (distinct keys) [] c)
    (hrows : ∀ key ∈ keys, (T.find? key).isSome) :
    fetched = keys.filterMap T.find? ∧
      ∃ c', st'.cache = some c' ∧ Warm T before (distinct keys) (distinct keys) c' := by
  have hcached : ∀ key ∈ keys, ∀ record, cached? α st.cache key = some record →
      T.find? key = some record := by
    rw [hcache]
    exact fun key hkey => h.correct key (mem_distinct.mpr hkey)
  obtain ⟨st₁, hdivide, hdb⟩ := divide_eq α (distinct keys) st
  rw [← hdb] at hserves
  unfold Reading.fetchByKeys at hrun
  rw [bind_of_ok hdivide] at hrun
  obtain ⟨found, st₂, hload, hrun⟩ := bind_eq_ok.mp hrun
  cases hrun
  obtain ⟨c₁, hcache₁, h₁⟩ := h.divide hdivide hcache (List.Subset.refl _)
  have hnodup : (missing α st.cache keys).Nodup := (nodup_distinct keys).filter _
  obtain ⟨hlookup, c', hcache', h'⟩ := h₁.loadMissing hback hnodup hload hserves hcache₁
    (List.filter_subset_self _) fun key hkey => hrows key (mem_distinct.mp hkey)
  refine ⟨filterMap_found hcached hlookup, c', hcache', h'.mono fun key hkey => ?_⟩
  -- A key has a record in the cache, or it is missing.
  rw [List.append_nil, List.mem_append]
  cases hrecord : cached? α st.cache key with
  | none => exact .inl (List.mem_filter.mpr ⟨hkey, by rw [hrecord]; rfl⟩)
  | some record =>
      refine .inr (List.mem_map.mpr ⟨(key, record), ?_, rfl⟩)
      exact List.mem_filterMap.mpr ⟨key, hkey, by rw [hrecord]; rfl⟩

end Runs

/-- Where all keys are kept, none is missing. -/
theorem missing_eq_nil {keys : List (List Value)}
    (h : Warm T before (distinct keys) (distinct keys) c) : missing α (some c) keys = [] := by
  refine List.filter_eq_nil_iff.mpr fun key hkey => ?_
  rw [Option.isNone_iff_eq_none, ← Option.not_isSome_iff_eq_none, not_not]
  exact h.readable key hkey

end Warm

/-! ### Taking the keys -/

section

variable {conn : Connection σ} {statement : CompiledStatement} {keys : List (List Value)}

theorem takeKeys_of_takesKeys {st : ReadState σ} {e : Execution} {db : σ}
    (h : TakesKeys conn α statement st e keys db) :
    ∃ st', takeKeys conn α statement e st = .ok keys st' ∧ st'.connection = db := by
  cases e with
  | direct => cases h
  | keyThenFetch =>
      cases h with
      | asked hquery hkeys => exact ⟨_, queryKeys_of_ok hquery hkeys, rfl⟩
  | keyList lifetime =>
      obtain ⟨st', hlist, hdb, -⟩ := keyList_ok h
      exact ⟨st', hlist, hdb⟩

/-- Keys that are asked for are stored in the cache as a list. -/
theorem cache_of_askKeys {st st' : ReadState σ} {lifetime : Lifetime} {c : MemoryCache}
    (hrun : askKeys conn α statement lifetime st = .ok keys st') (hcache : st.cache = some c) :
    st'.cache = some (c.storeAt (.ofKeyList (Record.type α) statement) (.keys keys)
      lifetime.category) := by
  obtain ⟨asked, st₁, hasked, hstore⟩ := bind_eq_ok.mp hrun
  cases hstore
  exact congrArg (Option.map _) ((cache_of_queryKeys hasked).trans hcache)

/-- Taking keys leaves the cache open and its room as it is; a list of keys is in the cache then. -/
theorem cache_of_takeKeys {st st' : ReadState σ} {e : Execution} {c : MemoryCache}
    (hrun : takeKeys conn α statement e st = .ok keys st') (hcache : st.cache = some c)
    (hopen : c.isShutDown = false) :
    ∃ c', st'.cache = some c' ∧ c'.isShutDown = false ∧ c'.capacity = c.capacity ∧
      ∀ lifetime, e = .keyList lifetime →
        valueAt (some c') (.ofKeyList (Record.type α) statement) = some (.keys keys) := by
  cases e with
  | direct | keyThenFetch =>
      exact ⟨c, (cache_of_queryKeys hrun).trans hcache, hopen, rfl, nofun⟩
  | keyList lifetime =>
      let looked := (c.lookupAt (.ofKeyList (Record.type α) statement)).2
      have hlook : CacheSteps (fun _ _ => True) c looked := .single (.lookup _)
      have hopen' : looked.isShutDown = false := hlook.isShutDown_eq.trans hopen
      have hask (h : askKeys conn α statement lifetime { st with cache := some looked } =
          .ok keys st') : ∃ c', st'.cache = some c' ∧ c'.isShutDown = false ∧
          c'.capacity = c.capacity ∧ ∀ lifetime', Execution.keyList lifetime = .keyList lifetime' →
            valueAt (some c') (.ofKeyList (Record.type α) statement) = some (.keys keys) := by
        have hstore : CacheSteps (fun _ _ => True) looked
            (looked.storeAt (.ofKeyList (Record.type α) statement) (.keys keys)
              lifetime.category) := .single (.store trivial)
        refine ⟨_, cache_of_askKeys h rfl, hstore.isShutDown_eq.trans hopen',
          hstore.capacity_eq.trans hlook.capacity_eq, fun _ _ => ?_⟩
        unfold valueAt
        rw [Option.bind_some, MemoryCache.freshAt?_store_self _ _ hopen']
        rfl
      rw [takeKeys_keyList] at hrun
      unfold keyList at hrun
      rw [bind_of_ok (lookupAt_of_cache hcache _)] at hrun
      cases hvalue : valueAt (some c) (.ofKeyList (Record.type α) statement) with
      | none =>
          rw [hvalue] at hrun
          exact hask hrun
      | some value =>
          rw [hvalue] at hrun
          cases value with
          | row values => exact hask hrun
          | keys tuples =>
              cases hrun
              refine ⟨_, rfl, hopen', hlook.capacity_eq, fun _ _ => ?_⟩
              rw [← hvalue]
              unfold valueAt
              rw [Option.bind_some, Option.bind_some, c.freshAt?_lookup]

end

/-! ### Fetching again -/

/-- Keys that all have a record in the cache are replaced by their records, and nothing is asked. -/
theorem fetchByKeys_of_cached {T : Table α} {conn : Connection σ} {keys : List (List Value)}
    {st : ReadState σ} (hmissing : missing α st.cache keys = [])
    (hcached : ∀ key ∈ keys, ∀ record, cached? α st.cache key = some record →
      T.find? key = some record) (batchSize : Nat) :
    ∃ st', fetchByKeys conn α batchSize keys st = .ok (keys.filterMap T.find?) st' ∧
      st'.connection = st.connection := by
  obtain ⟨st₁, hdivide, hdb⟩ := divide_eq α (distinct keys) st
  have hnone : ((distinct keys).filter fun key => (cached? α st.cache key).isNone) = [] := hmissing
  rw [hnone] at hdivide
  have hfound : (keys.filterMap fun key => List.lookup key
      ((distinct keys).filterMap fun key => (cached? α st.cache key).map (key, ·))) =
      keys.filterMap T.find? :=
    filterMap_found hcached fun key => by rw [hmissing]; rfl
  unfold fetchByKeys
  rw [bind_of_ok hdivide, ← hfound]
  exact ⟨_, rfl, hdb⟩

/-- Where all keys have a record in the cache, reading by keys asks for the keys at most. -/
theorem fetch_of_cached {T : Table α} {conn : Connection σ} {s : Select} {e : Execution}
    (he : e ≠ .direct) (hrecord : s.record.sameAs (Record.type α) = true)
    (hfields : s.selection = .fields) (hkeyFetch : s.requireKeyFetch = .ok ())
    {statement : CompiledStatement} (hstatement : s.keysOnly.compile conn.dialect = .ok statement)
    {st : ReadState σ} {keys : List (List Value)} {db : σ}
    (htakes : TakesKeys conn α statement st e keys db) (hmissing : missing α st.cache keys = [])
    (hcached : ∀ key ∈ keys, ∀ record, cached? α st.cache key = some record →
      T.find? key = some record) (batchSize : Nat) :
    ∃ st', fetch conn α batchSize s e st = .ok (keys.filterMap T.find?) st' ∧
      st'.connection = db := by
  obtain ⟨st₁, htake, hdb⟩ := takeKeys_of_takesKeys htakes
  have hsame := cached?_of_takeKeys htake
  have hmissing₁ : missing α st₁.cache keys = [] := by
    unfold missing
    rw [hsame]
    exact hmissing
  rw [← hsame] at hcached
  obtain ⟨st', hfetch, hdb'⟩ := fetchByKeys_of_cached hmissing₁ hcached batchSize
  exact ⟨st', (fetch_eq_ok he).mpr ⟨hrecord, hfields, hkeyFetch, statement, keys, st₁, hstatement,
    htake, hfetch⟩, hdb'.trans hdb⟩

/-- The second cache is the first one some time later, and nothing has expired in the meantime. -/
def Lasts : Option MemoryCache → Option MemoryCache → Prop :=
  Option.Rel fun c c' => ∃ elapsed, c.FreshFor elapsed ∧ c' = c.later elapsed

theorem Lasts.refl (cache : Option MemoryCache) : Lasts cache cache := by
  cases cache with
  | none => exact .none
  | some c => exact .some ⟨0, fun _ _ he => (MemoryCache.freshAt?_eq_some.mp he).2, rfl⟩

theorem Lasts.valueAt_eq {cache cache' : Option MemoryCache} (h : Lasts cache cache')
    (a : CacheAddress) : valueAt cache' a = valueAt cache a := by
  cases h with
  | none => rfl
  | some h =>
      obtain ⟨elapsed, hfresh, rfl⟩ := h
      exact congrArg (Option.map (·.value)) (hfresh.freshAt?_later a)

/-- Reading the records of a query by key once more gives the same records and costs the query for
its keys, or nothing where the list of keys is cached: for keys that all have a row, a cache that is
not shut down and has room for the records of the distinct keys, whatever else it held before, and
records that are read back as they were stored.  Time may pass in between, as long as nothing
expires. -/
theorem fetch_repeated (conn : Connection σ) (T : Table α)
    (hback : ∀ p ∈ T.rows, ∀ values, Record.toValues p.2 = .ok values →
      Record.ofValues (Record.type α).fieldNames values = .ok p.2)
    {s : Select} {e : Execution} (he : e ≠ .direct) {batchSize : Nat} {st st₁ : ReadState σ}
    {c : MemoryCache} (hcache : st.cache = some c) (hopen : c.isShutDown = false)
    {keys : List (List Value)} {db : σ}
    (htakes : ∀ statement, s.keysOnly.compile conn.dialect = .ok statement →
      TakesKeys conn α statement st e keys db)
    (hrows : ∀ key ∈ keys, (T.find? key).isSome) (hroom : (distinct keys).length ≤ c.capacity)
    (hcached : ∀ key ∈ keys, ∀ record, cached? α st.cache key = some record →
      T.find? key = some record)
    (hserves : conn.ServesKeys T batchSize (missing α st.cache keys) db)
    {fetched : List α} (hrun : fetch conn α batchSize s e st = .ok fetched st₁) :
    (e = .keyThenFetch → ∀ (st₂ : ReadState (σ × List Exchange)) statement rows db₂,
      Lasts st₁.cache st₂.cache → s.keysOnly.compile conn.dialect = .ok statement →
      conn.query statement st₂.connection.1 = (.ok rows, db₂) →
      rows.mapM (Record.normalizeKey α) = .ok keys →
      ∃ st₃, fetch conn.recorded α batchSize s e st₂ = .ok fetched st₃ ∧
        st₃.connection.2 = st₂.connection.2 ++ [.query statement (.ok rows)]) ∧
    (∀ lifetime, e = .keyList lifetime → ∀ st₂ : ReadState (σ × List Exchange),
      Lasts st₁.cache st₂.cache →
      ∃ st₃, fetch conn.recorded α batchSize s e st₂ = .ok fetched st₃ ∧
        st₃.connection.2 = st₂.connection.2) := by
  obtain ⟨hrecord, hfields, hkeyFetch, statement, keys', st', hstatement, htake, hfetch⟩ :=
    (fetch_eq_ok he).mp hrun
  have htakes := htakes statement hstatement
  obtain ⟨st'', htake', hdb⟩ := takeKeys_of_takesKeys htakes
  rw [htake] at htake'
  cases htake'
  have hsame := cached?_of_takeKeys htake
  obtain ⟨c', hcache', hopen', hcapacity, hlist⟩ := cache_of_takeKeys htake hcache hopen
  have hcold : Warm T c' (distinct keys) [] c' :=
    { isOpen := hopen'
      room := by rw [hcapacity]; exact hroom
      keeps := .none
      readable := nofun
      correct := fun key hkey => by
        rw [← hcache', hsame]
        exact hcached key (mem_distinct.mp hkey)
      apart := fun _ _ => rfl }
  have hserves' : conn.ServesKeys T batchSize (missing α st'.cache keys) st'.connection := by
    unfold missing
    rw [hsame, hdb]
    exact hserves
  obtain ⟨rfl, c₁, hcache₁, hwarm⟩ := hcold.fetchByKeys hback hfetch hserves' hcache' hrows
  -- Whichever keys the second run takes, it finds them all in the cache.
  have hagain (st₂ : ReadState (σ × List Exchange)) (hst₂ : Lasts st₁.cache st₂.cache)
      {db₂ : σ × List Exchange} (htakes₂ : TakesKeys conn.recorded α statement st₂ e keys db₂) :
      ∃ st₃, fetch conn.recorded α batchSize s e st₂ = .ok (keys.filterMap T.find?) st₃ ∧
        st₃.connection = db₂ := by
    have hsame₂ : cached? α st₂.cache = cached? α (some c₁) := by
      rw [← hcache₁]
      exact cached?_congr fun key => hst₂.valueAt_eq _
    have hstatement₂ : s.keysOnly.compile conn.recorded.dialect = .ok statement := hstatement
    refine fetch_of_cached he hrecord hfields hkeyFetch hstatement₂ htakes₂ ?_ ?_ batchSize
    · unfold missing
      rw [hsame₂]
      exact hwarm.missing_eq_nil
    · rw [hsame₂]
      exact fun key hkey => hwarm.correct key (mem_distinct.mpr hkey)
  constructor
  · rintro rfl st₂ statement₂ rows db₂ hst₂ hstatement₂ hquery hkeys
    rw [hstatement] at hstatement₂
    cases hstatement₂
    have hasked : conn.recorded.query statement st₂.connection =
        (.ok rows, db₂, st₂.connection.2 ++ [.query statement (.ok rows)]) := by
      rw [conn.recorded_query statement st₂.connection.1 st₂.connection.2, hquery]
    obtain ⟨st₃, hfetch₂, hdb₂⟩ := hagain st₂ hst₂ (.asked hasked hkeys)
    exact ⟨st₃, hfetch₂, congrArg Prod.snd hdb₂⟩
  · rintro lifetime rfl st₂ hst₂
    have hvalue : valueAt st₂.cache (.ofKeyList (Record.type α) statement) = some (.keys keys) := by
      rw [hst₂.valueAt_eq, hcache₁, ← hlist lifetime rfl]
      unfold valueAt
      rw [Option.bind_some, Option.bind_some,
        hwarm.apart _ (Record.type α).rowBin_ne_keyListBin.symm]
    obtain ⟨st₃, hfetch₂, hdb₂⟩ := hagain st₂ hst₂ (.cached hvalue htakes.width)
    exact ⟨st₃, hfetch₂, congrArg Prod.snd hdb₂⟩

end Reading

namespace Sample
open Reading

/-- The items of the table are read back as they are stored. -/
theorem table_read_back : ∀ p ∈ table.rows, ∀ values, Record.toValues p.2 = .ok values →
    Record.ofValues (Record.type Item).fieldNames values = .ok p.2 := by
  intro p hp values hvalues
  change p ∈ [([Value.integer 1], item 1 "one"), ([.integer 2], item 2 "two")] at hp
  simp only [List.mem_cons, List.not_mem_nil, or_false] at hp
  rcases hp with rfl | rfl <;> cases hvalues <;> rfl

/-- A cache with room for two rows, which holds an item of the table and one that is not there. -/
def fullCache : MemoryCache :=
  ((MemoryCache.new 2).storeAt (.ofRow schema.type [.integer 1])
    (.row [.integer 1, .text "one"])).storeAt (.ofRow schema.type [.integer 9])
    (.row [.integer 9, .text "nine"])

/-- What the database answers to a query for keys and to a batch of one key. -/
def fewAnswers : List (List (List Value)) :=
  [[[.integer 2], [.integer 1], [.integer 2]], [[.integer 2, .text "two"]]]

/-- The other item is dropped for one of the table, and then both items of the table are in the
cache. -/
theorem fetch_items_repeated : ∃ st₁ st₂,
    fetch script Item 1 { record := schema.type } .keyThenFetch ⟨fewAnswers, some fullCache, {}⟩ =
        .ok [item 2 "two", item 1 "one", item 2 "two"] st₁ ∧
      fetch script.recorded Item 1 { record := schema.type } .keyThenFetch
          ⟨(fewAnswers, []), st₁.cache, {}⟩ =
        .ok [item 2 "two", item 1 "one", item 2 "two"] st₂ ∧
      st₂.connection.2.length = 1 := by
  have hreturned : returned (fetch script Item 1 { record := schema.type } .keyThenFetch
      ⟨fewAnswers, some fullCache, {}⟩) = some [item 2 "two", item 1 "one", item 2 "two"] := by
    decide +kernel
  obtain ⟨st₁, hrun⟩ := exists_of_returned hreturned
  have hmissing : missing Item (some fullCache) [[.integer 2], [.integer 1], [.integer 2]] =
      [[.integer 2]] := by decide +kernel
  have hstatement : Select.compile .sqlite { record := schema.type, selection := .keys } = .ok
      ⟨"SELECT t0.\"item_id\" AS \"id\" FROM \"items\" t0", []⟩ := by decide +kernel
  have hright : ∀ key ∈ [[Value.integer 2], [.integer 1], [.integer 2]],
      cached? Item (some fullCache) key = none ∨
        cached? Item (some fullCache) key = table.find? key := by decide +kernel
  obtain ⟨st₂, hagain, hasked⟩ := (fetch_repeated script table table_read_back
    Execution.noConfusion rfl rfl
    (fun statement _ => .asked (show script.query statement fewAnswers =
      (.ok (fewAnswers.headD []), fewAnswers.tail) from rfl) rfl)
    (by decide +kernel) (by decide +kernel)
    (fun key hkey record hrecord => by
      rcases hright key hkey with hnone | hsame
      · rw [show cached? Item (some fullCache) key = some record from hrecord] at hnone
        cases hnone
      · exact hsame.symm.trans hrecord)
    (fun set hset => by
      change KeySet.ofValues schema.type (missing Item (some fullCache)
        [[.integer 2], [.integer 1], [.integer 2]]) = .ok set at hset
      rw [hmissing] at hset
      obtain rfl := Except.ok.inj hset
      intro _ _
      exact ⟨_, [item 2 "two"], _, rfl, rfl, .refl _, trivial⟩)
    hrun).1 rfl ⟨(fewAnswers, []), st₁.cache, {}⟩ _ _ _ (.refl _) hstatement rfl rfl
  refine ⟨st₁, st₂, hrun, hagain, ?_⟩
  rw [hasked]
  rfl

/-- An item that does not show its name, and refuses what it shows instead. -/
structure Masked where
  id : Int64
deriving DecidableEq

instance : Record Masked where
  type := schema.type
  blank := ⟨0⟩
  get m field := match field with
    | "id" => .ok (.integer m.id)
    | "name" => .ok (.text "***")
    | _ => .error (.unknownField "Item" field)
  set m field v := match field, v with
    | "id", .integer id => .ok ⟨id⟩
    | "name", .text "***" => .error (.typeMismatch .text v)
    | "name", _ => .ok m
    | _, _ => .error (.unknownField "Item" field)

/-- One masked item. -/
def maskedTable : Table Masked where
  rows := [([.integer 1], ⟨1⟩)]
  keyed := by
    intro p hp
    rw [List.mem_singleton.mp hp]
    rfl
  readable := by
    intro p hp
    rw [List.mem_singleton.mp hp]
    exact ⟨_, rfl⟩
  distinct := by decide

/-- The row of the table that has the key is asked for by two readings, one after the other,
although the cache has room for it and nothing wrong under its key. -/
structure AskedTwice {α : Type} [Record α] (T : Table α) (c : MemoryCache) (key : List Value)
    (row : List Value) : Prop where
  found : (T.find? key).isSome
  room : 1 ≤ c.capacity
  unread : cached? α (some c) key = none
  served : script.ServesKeys T 1 [key] [[row]]
  asked : ∃ fetched st₁ st₂,
    fetch script α 1 { record := schema.type } .keyThenFetch ⟨[[key], [row]], some c, {}⟩ =
        .ok fetched st₁ ∧
      fetch script.recorded α 1 { record := schema.type } .keyThenFetch
          ⟨([[key], [row]], []), st₁.cache, {}⟩ = .ok fetched st₂ ∧
      st₂.connection.2.length = 2

theorem AskedTwice.of_runs {α : Type} [Record α] {T : Table α} {c : MemoryCache}
    {key row : List Value} {fetched : List α} (hfound : (T.find? key).isSome)
    (hroom : 1 ≤ c.capacity) (hunread : cached? α (some c) key = none)
    (hserved : script.ServesKeys T 1 [key] [[row]])
    (hfirst : returned (fetch script α 1 { record := schema.type } .keyThenFetch
      ⟨[[key], [row]], some c, {}⟩) = some fetched)
    (hsecond : returned (fetch script.recorded α 1 { record := schema.type } .keyThenFetch
      ⟨([[key], [row]], []), (finalState (fetch script α 1 { record := schema.type } .keyThenFetch
        ⟨[[key], [row]], some c, {}⟩)).cache, {}⟩) = some fetched)
    (hasked : (finalState (fetch script.recorded α 1 { record := schema.type } .keyThenFetch
      ⟨([[key], [row]], []), (finalState (fetch script α 1 { record := schema.type } .keyThenFetch
        ⟨[[key], [row]], some c, {}⟩)).cache, {}⟩)).connection.2.length = 2) :
    AskedTwice T c key row := by
  obtain ⟨st₁, hrun₁⟩ := exists_of_returned hfirst
  rw [hrun₁] at hsecond hasked
  obtain ⟨st₂, hrun₂⟩ := exists_of_returned hsecond
  rw [hrun₂] at hasked
  exact ⟨hfound, hroom, hunread, hserved, fetched, st₁, st₂, hrun₁, hrun₂, hasked⟩

/-- Nothing is kept in a cache that is shut down, and what cannot be read back is not found again.
-/
theorem items_asked_twice :
    AskedTwice table (MemoryCache.new 8).shutdown [.integer 1] [.integer 1, .text "one"] ∧
      AskedTwice maskedTable (MemoryCache.new 8) [.integer 1] [.integer 1, .text "one"] := by
  constructor
  · refine .of_runs (by decide +kernel) (by decide) (by decide +kernel) (fun set hset => ?_)
      (show _ = some [item 1 "one"] by decide +kernel) (by decide +kernel) (by decide +kernel)
    obtain rfl := Except.ok.inj hset
    intro _ _
    exact ⟨_, [item 1 "one"], _, rfl, rfl, .refl _, trivial⟩
  · refine .of_runs (by decide +kernel) (by decide) (by decide +kernel) (fun set hset => ?_)
      (show _ = some [(⟨1⟩ : Masked)] by decide +kernel) (by decide +kernel) (by decide +kernel)
    obtain rfl := Except.ok.inj hset
    intro _ _
    exact ⟨_, [⟨1⟩], _, rfl, rfl, .refl _, trivial⟩

end Sample

end RecordStore
