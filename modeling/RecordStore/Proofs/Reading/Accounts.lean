import RecordStore.Proofs.Reading.Recorded

/-! # What reading by key costs

What a successful run over a connection with a list has cost is the questions it has added to the
list and what it has added to the counts (`Reading.Spends`); one after the other, runs cost what
they cost together (`Reading.Spends.trans`).  Taking the keys costs one question, or none where the
list of keys is in the cache (`Reading.takeKeys_spends`), and the keys without a readable record in
the cache are asked for in batches, each of them in one (`Reading.loadMissing_spends`).
`Reading.fetch_accounts` adds this up. -/

namespace RecordStore

/-! ### Counts -/

/-- The counts of two runs together. -/
def ReadStats.plus (s t : ReadStats) : ReadStats where
  cachedRecords := s.cachedRecords + t.cachedRecords
  uncachedRecords := s.uncachedRecords + t.uncachedRecords
  cachedQueries := s.cachedQueries + t.cachedQueries
  uncachedQueries := s.uncachedQueries + t.uncachedQueries

theorem ReadStats.plus_assoc (s t u : ReadStats) : (s.plus t).plus u = s.plus (t.plus u) := by
  simp only [plus, Nat.add_assoc]

namespace Exchange

/-- The rows of an answered query. -/
def rows : Exchange → List (List Value)
  | query _ (.ok rows) => rows
  | _ => []

/-- The question is the query for the records of these keys, and it was answered. -/
def Loads (dialect : Dialect) {r : RecordType} (batch : KeySet r) (e : Exchange) : Prop :=
  ∃ statement rows, batch.select.compile dialect = .ok statement ∧ e = .query statement (.ok rows)

end Exchange

namespace Reading

variable {σ β γ : Type}

/-! ### Steps that cost nothing -/

/-- However the step ends, nothing was asked and nothing was counted. -/
def Free (x : Reading σ β) : Prop :=
  RecordStore.Within (fun st st' => st'.connection = st.connection ∧ st'.stats = st.stats) x

theorem Free.of_unchanged {x : Reading σ β} (h : ∀ st, (finalState (x st)).connection =
    st.connection ∧ (finalState (x st)).stats = st.stats) : Free x := h

theorem Free.pure (b : β) : Free (Pure.pure b : Reading σ β) := fun _ => ⟨rfl, rfl⟩

theorem Free.bind {x : Reading σ β} {f : β → Reading σ γ} (hx : Free x) (hf : ∀ b, Free (f b)) :
    Free (x >>= f) :=
  RecordStore.Within.bind (fun _ _ _ h h' => ⟨h'.1.trans h.1, h'.2.trans h.2⟩) hx hf

theorem Free.ofExcept_bind (x : Except StoreError β) {f : β → Reading σ γ} (h : ∀ b, Free (f b)) :
    Free (MonadExcept.ofExcept x >>= f) :=
  RecordStore.Within.ofExcept_bind (fun _ => ⟨rfl, rfl⟩) x fun b _ => h b

theorem lookupAt_free (a : CacheAddress) : Free (lookupAt a : Reading σ _) := by
  intro st
  obtain ⟨st', hlookup, hdb, hstats, -⟩ := lookupAt_eq a st
  rw [hlookup]
  exact ⟨hdb, hstats⟩

theorem modifyCache_free (f : MemoryCache → MemoryCache) :
    Free (modifyCache f : Reading σ Unit) := fun _ => ⟨rfl, rfl⟩

variable {α : Type} [Record α]

theorem cachedRecord_free (key : List Value) : Free (cachedRecord key : Reading σ (Option α)) := by
  unfold cachedRecord
  refine (lookupAt_free _).bind fun value => ?_
  cases value with
  | none => exact .pure none
  | some value =>
      cases value with
      | keys tuples => exact .pure none
      | row values =>
          dsimp only
          split
          · exact .pure _
          · exact (modifyCache_free _).bind fun _ => .pure none

theorem storeRecord_free (key : List Value) (record : α) :
    Free (storeRecord key record : Reading σ Unit) := by
  unfold storeRecord
  refine Free.bind (fun st => ⟨rfl, rfl⟩) fun has => ?_
  cases has with
  | false => exact .pure _
  | true => exact Free.ofExcept_bind _ fun values => modifyCache_free _

/-! ### What a run has cost -/

/-- From the one state to the other these questions were added to the list, and this to the counts.
-/
structure Spends (st st' : ReadState (σ × List Exchange)) (asked : List Exchange)
    (counted : ReadStats) : Prop where
  log : st'.connection.2 = st.connection.2 ++ asked
  stats : st'.stats = st.stats.plus counted

namespace Spends

variable {st st' st'' : ReadState (σ × List Exchange)} {asked asked' : List Exchange}
  {counted counted' : ReadStats}

theorem refl (st : ReadState (σ × List Exchange)) : Spends st st [] {} :=
  ⟨(List.append_nil _).symm, rfl⟩

theorem trans (h : Spends st st' asked counted) (h' : Spends st' st'' asked' counted') :
    Spends st st'' (asked ++ asked') (counted.plus counted') where
  log := by rw [h'.log, h.log, List.append_assoc]
  stats := by rw [h'.stats, h.stats, ReadStats.plus_assoc]

/-- A step that costs nothing may come before. -/
theorem after_free {x : Reading (σ × List Exchange) β} (hx : Free x) {b : β} (h : x st = .ok b st')
    (h' : Spends st' st'' asked counted) : Spends st st'' asked counted := by
  have hst := hx st
  rw [h] at hst
  refine ⟨?_, ?_⟩
  · rw [h'.log, show st'.connection = st.connection from hst.1]
  · rw [h'.stats, show st'.stats = st.stats from hst.2]

/-- What is counted is counted, and nothing else happens. -/
theorem of_count (st : ReadState (σ × List Exchange)) (counted : ReadStats) :
    Spends st { st with stats := st.stats.plus counted } [] counted :=
  ⟨(List.append_nil _).symm, rfl⟩

end Spends

section Runs

variable (conn : Connection σ) {st st' : ReadState (σ × List Exchange)}

/-- Every record that is found in the cache is counted. -/
theorem divide_spends {keys missing : List (List Value)} {found : Found α}
    (h : divide α keys st = .ok (found, missing) st') :
    Spends st st' [] { cachedRecords := found.length } := by
  induction keys generalizing found missing st with
  | nil =>
      cases h
      exact .refl _
  | cons key keys ih =>
      obtain ⟨cached, st₁, hcached, h⟩ := bind_eq_ok.mp h
      refine .after_free (cachedRecord_free key) hcached ?_
      cases cached with
      | none =>
          obtain ⟨⟨found', missing'⟩, st₂, hrest, h⟩ := bind_eq_ok.mp h
          cases h
          exact ih hrest
      | some record =>
          dsimp only at h
          rw [count_bind] at h
          obtain ⟨⟨found', missing'⟩, st₂, hrest, h⟩ := bind_eq_ok.mp h
          cases h
          have hall := (Spends.of_count st₁ { cachedRecords := 1 }).trans (ih hrest)
          simpa [ReadStats.plus, Nat.add_comm] using hall

/-- Every record that is loaded is counted. -/
theorem collect_spends {found found' : Found α} {loaded : List α}
    (h : collect α found loaded st = .ok found' st') :
    Spends st st' [] { uncachedRecords := loaded.length } := by
  induction loaded generalizing found st with
  | nil =>
      cases h
      exact .refl _
  | cons record rest ih =>
      obtain ⟨key, st₁, hkey, h⟩ := bind_eq_ok.mp h
      obtain ⟨-, rfl⟩ := ofExcept_eq_ok.mp hkey
      obtain ⟨_, st₂, hstore, h⟩ := bind_eq_ok.mp h
      refine .after_free (storeRecord_free key record) hstore ?_
      rw [count_bind] at h
      have hall := (Spends.of_count st₂ { uncachedRecords := 1 }).trans (ih h)
      simpa [ReadStats.plus, Nat.add_comm] using hall

theorem query_spends {statement : CompiledStatement} {rows : List (List Value)}
    (h : query conn.recorded statement st = .ok rows st') :
    Spends st st' [.query statement (.ok rows)] { uncachedQueries := 1 } := by
  refine ⟨(query_recorded_eq_ok conn h).2, ?_⟩
  unfold query at h
  split at h <;> cases h
  rfl

/-- A batch costs one question and counts the rows of its answer. -/
theorem loadBatch_spends {found found' : Found α} {batch : KeySet (Record.type α)}
    (h : loadBatch conn.recorded α found batch st = .ok found' st') :
    ∃ load : Exchange, load.Loads conn.dialect batch ∧
      Spends st st' [load] { uncachedQueries := 1, uncachedRecords := load.rows.length } := by
  obtain ⟨statement, st₁, hcompile, h⟩ := bind_eq_ok.mp h
  obtain ⟨hstatement, rfl⟩ := ofExcept_eq_ok.mp hcompile
  obtain ⟨rows, st₂, hquery, h⟩ := bind_eq_ok.mp h
  obtain ⟨loaded, st₃, hloaded, h⟩ := bind_eq_ok.mp h
  obtain ⟨hrows, rfl⟩ := ofExcept_eq_ok.mp hloaded
  refine ⟨.query statement (.ok rows), ⟨statement, rows, lift_eq_ok.mp hstatement, rfl⟩, ?_⟩
  have hall := (query_spends conn hquery).trans (collect_spends h)
  rw [except_mapM_length hrows] at hall
  simpa [ReadStats.plus, Exchange.rows] using hall

/-- Batches cost one question each. -/
theorem loadBatches_spends {found found' : Found α} {batches : List (KeySet (Record.type α))}
    (h : batches.foldlM (loadBatch conn.recorded α) found st = .ok found' st') :
    ∃ loads : List Exchange,
      List.Forall₂ (fun batch load => load.Loads conn.dialect batch) batches loads ∧
      Spends st st' loads { uncachedQueries := loads.length
                            uncachedRecords := (loads.flatMap Exchange.rows).length } := by
  induction batches generalizing found st with
  | nil =>
      cases h
      exact ⟨[], .nil, .refl _⟩
  | cons batch rest ih =>
      rw [List.foldlM_cons] at h
      obtain ⟨found₁, st₁, hload, h⟩ := bind_eq_ok.mp h
      obtain ⟨load, hloads, hone⟩ := loadBatch_spends conn hload
      obtain ⟨loads, hrest, hmore⟩ := ih h
      refine ⟨load :: loads, .cons hloads hrest, ?_⟩
      simpa [ReadStats.plus, Nat.add_comm] using hone.trans hmore

variable (α) in
/-- These batches of the missing keys are asked for, each with one query: no more of them than are
needed, none of them empty or too large, and each missing key in one of them. -/
structure LoadedInBatches (dialect : Dialect) (batchSize : Nat) (missing : List (List Value))
    (batches : List (KeySet (Record.type α))) (loads : List Exchange) : Prop where
  loaded : List.Forall₂ (fun batch load => Exchange.Loads dialect batch load) batches loads
  length : loads.length = (missing.length + batchSize - 1) / batchSize
  sizes : ∀ batch ∈ batches, 1 ≤ batch.size ∧ batch.size ≤ batchSize
  once : ∀ key, batches.countP (fun batch => decide (key ∈ batch.tuples)) =
    if key ∈ missing then 1 else 0

/-- Keys that are missing cost one question for each batch, and count as cached if there are none.
-/
theorem loadMissing_spends {batchSize : Nat} (hbatch : 0 < batchSize) {found found' : Found α}
    {missing : List (List Value)} (hnodup : missing.Nodup)
    (h : loadMissing conn.recorded α batchSize found missing st = .ok found' st') :
    ∃ batches loads, LoadedInBatches α conn.dialect batchSize missing batches loads ∧
      Spends st st' loads { uncachedQueries := loads.length
                            uncachedRecords := (loads.flatMap Exchange.rows).length
                            cachedQueries := if missing = [] then 1 else 0 } := by
  unfold loadMissing at h
  cases missing with
  | nil =>
      cases h
      refine ⟨[], [], ⟨.nil, ?_, nofun, fun _ => rfl⟩, .of_count st { cachedQueries := 1 }⟩
      exact (Nat.div_eq_of_lt (by rw [List.length_nil]; omega)).symm
  | cons key rest =>
      change (hashOrder conn.recorded >>= _) st = _ at h
      rw [hashOrder_bind] at h
      obtain ⟨set, st₁, hvalues, h⟩ := bind_eq_ok.mp h
      obtain ⟨hset, rfl⟩ := ofExcept_eq_ok.mp hvalues
      obtain ⟨loads, hloads, hspends⟩ := loadBatches_spends conn h
      have htuples := KeySet.perm_of_ofValues hnodup hset
      have hparted := set.isParted_chunks batchSize (conn.recorded.hashOrder st.connection)
      rw [Nat.max_eq_left hbatch] at hparted
      refine ⟨_, loads, ⟨hloads, ?_, ?_, ?_⟩, hspends⟩
      · rw [← hloads.length_eq, set.length_chunks _ hbatch, htuples.length_eq]
      · exact fun batch hmem => ⟨hparted.filled batch hmem, hparted.bounded batch hmem⟩
      · intro k
        rw [set.countP_chunks]
        simp only [htuples.mem_iff]

/-- Every key is found in the cache or missing. -/
theorem length_divided {β : Type} (f : List Value → Option β) (keys : List (List Value)) :
    (keys.filterMap fun key => (f key).map (key, ·)).length =
      keys.length - (keys.filter fun key => (f key).isNone).length := by
  have hsum : (keys.filterMap fun key => (f key).map (key, ·)).length +
      (keys.filter fun key => (f key).isNone).length = keys.length := by
    induction keys with
    | nil => rfl
    | cons key keys ih =>
        cases hf : f key <;> simp [hf] <;> omega
  omega

/-- The keys without a readable record in the cache are loaded in batches, the others are counted.
-/
theorem fetchByKeys_spends {batchSize : Nat} (hbatch : 0 < batchSize)
    {keys : List (List Value)} {fetched : List α}
    (h : fetchByKeys conn.recorded α batchSize keys st = .ok fetched st') :
    ∃ batches loads,
      LoadedInBatches α conn.dialect batchSize (missing α st.cache keys) batches loads ∧
      Spends st st' loads
        { cachedRecords := (distinct keys).length - (missing α st.cache keys).length
          uncachedQueries := loads.length
          uncachedRecords := (loads.flatMap Exchange.rows).length
          cachedQueries := if missing α st.cache keys = [] then 1 else 0 } := by
  obtain ⟨st₁, hdivide, -⟩ := divide_eq α (distinct keys) st
  unfold fetchByKeys at h
  rw [bind_of_ok hdivide] at h
  obtain ⟨found, st₂, hload, h⟩ := bind_eq_ok.mp h
  cases h
  have hnodup : (missing α st.cache keys).Nodup := (nodup_distinct keys).filter _
  obtain ⟨batches, loads, hbatches, hspends⟩ := loadMissing_spends conn hbatch hnodup hload
  refine ⟨batches, loads, hbatches, ?_⟩
  have hall := (divide_spends hdivide).trans hspends
  rw [length_divided] at hall
  simpa [ReadStats.plus, missing] using hall

variable (α) in
/-- How reading comes by the keys of the query: the query for keys is asked and answered, or the
list of keys is in the cache. -/
inductive KeysTaken (dialect : Dialect) (s : Select) (cache : Option MemoryCache) :
    Execution → List (List Value) → List Exchange → Prop
  | asked {e statement rows keys} (hcompile : s.keysOnly.compile dialect = .ok statement)
      (hlist : ∀ lifetime tuples, e = .keyList lifetime →
        valueAt cache (.ofKeyList (Record.type α) statement) ≠ some (.keys tuples))
      (hkeys : rows.mapM (Record.normalizeKey α) = .ok keys) :
      KeysTaken dialect s cache e keys [.query statement (.ok rows)]
  | listed {lifetime statement keys} (hcompile : s.keysOnly.compile dialect = .ok statement)
      (hvalue : valueAt cache (.ofKeyList (Record.type α) statement) = some (.keys keys)) :
      KeysTaken dialect s cache (.keyList lifetime) keys []

theorem queryKeys_spends {statement : CompiledStatement} {keys : List (List Value)}
    (h : queryKeys conn.recorded α statement st = .ok keys st') :
    ∃ rows, rows.mapM (Record.normalizeKey α) = .ok keys ∧
      Spends st st' [.query statement (.ok rows)] { uncachedQueries := 1 } := by
  obtain ⟨rows, st₁, hquery, h⟩ := bind_eq_ok.mp h
  obtain ⟨hkeys, rfl⟩ := ofExcept_eq_ok.mp h
  exact ⟨rows, hkeys, query_spends conn hquery⟩

/-- Taking the keys costs the query for keys, or it counts as cached. -/
theorem takeKeys_spends {s : Select} {statement : CompiledStatement}
    (hcompile : s.keysOnly.compile conn.dialect = .ok statement) {e : Execution}
    {keys : List (List Value)} (h : takeKeys conn.recorded α statement e st = .ok keys st') :
    ∃ asked, KeysTaken α conn.dialect s st.cache e keys asked ∧
      Spends st st' asked { uncachedQueries := asked.length
                            cachedQueries := if asked = [] then 1 else 0 } := by
  cases e with
  | direct | keyThenFetch =>
      obtain ⟨rows, hkeys, hspends⟩ := queryKeys_spends conn h
      exact ⟨_, .asked hcompile nofun hkeys, hspends⟩
  | keyList lifetime =>
      rw [takeKeys_keyList] at h
      obtain ⟨st₁, hdb, -, ⟨keys', hvalue, hlist, hstats⟩ | ⟨hnone, hlist, hstats⟩⟩ :=
        keyList_cases conn.recorded α statement lifetime st
      · rw [hlist] at h
        cases h
        refine ⟨[], .listed hcompile hvalue, ?_, hstats⟩
        rw [hdb, List.append_nil]
      · rw [hlist] at h
        obtain ⟨asked, st₂, hasked, h⟩ := bind_eq_ok.mp h
        cases h
        obtain ⟨rows, hkeys, hspends⟩ := queryKeys_spends conn hasked
        refine ⟨_, .asked hcompile (fun _ tuples _ => hnone tuples) hkeys, ?_, ?_⟩
        · rw [← hdb]
          exact hspends.log
        · rw [← hstats]
          exact hspends.stats

end Runs

/-- A successful reading by keys asks for the keys, unless their list is in the cache, and then for
the keys without a readable record in the cache, in batches.  The counts say how many of the
distinct keys had a record, how many questions were asked, how many rows the batches had, and
whether the list of keys was in the cache and nothing was missing. -/
theorem fetch_accounts (conn : Connection σ) {batchSize : Nat} (hbatch : 0 < batchSize) {s : Select}
    {e : Execution} (he : e ≠ .direct) {st st' : ReadState σ} {fetched : List α}
    (hrun : fetch conn α batchSize s e st = .ok fetched st') :
    ∃ keys keyQuery batches loads, KeysTaken α conn.dialect s st.cache e keys keyQuery ∧
      LoadedInBatches α conn.dialect batchSize (missing α st.cache keys) batches loads ∧
      fetch conn.recorded α batchSize s e (st.recorded []) =
        .ok fetched (st'.recorded (keyQuery ++ loads)) ∧
      st'.stats = st.stats.plus
        { cachedRecords := (distinct keys).length - (missing α st.cache keys).length
          uncachedQueries := (keyQuery ++ loads).length
          uncachedRecords := (loads.flatMap Exchange.rows).length
          cachedQueries := (if keyQuery = [] then 1 else 0) +
            (if missing α st.cache keys = [] then 1 else 0) } := by
  obtain ⟨asked, -, hrecorded⟩ := fetch_recorded conn α batchSize s e st []
  rw [hrun, List.nil_append] at hrecorded
  have h : fetch conn.recorded α batchSize s e (st.recorded []) =
      .ok fetched (st'.recorded asked) := hrecorded
  obtain ⟨-, -, -, statement, keys, st₁, hstatement, htake, h⟩ := (fetch_eq_ok he).mp h
  obtain ⟨keyQuery, htaken, hkeys⟩ := takeKeys_spends conn hstatement htake
  obtain ⟨batches, loads, hbatches, hloads⟩ := fetchByKeys_spends conn hbatch h
  have hmissing : missing α st₁.cache keys = missing α st.cache keys := by
    unfold missing
    rw [cached?_of_takeKeys htake]
    rfl
  rw [hmissing] at hbatches hloads
  have hall := hkeys.trans hloads
  have hasked : asked = keyQuery ++ loads := hall.log.trans (List.nil_append _)
  subst hasked
  refine ⟨keys, keyQuery, batches, loads, htaken, hbatches, hrecorded, ?_⟩
  simpa [ReadStats.plus, ReadState.recorded] using hall.stats

end Reading

namespace Sample
open Reading

/-- Of three keys one has a readable record in the cache; the other two are asked for one after the
other, and one of them has a row. -/
theorem fetch_items_accounts : ∃ st',
    fetch script Item 1 { record := schema.type } .keyThenFetch ⟨answers, some cache, {}⟩ =
        .ok [item 2 "two", item 1 "one", item 2 "two"] st' ∧
      st'.stats = { cachedRecords := 1, uncachedRecords := 1, uncachedQueries := 3 } ∧
      ∃ keys keyQuery batches loads,
        KeysTaken Item .sqlite { record := schema.type } (some cache) .keyThenFetch keys keyQuery ∧
        LoadedInBatches Item .sqlite 1 (missing Item (some cache) keys) batches loads ∧
        (keyQuery ++ loads).length = 3 := by
  obtain ⟨st', hrun, hstats⟩ : ∃ st',
      fetch script Item 1 { record := schema.type } .keyThenFetch ⟨answers, some cache, {}⟩ =
          .ok [item 2 "two", item 1 "one", item 2 "two"] st' ∧
        st'.stats = { cachedRecords := 1, uncachedRecords := 1, uncachedQueries := 3 } := by
    have hreturned : returned (fetch script Item 1 { record := schema.type } .keyThenFetch
        ⟨answers, some cache, {}⟩) = some [item 2 "two", item 1 "one", item 2 "two"] := by
      decide +kernel
    have hstats : (finalState (fetch script Item 1 { record := schema.type } .keyThenFetch
        ⟨answers, some cache, {}⟩)).stats =
        { cachedRecords := 1, uncachedRecords := 1, uncachedQueries := 3 } := by
      decide +kernel
    cases hfetch : fetch script Item 1 { record := schema.type } .keyThenFetch
        ⟨answers, some cache, {}⟩ with
    | ok fetched st' =>
        rw [hfetch] at hreturned hstats
        obtain rfl := Option.some.inj hreturned
        exact ⟨st', rfl, hstats⟩
    | error e st' =>
        rw [hfetch] at hreturned
        cases hreturned
  obtain ⟨keys, keyQuery, batches, loads, htaken, hbatches, -, hcounts⟩ :=
    fetch_accounts script Nat.one_pos Execution.noConfusion hrun
  refine ⟨st', hrun, hstats, keys, keyQuery, batches, loads, htaken, hbatches, ?_⟩
  have huncached := congrArg ReadStats.uncachedQueries (hstats.symm.trans hcounts)
  simpa [ReadStats.plus] using huncached.symm

end Sample

end RecordStore
