import RecordStore.Proofs.Cache.Stored
import RecordStore.Proofs.Computation
import RecordStore.Repository

/-! # What reading does to the cache

Every step of reading, whether it succeeds or fails, leads from cache to cache by lookups, removals
and stores (`Reading.Within`), and what it stores is a record that was loaded or the keys of a
query. The two ways into the cache are `lookup_within` and `fetch_within`. -/

namespace RecordStore

/-! ### Steps of reading -/

namespace Reading

variable {σ β γ : Type} {Stored : Storable}

/-- However the step ends, it has changed the cache in the allowed ways only. -/
def Within (Stored : Storable) (x : Reading σ β) : Prop :=
  RecordStore.Within (fun st st' => OptionalSteps Stored st.cache st'.cache) x

theorem Within.of_unchanged {x : Reading σ β} (h : ∀ st, (finalState (x st)).cache = st.cache) :
    Within Stored x := by
  intro st
  show OptionalSteps Stored st.cache _
  rw [h st]
  exact .refl _

theorem Within.pure (b : β) : Within Stored (Pure.pure b : Reading σ β) :=
  of_unchanged fun _ => rfl

theorem Within.throw (e : StoreError) : Within Stored (MonadExcept.throw e : Reading σ β) :=
  of_unchanged fun _ => rfl

theorem Within.ofExcept (x : Except StoreError β) :
    Within Stored (MonadExcept.ofExcept x : Reading σ β) :=
  RecordStore.Within.ofExcept (fun _ => .refl _) x

theorem Within.bind_value {x : Reading σ β} {f : β → Reading σ γ} (hx : Within Stored x)
    (hf : ∀ st b st', x st = .ok b st' → Within Stored (f b)) : Within Stored (x >>= f) :=
  RecordStore.Within.bind_value (fun _ _ _ => .trans) hx hf

theorem Within.bind {x : Reading σ β} {f : β → Reading σ γ} (hx : Within Stored x)
    (hf : ∀ b, Within Stored (f b)) : Within Stored (x >>= f) :=
  RecordStore.Within.bind (fun _ _ _ => .trans) hx hf

theorem Within.ofExcept_bind (x : Except StoreError β) {f : β → Reading σ γ}
    (h : ∀ b, x = .ok b → Within Stored (f b)) :
    Within Stored (MonadExcept.ofExcept x >>= f : Reading σ γ) :=
  RecordStore.Within.ofExcept_bind (fun _ => .refl _) x h

theorem Within.foldlM {f : β → γ → Reading σ β} (hf : ∀ b c, Within Stored (f b c)) (cs : List γ)
    (b : β) : Within Stored (cs.foldlM f b) :=
  RecordStore.Within.foldlM (fun _ => .refl _) (fun _ _ _ => .trans) hf cs b

theorem Within.mono {Stored' : Storable} (hS : ∀ a v, Stored a v → Stored' a v) {x : Reading σ β}
    (h : Within Stored x) : Within Stored' x := fun st => (h st).mono hS

theorem count_within (f : ReadStats → ReadStats) : Within Stored (count f : Reading σ Unit) :=
  .of_unchanged fun _ => rfl

theorem modifyCache_within {f : MemoryCache → MemoryCache} (h : ∀ c, CacheSteps Stored c (f c)) :
    Within Stored (modifyCache f : Reading σ Unit) := fun st => .map h st.cache

theorem hasCache_within : Within Stored (hasCache : Reading σ Bool) := .of_unchanged fun _ => rfl

theorem lookupAt_within (a : CacheAddress) :
    Within Stored (lookupAt a : Reading σ (Option CacheValue)) := by
  intro st
  show OptionalSteps Stored st.cache (finalState (lookupAt a st)).cache
  unfold lookupAt
  split
  · next h => exact .refl _
  · next cache h =>
      rw [h]
      exact .some (.single (.lookup a))

variable (conn : Connection σ)

theorem query_within (statement : CompiledStatement) : Within Stored (query conn statement) :=
  .of_unchanged fun st => by
    unfold query
    split <;> rfl

theorem hashOrder_within : Within Stored (hashOrder conn) := .of_unchanged fun _ => rfl

theorem compile_within (s : Select) : Within Stored (compile conn s) := .ofExcept _

/-- The query passes if it is one of the type for all fields. -/
theorem requireRecords_eq_ok {r : RecordType} {s : Select} {st st' : ReadState σ} {u : Unit} :
    requireRecords r s st = .ok u st' ↔
      s.record.sameAs r = true ∧ s.selection = .fields ∧ st = st' := by
  unfold requireRecords
  cases hr : s.record.sameAs r with
  | false =>
      constructor
      · intro h
        cases h
      · rintro ⟨h, -⟩
        cases h
  | true =>
      by_cases hs : s.selection = .fields
      · rw [hs]
        change (EStateM.Result.ok () st = .ok u st') ↔ _
        simp
      · rw [Bool.not_true, if_neg Bool.false_ne_true, if_pos (bne_iff_ne.mpr hs)]
        constructor
        · intro h
          cases h
        · rintro ⟨-, h, -⟩
          exact absurd h hs

theorem requireRecords_within (r : RecordType) (s : Select) :
    Within Stored (requireRecords r s : Reading σ Unit) :=
  .of_unchanged fun st => by
    unfold requireRecords
    cases s.record.sameAs r <;> cases s.selection != .fields <;> rfl

variable {conn} {α : Type} [Record α]

theorem cachedRecord_within (key : List Value) :
    Within Stored (cachedRecord key : Reading σ (Option α)) := by
  unfold cachedRecord
  refine Within.bind (lookupAt_within _) fun value => ?_
  cases value with
  | none => exact .pure none
  | some value =>
      cases value with
      | keys tuples => exact .pure none
      | row values =>
          dsimp only
          split
          · exact .pure _
          · exact Within.bind (modifyCache_within fun c => .single (.remove _)) fun _ => .pure _

theorem storeRecord_within {P : α → Prop} {key : List Value} {record : α} (hP : P record)
    (h : Record.keyValues record = .ok key) :
    Within (StoresRowOf P) (storeRecord key record : Reading σ Unit) := by
  unfold storeRecord
  refine Within.bind hasCache_within fun has => ?_
  split
  · refine Within.ofExcept_bind _ fun values hvalues => ?_
    exact modifyCache_within fun c =>
      .single (.store ⟨record, key, values, hP, h, lift_eq_ok.mp hvalues, rfl, rfl⟩)
  · exact .pure _

theorem records_within (fields : List String) (rows : List (List Value)) :
    Within Stored (records fields rows : Reading σ (List α)) := .ofExcept _

variable (conn)

theorem direct_within (s : Select) : Within Stored (direct conn α s) := by
  unfold direct
  refine Within.bind (requireRecords_within _ _) fun _ => ?_
  refine Within.bind (compile_within conn s) fun statement => ?_
  refine Within.bind (query_within conn statement) fun rows => ?_
  exact Within.bind (count_within _) fun _ => records_within _ _

theorem countRows_within (r : RecordType) (s : Select) : Within Stored (countRows conn r s) := by
  unfold countRows
  refine Within.bind (requireRecords_within _ _) fun _ => ?_
  refine Within.bind (compile_within conn s.count) fun statement => ?_
  refine Within.bind (query_within conn statement) fun rows => ?_
  split
  · exact .pure _
  · exact .throw _

theorem queryKeys_within (statement : CompiledStatement) :
    Within Stored (queryKeys conn α statement) := by
  unfold queryKeys
  exact Within.bind (query_within conn statement) fun rows => .ofExcept _

/-- Keys that were asked for are in the form in which records give them back. -/
theorem typedKey_of_queryKeys {statement : CompiledStatement} {keys : List (List Value)}
    {st st' : ReadState σ} (h : queryKeys conn α statement st = .ok keys st') :
    ∀ key ∈ keys, Record.TypedKey α key := by
  intro key hkey
  unfold queryKeys at h
  obtain ⟨rows, st₁, -, hkeys⟩ := bind_eq_ok.mp h
  obtain ⟨row, -, hrow⟩ := exists_of_mem_except_mapM (ofExcept_eq_ok.mp hkeys).1 hkey
  exact .of_normalizeKey hrow

variable (α)

theorem divide_within (keys : List (List Value)) :
    Within Stored (divide α keys : Reading σ _) := by
  induction keys with
  | nil => exact .pure _
  | cons key keys ih =>
      refine Within.bind (cachedRecord_within key) fun cached => ?_
      cases cached with
      | none => exact Within.bind ih fun _ => .pure _
      | some record => exact Within.bind (count_within _) fun _ => Within.bind ih fun _ => .pure _

theorem collect_within {P : α → Prop} {loaded : List α} (hloaded : ∀ record ∈ loaded, P record)
    (found : Found α) : Within (StoresRowOf P) (collect α found loaded : Reading σ _) := by
  induction loaded generalizing found with
  | nil => exact .pure _
  | cons record rest ih =>
      refine Within.ofExcept_bind _ fun key hkey => ?_
      have hrecord := hloaded record List.mem_cons_self
      refine Within.bind (storeRecord_within hrecord hkey) fun _ => ?_
      refine Within.bind (count_within _) fun _ => ?_
      exact ih (fun record' hrecord' => hloaded record' (List.mem_cons_of_mem _ hrecord')) _

/-- The records of an answer are stored at most. -/
theorem collectRecords_within (rows : List (List Value)) (found : Found α) :
    Within (StoresRowOf fun record : α =>
        ∃ row ∈ rows, Record.ofValues (Record.type α).fieldNames row = .ok record)
      (records (Record.type α).fieldNames rows >>= collect α found : Reading σ _) := by
  refine Within.ofExcept_bind _ fun loaded hloaded => ?_
  refine collect_within α (fun record hrecord => ?_) found
  obtain ⟨row, hrow, hread⟩ := exists_of_mem_except_mapM hloaded hrecord
  exact ⟨row, hrow, lift_eq_ok.mp hread⟩

/-- Loading by keys stores records as they were loaded. -/
theorem loadBatch_within (found : Found α) (batch : KeySet (Record.type α)) :
    Within (StoresRowOf (Record.MadeFrom (Record.blank : α))) (loadBatch conn α found batch) := by
  unfold loadBatch
  refine Within.bind (compile_within conn _) fun statement => ?_
  refine Within.bind (query_within conn statement) fun rows => ?_
  refine (collectRecords_within α rows found).mono fun _ _ => StoresRowOf.mono ?_
  rintro record ⟨row, -, hread⟩
  exact .of_ofValues hread

theorem loadMissing_within (batchSize : Nat) (found : Found α) (missing : List (List Value)) :
    Within (StoresRowOf (Record.MadeFrom (Record.blank : α)))
      (loadMissing conn α batchSize found missing) := by
  unfold loadMissing
  split
  · exact Within.bind (count_within _) fun _ => .pure _
  · refine Within.bind (hashOrder_within conn) fun order => ?_
    refine Within.ofExcept_bind _ fun keys _ => ?_
    exact Within.foldlM (loadBatch_within conn α) _ _

theorem fetchByKeys_within (batchSize : Nat) (keys : List (List Value)) :
    Within (StoresRowOf (Record.MadeFrom (Record.blank : α)))
      (fetchByKeys conn α batchSize keys) := by
  unfold fetchByKeys
  refine Within.bind (divide_within α _) fun divided => ?_
  exact Within.bind (loadMissing_within conn α _ _ _) fun found => .pure _

/-- The keys of a query, asked for and then cached. -/
def askKeys (statement : CompiledStatement) (lifetime : Lifetime) :
    Reading σ (List (List Value)) := do
  let keys ← queryKeys conn α statement
  modifyCache (·.storeAt (.ofKeyList (Record.type α) statement) (.keys keys) lifetime.category)
  return keys

theorem askKeys_within {s : Select} {statement : CompiledStatement} (lifetime : Lifetime)
    (hrecord : s.record.sameAs (Record.type α) = true) (hkey : s.requireKeyFetch = .ok ())
    (hcompile : s.keysOnly.compile conn.dialect = .ok statement) :
    Within (fun a value => StoresKeyList conn.dialect α s a value ∧ Record.ListsKeys α value)
      (askKeys conn α statement lifetime) := by
  unfold askKeys
  refine Within.bind_value (queryKeys_within conn statement) fun st keys st' hkeys => ?_
  refine Within.bind (modifyCache_within fun c => .single (.store ?_)) fun _ => .pure _
  exact ⟨⟨statement, keys, hrecord, hkey, hcompile, rfl, rfl⟩, keys, rfl,
    typedKey_of_queryKeys conn hkeys⟩

theorem keyList_within {s : Select} {statement : CompiledStatement} (lifetime : Lifetime)
    (hrecord : s.record.sameAs (Record.type α) = true) (hkey : s.requireKeyFetch = .ok ())
    (hcompile : s.keysOnly.compile conn.dialect = .ok statement) :
    Within (fun a value => StoresKeyList conn.dialect α s a value ∧ Record.ListsKeys α value)
      (keyList conn α statement lifetime) := by
  unfold keyList
  refine Within.bind (lookupAt_within _) fun value => ?_
  cases value with
  | none => exact askKeys_within conn α lifetime hrecord hkey hcompile
  | some value =>
      cases value with
      | row values => exact askKeys_within conn α lifetime hrecord hkey hcompile
      | keys tuples => exact Within.bind (count_within _) fun _ => .pure _

/-! ### Whole reads -/

theorem withCache_within (batchSize : Nat) (s : Select) :
    Within (LoadStores conn.dialect α s) (withCache conn α batchSize s) := by
  unfold withCache
  refine Within.bind (requireRecords_within _ _) fun _ => ?_
  refine Within.bind (.ofExcept _) fun _ => ?_
  refine Within.bind (compile_within conn _) fun statement => ?_
  refine Within.bind (queryKeys_within conn statement) fun keys => ?_
  exact (fetchByKeys_within conn α batchSize keys).mono fun _ _ => .inl

theorem withKeys_within (batchSize : Nat) (s : Select) (lifetime : Lifetime) :
    Within (LoadStores conn.dialect α s) (withKeys conn α batchSize s lifetime) := by
  unfold withKeys
  refine Within.bind_value (requireRecords_within _ _) fun st _ st' hrecords => ?_
  obtain ⟨hrecord, -, -⟩ := requireRecords_eq_ok.mp hrecords
  refine Within.ofExcept_bind _ fun _ hkey => ?_
  refine Within.ofExcept_bind _ fun statement hcompile => ?_
  have hlist := keyList_within conn α lifetime hrecord hkey (lift_eq_ok.mp hcompile)
  refine Within.bind (hlist.mono fun _ _ => .inr) fun keys => ?_
  exact (fetchByKeys_within conn α batchSize keys).mono fun _ _ => .inl

/-- Reading the records of a query stores records as they were loaded and, at most, the keys of the
query. -/
theorem fetch_within (batchSize : Nat) (s : Select) (e : Execution) :
    Within (LoadStores conn.dialect α s) (fetch conn α batchSize s e) := by
  cases e with
  | direct => exact direct_within conn s
  | keyThenFetch => exact withCache_within conn α batchSize s
  | keyList lifetime => exact withKeys_within conn α batchSize s lifetime

variable {α}

theorem rememberRecord_within {P : α → Prop} {record : α} (hP : P record) :
    Within (StoresRowOf fun record : α => P record ∧ Record.Identified record)
      (rememberRecord record : Reading σ Unit) := by
  unfold rememberRecord
  refine Within.bind hasCache_within fun has => ?_
  split
  · refine Within.ofExcept_bind _ fun key hkey => ?_
    cases habsent : isAbsentKey key with
    | false => exact storeRecord_within ⟨hP, key, hkey, habsent⟩ hkey
    | true => exact .pure _
  · exact .pure _

/-- What looking a record up may store: the record as it was loaded, if it has a key that a row can
have. -/
abbrev StoresLoaded (α : Type) [Record α] : Storable :=
  StoresRowOf fun record : α => Record.MadeFrom Record.blank record ∧ Record.Identified record

theorem loadRecord_within (usesCache : Bool) (target : LookupTarget (Record.type α)) :
    Within (StoresLoaded α) (loadRecord conn usesCache target) := by
  unfold loadRecord
  refine Within.bind (compile_within conn _) fun statement => ?_
  refine Within.bind (query_within conn statement) fun rows => ?_
  refine Within.ofExcept_bind _ fun (loaded : List α) hloaded => ?_
  cases hhead : loaded.head? with
  | none => exact .pure _
  | some record =>
      obtain ⟨row, -, hread⟩ := exists_of_mem_except_mapM hloaded (List.mem_of_mem_head? hhead)
      have hmade : Record.MadeFrom Record.blank record := .of_ofValues (lift_eq_ok.mp hread)
      refine Within.bind (count_within _) fun _ => ?_
      cases usesCache with
      | false => exact .pure _
      | true => exact Within.bind (rememberRecord_within hmade) fun _ => .pure _

theorem cachedTarget_within (usesCache : Bool) (target : LookupTarget (Record.type α)) :
    Within Stored (cachedTarget usesCache target : Reading σ (Option α)) := by
  unfold cachedTarget
  split
  · split
    · exact cachedRecord_within _
    · exact .pure _
  · exact .pure _

theorem orLoad_within (usesCache : Bool) (target : LookupTarget (Record.type α))
    (cached : Option α) : Within (StoresLoaded α) (orLoad conn usesCache target cached) := by
  cases cached with
  | some record => exact Within.bind (count_within _) fun _ => .pure _
  | none => exact loadRecord_within conn usesCache target

/-- Looking a record up stores the record at most, and only under a key that a row can have. -/
theorem lookup_within (useCache : Bool) (target : LookupTarget (Record.type α)) :
    Within (StoresLoaded α) (lookup conn useCache target) :=
  Within.bind (cachedTarget_within _ target) fun cached => orLoad_within conn _ target cached

end Reading

/-! ### Operations that read -/

namespace Repository

section

variable {σ β : Type} {Stored : Storable} (repo : Repository σ)

/-- Reading leaves the cache that its steps leave, or, bypassing it, the cache as it was. -/
theorem cache_read (reading : Connection σ → Reading σ β) :
    (finalState (read reading repo)).cache = if repo.cachingEnabled then
      (finalState (reading repo.connection
        ⟨repo.state, if repo.cachingEnabled then repo.cache else none, {}⟩)).cache
      else repo.cache := by
  unfold read
  dsimp only
  cases reading repo.connection
    ⟨repo.state, if repo.cachingEnabled then repo.cache else none, {}⟩ <;> rfl

/-- Reading changes the cache as the steps of reading do. -/
theorem read_steps {reading : Connection σ → Reading σ β}
    (h : Reading.Within Stored (reading repo.connection)) :
    OptionalSteps Stored repo.cache (finalState (read reading repo)).cache := by
  have hst := h ⟨repo.state, if repo.cachingEnabled then repo.cache else none, {}⟩
  rw [cache_read]
  cases hcaching : repo.cachingEnabled with
  | false => exact .refl _
  | true =>
      rw [hcaching] at hst
      exact hst

end

variable {σ : Type} {repo : Repository σ} {α : Type} [Record α] {s : Select} {strategy : Strategy}

theorem read_eq_ok {β : Type} {reading : Connection σ → Reading σ β} {b : β}
    {repo' : Repository σ} : read reading repo = .ok b repo' ↔
      ∃ st, reading repo.connection
          ⟨repo.state, if repo.cachingEnabled then repo.cache else none, {}⟩ = .ok b st ∧
        repo' = repo.afterRead st := by
  unfold read
  dsimp only
  cases reading repo.connection
      ⟨repo.state, if repo.cachingEnabled then repo.cache else none, {}⟩ with
  | ok b' st =>
      constructor
      · intro h
        cases h
        exact ⟨st, rfl, rfl⟩
      · rintro ⟨st', h, rfl⟩
        cases h
        rfl
  | error e st => simp

/-- Finding reads in the way that the strategy resolves to. -/
theorem find_of_resolve {execution : Execution}
    (h : strategy.resolve s repo.cachingEnabled = .ok execution) :
    find α s strategy repo = read (fun conn =>
      Reading.fetch conn α (repo.config.batchSize conn.dialect) s execution) repo := by
  have hget : (MonadState.get : Operation σ _) repo = .ok repo repo := rfl
  unfold find
  rw [bind_of_ok hget, h, bind_of_ok (ofExcept_ok _ _)]

/-- A strategy that is refused leaves the repository as it was. -/
theorem find_of_refused {e : StoreError}
    (h : strategy.resolve s repo.cachingEnabled = .error e) :
    find α s strategy repo = .error e repo := by
  have hget : (MonadState.get : Operation σ _) repo = .ok repo repo := rfl
  unfold find
  rw [bind_of_ok hget, h, bind_of_error (ofExcept_error _ _)]

end Repository

end RecordStore
