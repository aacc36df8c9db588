import RecordStore.Proofs.Reading.Fetch
import RecordStore.Proofs.Record.Laws
import RecordStore.Proofs.Writing.Cache
import RecordStore.Repository

/-! # Reading back what was inserted

An insertion caches the record as the caller has it, with the key that the database chose.  Read
through the cache, the record has these values again.  The row in the database has the values that
were written, and whatever the database has put into the other columns.  So the two agree in the
fields that were written and in the key (`Repository.get_after_insert`), and may differ in the
computed fields and in the generated fields outside the key. -/

namespace RecordStore

/-! ### What an insertion writes -/

/-- The insertion writes the value to the column of the field. -/
def Insert.Writes (i : Insert) (f : String) (v : Value) : Prop :=
  (⟨f, .fieldValue f v⟩ : FieldExpr) ∈ i.values

section

variable {α : Type} [Record α] {record : α}

/-- The value that is written to a stored field is the record's, and a generated field without a
value is left out. -/
theorem Insert.exists_field_of_assignments {fields : List Field} {values : List FieldExpr}
    (h : Insert.assignments record fields = .ok values) {f : String} {v : Value}
    (hmem : (⟨f, .fieldValue f v⟩ : FieldExpr) ∈ values) :
    ∃ field ∈ fields, field.name = f ∧ Record.get record f = .ok v ∧
      (field.isGenerated && v.isUnset) = false := by
  induction fields generalizing values with
  | nil =>
      cases h
      cases hmem
  | cons field fields ih =>
      obtain ⟨w, hw, h⟩ := except_bind_eq_ok.mp h
      obtain ⟨more, hmore, h⟩ := except_bind_eq_ok.mp h
      have hrest (hmem : (⟨f, .fieldValue f v⟩ : FieldExpr) ∈ more) : ∃ field' ∈ field :: fields,
          field'.name = f ∧ Record.get record f = .ok v ∧
            (field'.isGenerated && v.isUnset) = false := by
        obtain ⟨field', hfield', hwritten⟩ := ih hmore hmem
        exact ⟨field', List.mem_cons_of_mem field hfield', hwritten⟩
      split at h
      · cases h
        exact hrest hmem
      · next hset =>
        cases h
        rcases List.mem_cons.mp hmem with heq | hmem
        · cases heq
          exact ⟨field, List.mem_cons_self, rfl, hw, eq_false_of_ne_true hset⟩
        · exact hrest hmem

end

/-- Among fields of distinct names a name leads to its field. -/
theorem RecordType.eq_of_field {r : RecordType} (hnodup : r.fieldNames.Nodup) {field found : Field}
    (hfield : field ∈ r.fields) (h : r.field field.name = .ok found) : found = field := by
  unfold RecordType.field RecordType.field? at h
  split at h
  · next hfind =>
    cases h
    exact List.inj_on_of_nodup_map hnodup (List.mem_of_find?_eq_some hfind) hfield
      (beq_iff_eq.mp (List.find?_some hfind :))
  · cases h

/-! ### The record after an insertion -/

/-- The record is the inserted one, or its key has been set. -/
def Record.KeyedFrom {α : Type} [Record α] (record record' : α) : Prop :=
  record' = record ∨ ∃ name v, RecordWriting.awaitsKey record = .ok (some name) ∧
    Record.set record name v = .ok record'

namespace RecordWriting

variable {σ α : Type} {conn : Connection σ} {record record' : α} {st st' : WriteState σ}

/-- Sending a statement does not change the record. -/
theorem record_of_run {s : Statement} {n : Nat}
    (h : lift (Writing.run conn s) (st, record) = .ok n (st', record')) : record' = record := by
  cases hrun : Writing.run conn s st with
  | ok m st₁ =>
      rw [lift_of_ok hrun] at h
      cases h
      rfl
  | error e st₁ =>
      rw [lift_of_error hrun] at h
      cases h

variable [Record α]

/-- The record waits for a field that is generated and has no value. -/
theorem field_of_awaitsKey {name : String} (h : awaitsKey record = .ok (some name)) :
    ∃ field v, (Record.type α).field name = .ok field ∧ Record.get record name = .ok v ∧
      (field.isGenerated && v.isUnset) = true := by
  unfold awaitsKey at h
  split at h
  · obtain ⟨field, hfield, h⟩ := except_bind_eq_ok.mp h
    cases hgenerated : field.isGenerated with
    | false =>
        rw [hgenerated] at h
        cases h
    | true =>
        rw [hgenerated] at h
        obtain ⟨v, hv, h⟩ := except_bind_eq_ok.mp h
        cases hunset : v.isUnset with
        | false =>
            rw [hunset] at h
            cases h
        | true =>
            rw [hunset] at h
            cases h
            refine ⟨field, v, lift_eq_ok.mp hfield, lift_eq_ok.mp hv, ?_⟩
            rw [hgenerated, hunset, Bool.and_self]
  · cases h

/-- Assigning a key sets the field that the record waits for, or nothing. -/
theorem record_of_assignGeneratedKey {u : Unit}
    (h : assignGeneratedKey conn (st, record) = .ok u (st', record')) :
    Record.KeyedFrom record record' := by
  unfold assignGeneratedKey at h
  obtain ⟨p, p', hget, h⟩ := bind_eq_ok.mp h
  cases hget
  obtain ⟨name?, p', hname, h⟩ := bind_eq_ok.mp h
  obtain ⟨hawaits, rfl⟩ := ofExcept_eq_ok.mp hname
  cases name? with
  | none =>
      cases h
      exact .inl rfl
  | some name =>
      obtain ⟨v?, ⟨st₁, record₁⟩, hlast, h⟩ := bind_eq_ok.mp h
      have hrecord : record₁ = record := by
        unfold lastGeneratedKey at hlast
        dsimp only at hlast
        split at hlast <;> cases hlast
        rfl
      subst hrecord
      cases v? with
      | none =>
          cases h
          exact .inl rfl
      | some v =>
          obtain ⟨p, p', hget, h⟩ := bind_eq_ok.mp h
          cases hget
          obtain ⟨record₂, p', hrecord, h⟩ := bind_eq_ok.mp h
          obtain ⟨hset, rfl⟩ := ofExcept_eq_ok.mp hrecord
          cases h
          exact .inr ⟨name, v, hawaits, lift_eq_ok.mp hset⟩

/-- Caching the record does not change it. -/
theorem record_of_cacheInserted {u : Unit}
    (h : (cacheInserted : RecordWriting σ α Unit) (st, record) = .ok u (st', record')) :
    record' = record := by
  cases hplace : st.cache.isSome && (Record.type α).isCacheable with
  | false =>
      rw [cacheInserted_uncached record hplace] at h
      cases h
      rfl
  | true =>
      rw [Bool.and_eq_true] at hplace
      obtain ⟨c, hc⟩ := Option.isSome_iff_exists.mp hplace.1
      have hstored := cacheInserted_cached record hc hplace.2
      rw [h] at hstored
      exact hstored.1

/-- An insertion that succeeds leaves the record alone, or sets the field that it waits for. -/
theorem record_of_insertRecord {n : Nat}
    (h : insertRecord conn (st, record) = .ok n (st', record')) :
    Record.KeyedFrom record record' := by
  unfold insertRecord at h
  obtain ⟨affected, ⟨st₂, record₂⟩, hsend, h⟩ := bind_eq_ok.mp h
  obtain ⟨u, ⟨st₃, record₃⟩, hcache, h⟩ := bind_eq_ok.mp h
  cases h
  rw [record_of_cacheInserted hcache]
  unfold sendInsert at hsend
  obtain ⟨p, p', hget, hsend⟩ := bind_eq_ok.mp hsend
  cases hget
  obtain ⟨insert, p', hinsert, hsend⟩ := bind_eq_ok.mp hsend
  obtain ⟨-, rfl⟩ := ofExcept_eq_ok.mp hinsert
  obtain ⟨affected', ⟨st₁, record₁⟩, hrun, hsend⟩ := bind_eq_ok.mp hsend
  obtain ⟨u', p', hassign, hsend⟩ := bind_eq_ok.mp hsend
  cases hsend
  rw [record_of_run hrun] at hassign
  exact record_of_assignGeneratedKey hassign

end RecordWriting

section

variable {α : Type} [Record α] {Valid : α → Prop} {record record' : α}

theorem Record.KeyedFrom.made (h : Record.KeyedFrom record record') :
    Record.MadeFrom record record' := by
  rcases h with rfl | ⟨name, v, -, hset⟩
  · exact .refl _
  · exact .of_set hset

theorem Record.KeyedFrom.valid (laws : LawfulRecord α Valid) (hvalid : Valid record)
    (h : Record.KeyedFrom record record') : Valid record' := by
  rcases h with rfl | ⟨name, v, -, hset⟩
  · exact hvalid
  · exact laws.valid_set hvalid hset

/-- A field that was written still has the value that was written: the key that the database chose
went to a field that was left out. -/
theorem Record.KeyedFrom.get_written (laws : LawfulRecord α Valid)
    (hnodup : (Record.type α).fieldNames.Nodup) (h : Record.KeyedFrom record record')
    {insert : Insert} (hinsert : Insert.ofRecord record = .ok insert) {f : String} {v : Value}
    (hwritten : insert.Writes f v) : Record.get record' f = .ok v := by
  unfold Insert.ofRecord at hinsert
  obtain ⟨values, hvalues, hinsert⟩ := except_bind_eq_ok.mp hinsert
  cases hinsert
  obtain ⟨field, hfield, rfl, hget, hset⟩ := Insert.exists_field_of_assignments hvalues hwritten
  rcases h with rfl | ⟨name, w, hawaits, hchosen⟩
  · exact hget
  · rw [laws.get_set_ne hchosen, hget]
    -- The field that awaits its value has none, and such a field is not written.
    rintro rfl
    obtain ⟨field', v', hfield', hget', hunset⟩ := RecordWriting.field_of_awaitsKey hawaits
    rw [hget] at hget'
    cases hget'
    have hsame : field' = field :=
      RecordType.eq_of_field hnodup (List.mem_filter.mp hfield).1 hfield'
    rw [hsame, hset] at hunset
    cases hunset

end

/-! ### Looking the record up -/

namespace Reading

variable {σ : Type} {conn : Connection σ} {α : Type} [Record α] {key : Key (Record.type α)}
  {st : ReadState σ} {record : α}

/-- Looking up a key that the cache has a record for returns this record. -/
theorem lookup_cached (hcacheable : (Record.type α).isCacheable = true)
    (hpresent : key.isAbsent = false) (hcached : cached? α st.cache key.values = some record) :
    ∃ st', lookup conn true (.key key) st = .ok (some record) st' := by
  obtain ⟨st₁, hlookup, -, -⟩ := cachedRecord_eq (α := α) key.values st
  rw [hcached] at hlookup
  have hkey : (LookupTarget.key key).cacheKey? = some key.values := by
    unfold LookupTarget.cacheKey?
    dsimp only
    rw [hpresent]
    rfl
  have htarget : cachedTarget true (.key key) st = .ok (some record) st₁ := by
    unfold cachedTarget
    rw [hkey]
    exact hlookup
  unfold lookup
  rw [hcacheable, Bool.and_self, bind_of_ok htarget]
  exact ⟨_, rfl⟩

/-- Looking up a key without the cache returns the record of the row that the database answers. -/
theorem lookup_bypassing {statement : CompiledStatement} {row : List Value} {db : σ}
    (hselect : key.select.compile conn.dialect = .ok statement)
    (hanswer : conn.query statement st.connection = (.ok [row], db))
    (hload : (Record.ofValues (Record.type α).fieldNames row : Except _ α) = .ok record) :
    ∃ st', (lookup conn false (.key key) : Reading σ (Option α)) st = .ok (some record) st' := by
  have htarget : (cachedTarget false (.key key) : Reading σ (Option α)) st = .ok none st := by
    unfold cachedTarget
    cases (LookupTarget.key key).cacheKey? <;> rfl
  have hrows : [row].mapM (Record.ofValues (Record.type α).fieldNames) =
      (.ok [record] : Except StatementError (List α)) := by
    rw [List.mapM_cons, hload]
    rfl
  have hcompile : compile conn (LookupTarget.key key).select st = .ok statement st :=
    compile_of_ok conn hselect st
  have hfound : ∃ st', loadRecord conn false (.key key) st = .ok (some record) st' := by
    unfold loadRecord
    rw [bind_of_ok hcompile, bind_of_ok (query_of_ok conn hanswer),
      bind_of_ok (records_of_ok hrows _)]
    exact ⟨_, rfl⟩
  unfold lookup
  rw [Bool.false_and, bind_of_ok htarget]
  exact hfound

end Reading

/-! ### Insertion and lookup -/

/-- The key of a record has the values of the key fields. -/
theorem Record.get_of_key {α : Type} [Record α] {record : α} {key : Key (Record.type α)}
    (h : Record.key record = .ok (some key)) {f : String} {v : Value}
    (hmem : (f, v) ∈ (Record.type α).primaryKey.zip key.values) : Record.get record f = .ok v := by
  have hvalues := Record.keyValues_of_key h
  unfold Record.keyValues at hvalues
  obtain ⟨u, -, hall⟩ := except_bind_eq_ok.mp hvalues
  exact Record.get_of_mem_zip (lift_eq_ok.mp hall) hmem

/-- A key that a record has is the key of a row. -/
theorem Record.isAbsent_of_key {α : Type} [Record α] {record : α} {key : Key (Record.type α)}
    (h : Record.key record = .ok (some key)) : key.isAbsent = false := by
  have hvalues := Record.keyValues_of_key h
  unfold Record.key at h
  rw [hvalues] at h
  change (if isAbsentKey key.values then _ else _) = _ at h
  split at h
  · cases h
  · next hpresent => exact eq_false_of_ne_true hpresent

/-- The record that an insertion has left in the cache, field by field. -/
theorem Inserted.exists_cached {α : Type} [Record α] {Valid : α → Prop}
    (laws : LawfulRecord α Valid) (hnodup : (Record.type α).fieldNames.Nodup)
    (hcacheable : (Record.type α).isCacheable = true) {record : α} {c c' : MemoryCache}
    (h : Inserted record c c') (hvalid : Valid record) (hopen : c.isShutDown = false)
    {key : Key (Record.type α)} (hkey : Record.key record = .ok (some key)) :
    ∃ cached, Reading.cached? α (some c') key.values = some cached ∧
      ∀ f ∈ (Record.type α).fieldNames, Record.get cached f = Record.get record f := by
  cases h with
  | uncached huncached =>
      rw [hcacheable] at huncached
      cases huncached
  | keyless hnone =>
      rw [hkey] at hnone
      cases hnone
  | @row key' values hkey' hvalues =>
      rw [hkey] at hkey'
      cases hkey'
      have hsteps : CacheSteps (fun _ _ => False) c (c.evictKeyLists (Record.type α)).2 :=
        c.evictKeyLists_steps _
      have hentry : ((c.evictKeyLists (Record.type α)).2.storeAt
          (.ofRow (Record.type α) key.values) (.row values)).freshAt?
          (.ofRow (Record.type α) key.values) =
            some ((c.evictKeyLists (Record.type α)).2.entryFor (.row values) .record) :=
        MemoryCache.freshAt?_store_self _ _ (hsteps.isShutDown_eq.trans hopen)
      obtain ⟨copy, hcopy, hfields⟩ := laws.ofValues_toValues hvalid hnodup hvalues
      refine ⟨copy, ?_, hfields⟩
      unfold Reading.cached? Reading.valueAt
      rw [Option.bind_some, hentry, Option.map_some, MemoryCache.entryFor]
      dsimp only
      rw [hcopy]
      rfl

namespace Repository

variable {σ α : Type} [Record α] {Valid : α → Prop} {repo : Repository σ} {record : α}

/-- A lookup that succeeds over the connection and the cache of a repository. -/
theorem get_of_ok {key : Key (Record.type α)} {strategy : Strategy} {found : Option α}
    (h : ∃ st', Reading.lookup repo.connection (strategy ≠ .bypass) (.key key)
      ⟨repo.state, if repo.cachingEnabled then repo.cache else none, {}⟩ = .ok found st') :
    ∃ repo', get key strategy repo = .ok found repo' := by
  obtain ⟨st', hlookup⟩ := h
  unfold get read
  dsimp only
  rw [hlookup]
  exact ⟨_, rfl⟩

/-- An insertion of the repository is one over its connection and its cache. -/
theorem exists_of_insert {repo' : Repository σ} {record' : α} {n : Nat}
    (h : repo.insert record = .ok n (repo', record')) : ∃ st', repo' = repo.afterWrite st' ∧
      RecordWriting.insertRecord repo.connection (⟨repo.state, repo.cache, {}⟩, record) =
        .ok n (st', record') := by
  unfold insert at h
  split at h
  · next m st' record'' hrun =>
    cases h
    exact ⟨st', rfl, hrun⟩
  · cases h

/-- An insertion through a cache that is open leaves the record in it. -/
theorem exists_cached_of_insert (laws : LawfulRecord α Valid)
    (hnodup : (Record.type α).fieldNames.Nodup) (hcacheable : (Record.type α).isCacheable = true)
    {c : MemoryCache} (hcache : repo.cache = some c) (hopen : c.isShutDown = false)
    {st' : WriteState σ} {record' : α} {n : Nat}
    (hinsert : RecordWriting.insertRecord repo.connection
      (⟨repo.state, repo.cache, {}⟩, record) = .ok n (st', record'))
    (hvalid : Valid record') {key : Key (Record.type α)}
    (hkey : Record.key record' = .ok (some key)) :
    ∃ cached, Reading.cached? α st'.cache key.values = some cached ∧
      ∀ f ∈ (Record.type α).fieldNames, Record.get cached f = Record.get record' f := by
  have hstored := RecordWriting.insertRecord_cache repo.connection ⟨repo.state, repo.cache, {}⟩
    record
  rw [hinsert] at hstored
  change Option.Rel (Inserted record') repo.cache st'.cache at hstored
  rw [hcache] at hstored
  cases hst : st'.cache with
  | none =>
      rw [hst] at hstored
      cases hstored
  | some c' =>
      rw [hst] at hstored
      cases hstored with
      | some h => exact h.exists_cached laws hnodup hcacheable hvalid hopen hkey

/-- After an insertion through a cache that is open, the record that was inserted is read from the
cache, field by field.  The record that is read from the database has the same values in the fields
that were written and in those of the key, provided that the row has kept them. -/
theorem get_after_insert (laws : LawfulRecord α Valid)
    (hnodup : (Record.type α).fieldNames.Nodup) (hcacheable : (Record.type α).isCacheable = true)
    (hvalid : Valid record) {insert : Insert} (hwritten : Insert.ofRecord record = .ok insert)
    {c : MemoryCache} (henabled : repo.cachingEnabled = true) (hcache : repo.cache = some c)
    (hopen : c.isShutDown = false) {repo' : Repository σ} {record' : α} {n : Nat}
    (hinsert : repo.insert record = .ok n (repo', record')) {key : Key (Record.type α)}
    (hkey : Record.key record' = .ok (some key)) {statement : CompiledStatement}
    (hselect : key.select.compile repo'.connection.dialect = .ok statement) {row : List Value}
    {db : σ} (hanswer : repo'.connection.query statement repo'.state = (.ok [row], db)) {stored : α}
    (hload : Record.ofValues (Record.type α).fieldNames row = .ok stored) :
    ∃ cached : α, (∃ repo'', get key .bestEffort repo' = .ok (some cached) repo'') ∧
      (∃ repo'', get key .bypass repo' = .ok (some stored) repo'') ∧
      (∀ f ∈ (Record.type α).fieldNames, Record.get cached f = Record.get record' f) ∧
      ∀ f v, insert.Writes f v ∨ (f, v) ∈ (Record.type α).primaryKey.zip key.values →
        (f, v) ∈ (Record.type α).fieldNames.zip row →
          Record.get cached f = .ok v ∧ Record.get stored f = .ok v := by
  obtain ⟨st', rfl, hrun⟩ := exists_of_insert hinsert
  have hkeyed := RecordWriting.record_of_insertRecord hrun
  have hvalid' := hkeyed.valid laws hvalid
  obtain ⟨cached, hcached, hfields⟩ :=
    exists_cached_of_insert laws hnodup hcacheable hcache hopen hrun hvalid' hkey
  refine ⟨cached, get_of_ok ?_, get_of_ok ?_, hfields, fun f v hknown hrow => ?_⟩
  · refine Reading.lookup_cached hcacheable (Record.isAbsent_of_key hkey) ?_
    have hread : (repo.afterWrite st').cachingEnabled = true := henabled
    rw [hread, if_pos rfl]
    exact hcached
  · exact Reading.lookup_bypassing hselect hanswer hload
  · have hget : Record.get record' f = .ok v := by
      rcases hknown with hwrites | hmem
      · exact hkeyed.get_written laws hnodup hwritten hwrites
      · exact Record.get_of_key hkey hmem
    have hf : f ∈ (Record.type α).fieldNames := (List.of_mem_zip hrow).1
    exact ⟨(hfields f hf).trans hget, laws.get_ofValues hload hnodup hrow hvalid' hget⟩

end Repository

namespace Sample

/-- Prices with an amount that is kept and the hundredths of it, which are computed. -/
def priceSchema : Schema where
  name := "Price"
  table := some "prices"
  columns := [⟨.stored "id" "id", .integer, false⟩, ⟨.stored "amount" "amount", .integer, false⟩,
    ⟨.computed "cents" (some "amount * 100") true, .integer, false⟩]
  primaryKey := ["id"]

/-- A price of five; nobody has computed the hundredths yet. -/
def price : Row priceSchema := ⟨[.integer 1, .integer 5, .integer 0]⟩

/-- The prices of a database with this price, which has computed them. -/
def prices : Repository Unit :=
  .withCache (database [[.integer 1, .integer 5, .integer 500]]) () {} (.new 8)

/-- The key of the price. -/
def priceKey : Key priceSchema.type := ⟨[.integer 1], by decide, by decide⟩

/-- Cached and stored prices agree in the amount. -/
theorem amount_after_insert : ∃ repo' record', prices.insert price = .ok 1 (repo', record') ∧
    ∃ cached stored : Row priceSchema,
      (∃ repo'', repo'.get priceKey .bestEffort = .ok (some cached) repo'') ∧
      (∃ repo'', repo'.get priceKey .bypass = .ok (some stored) repo'') ∧
      Record.get cached "amount" = .ok (.integer 5) ∧
      Record.get stored "amount" = .ok (.integer 5) := by
  have hvalid : price.Typed := .cons rfl (.cons rfl (.cons rfl .nil))
  have hkey : Record.key price = .ok (some priceKey) := rfl
  have hload : Record.ofValues priceSchema.type.fieldNames [.integer 1, .integer 5, .integer 500] =
    .ok (⟨[.integer 1, .integer 5, .integer 500]⟩ : Row priceSchema) := rfl
  have henabled : prices.cachingEnabled = true := rfl
  obtain ⟨cached, hcached, hstored, -, hknown⟩ := Repository.get_after_insert
    (Row.lawful priceSchema) (by decide) rfl hvalid rfl henabled rfl rfl rfl hkey rfl rfl hload
  have hwritten := hknown "amount" (.integer 5)
    (.inl (List.mem_cons_of_mem _ List.mem_cons_self)) (by decide)
  exact ⟨_, price, rfl, cached, _, hcached, hstored, hwritten⟩

/-- They differ in the hundredths. -/
theorem cents_after_insert : ∃ repo' record', prices.insert price = .ok 1 (repo', record') ∧
    (∃ repo'', Repository.get (α := Row priceSchema) priceKey .bestEffort repo' =
      .ok (some ⟨[.integer 1, .integer 5, .integer 0]⟩) repo'') ∧
    ∃ repo'', Repository.get (α := Row priceSchema) priceKey .bypass repo' =
      .ok (some ⟨[.integer 1, .integer 5, .integer 500]⟩) repo'' :=
  ⟨_, _, rfl, ⟨_, rfl⟩, ⟨_, rfl⟩⟩

end Sample

end RecordStore
