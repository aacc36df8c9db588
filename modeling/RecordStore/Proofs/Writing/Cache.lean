import RecordStore.Operation.Writing
import RecordStore.Proofs.Cache.Eviction
import RecordStore.Proofs.Cache.Stored
import RecordStore.Proofs.Computation

/-! # What writing does to the cache

A change of rows applies its directive if it succeeds and leaves the cache alone if it fails
(`Writing.Guarded`).  An insertion removes the key lists of its record type and then stores the
record under its key (`RecordWriting.insertRecord_cache`); where it fails, only the key lists may be
gone. -/

namespace RecordStore

/-! ### Insertions have tables -/

theorem Insert.record_of_ofRecord {α : Type} [Record α] {record : α} {i : Insert}
    (h : Insert.ofRecord record = .ok i) : i.record = Record.type α := by
  unfold Insert.ofRecord at h
  obtain ⟨values, -, h⟩ := except_bind_eq_ok.mp h
  cases h
  rfl

/-- A record type with a table is not computed. -/
theorem RecordType.isComputed_of_tableName {r : RecordType} {table : String}
    (h : r.tableName = .ok table) : r.isComputed = false := by
  unfold RecordType.tableName at h
  unfold RecordType.isComputed
  cases ht : r.table with
  | some t => rfl
  | none =>
      rw [ht] at h
      cases h

theorem Insert.isComputed_of_compile {dialect : Dialect} {i : Insert}
    {compiled : CompiledStatement} (h : compile dialect (.insert i) = .ok compiled) :
    i.record.isComputed = false := by
  unfold compile Statement.resolve at h
  cases hresolve : Resolve.statement dialect true [] (.insert i) 0 with
  | error e next =>
      rw [hresolve] at h
      cases h
  | ok command next =>
      change Resolve.insert dialect true [] i 0 = .ok command next at hresolve
      unfold Resolve.insert at hresolve
      obtain ⟨table, next', htable, hrest⟩ := bind_eq_ok.mp hresolve
      exact RecordType.isComputed_of_tableName (ofExcept_eq_ok.mp htable).1

namespace Writing

variable {σ : Type} (conn : Connection σ)

/-- A step that succeeded has applied a directive for the record type, a failed one has left the
cache alone. -/
def Guarded (r : RecordType) (d : Directive) (x : Writing σ Nat) : Prop := ∀ st,
  match x st with
  | .ok _ st' => d.record.sameAs r = true ∧ st'.cache = st.cache.map fun c => (d.apply c).2
  | .error _ st' => st'.cache = st.cache

theorem run_cache (s : Statement) (st : WriteState σ) :
    (finalState (run conn s st)).cache = st.cache := by
  unfold run
  split
  · rfl
  · split <;> rfl

theorem cache_evict (f : MemoryCache → Nat × MemoryCache) (st : WriteState σ) :
    (finalState (evict f st)).cache = st.cache.map fun c => (f c).2 := by
  obtain ⟨db, cache, stats⟩ := st
  cases cache <;> rfl

/-- Running a statement and then evicting. -/
theorem guarded_run {r : RecordType} {d : Directive} (h : d.record.sameAs r = true)
    (s : Statement) : Guarded r d (do
      let affected ← run conn s
      evict d.apply
      return affected) := by
  intro st
  have hcache := run_cache conn s st
  cases hrun : run conn s st with
  | error e t =>
      rw [bind_of_error hrun]
      rwa [hrun] at hcache
  | ok affected t =>
      rw [hrun] at hcache
      change t.cache = st.cache at hcache
      rw [bind_of_ok hrun, ← hcache]
      exact ⟨h, cache_evict d.apply t⟩

theorem Guarded.ofExcept_bind {r : RecordType} {d : Directive} {β : Type} (x : Except StoreError β)
    {f : β → Writing σ Nat} (h : ∀ b, x = .ok b → Guarded r d (f b)) :
    Guarded r d (MonadExcept.ofExcept x >>= f : Writing σ Nat) := by
  intro st
  cases x with
  | ok b => exact h b rfl st
  | error e => rfl

/-- A directive that passes is one for the record type. -/
theorem sameAs_of_validate {d : Directive} {r : RecordType} {u : Unit}
    (h : d.validate r = .ok u) : d.record.sameAs r = true := by
  unfold Directive.validate at h
  split at h
  · assumption
  · cases h

theorem updateMatching_guarded (r : RecordType) (assignments : List FieldExpr) (condition : Expr)
    (guard : Directive) : Guarded r guard (updateMatching conn r assignments condition guard) :=
  .ofExcept_bind _ fun _ h => guarded_run conn (sameAs_of_validate h) _

theorem deleteMatching_guarded (r : RecordType) (condition : Expr) (guard : Directive) :
    Guarded r guard (deleteMatching conn r condition guard) :=
  .ofExcept_bind _ fun _ h => guarded_run conn (sameAs_of_validate h) _

/-- A statement that was run compiles. -/
theorem compile_of_run {conn : Connection σ} {s : Statement} {st st' : WriteState σ} {n : Nat}
    (h : run conn s st = .ok n st') : ∃ compiled, compile conn.dialect s = .ok compiled := by
  unfold run at h
  cases hcompile : compile conn.dialect s with
  | ok compiled => exact ⟨compiled, rfl⟩
  | error e =>
      rw [hcompile] at h
      cases h

variable {α : Type} [Record α]

/-- An update of a record evicts by the key of the record. -/
theorem updateRecord_guarded {record : α} {key : Key (Record.type α)}
    (h : Record.key record = .ok (some key)) :
    Guarded (Record.type α) (.rows (.key _ key)) (updateRecord conn record) := by
  unfold updateRecord
  rw [h]
  refine .ofExcept_bind _ fun key? hkey => ?_
  obtain rfl : some key = key? := Except.ok.inj hkey
  exact .ofExcept_bind _ fun update _ => guarded_run conn (beq_self_eq_true _) _

/-- A record without a key is not updated. -/
theorem updateRecord_of_no_key {record : α} (h : ∀ key, Record.key record ≠ .ok (some key))
    (st : WriteState σ) : ∃ e, updateRecord conn record st = .error e st := by
  unfold updateRecord
  cases hkey : Record.key record with
  | error e => exact ⟨e, rfl⟩
  | ok key? =>
      cases key? with
      | none => exact ⟨_, rfl⟩
      | some key => exact absurd hkey (h key)

end Writing

/-! ### Insertions -/

/-- What the insertion of a record, with the key that it has in the end, makes of a cache. -/
inductive Inserted {α : Type} [Record α] (record : α) (c : MemoryCache) : MemoryCache → Prop
  /-- Records of the type are not cached. -/
  | uncached (h : (Record.type α).isCacheable = false) : Inserted record c c
  /-- The record has no key yet. -/
  | keyless (h : Record.key record = .ok none) :
      Inserted record c (c.evictKeyLists (Record.type α)).2
  | row {key : Key (Record.type α)} {values : List Value}
      (hkey : Record.key record = .ok (some key)) (hvalues : Record.toValues record = .ok values) :
      Inserted record c ((c.evictKeyLists (Record.type α)).2.storeAt
        (.ofRow (Record.type α) key.values) (.row values))

/-- The key of a record has the values of its key fields. -/
theorem Record.keyValues_of_key {α : Type} [Record α] {record : α} {key : Key (Record.type α)}
    (h : Record.key record = .ok (some key)) : Record.keyValues record = .ok key.values := by
  unfold Record.key at h
  obtain ⟨values, hvalues, h⟩ := except_bind_eq_ok.mp h
  split at h
  · cases h
  · obtain ⟨key', hkey, h⟩ := except_bind_eq_ok.mp h
    cases h
    rw [hvalues]
    unfold Key.ofValues at hkey
    split at hkey
    · split at hkey
      · cases hkey
        rfl
      · cases hkey
    · cases hkey

/-- A record with a key is one that a row can have. -/
theorem Record.identified_of_key {α : Type} [Record α] {record : α} {key : Key (Record.type α)}
    (h : Record.key record = .ok (some key)) : Record.Identified record := by
  have hvalues := Record.keyValues_of_key h
  refine ⟨key.values, hvalues, ?_⟩
  unfold Record.key at h
  obtain ⟨values, hvalues', h⟩ := except_bind_eq_ok.mp h
  obtain rfl : values = key.values := Except.ok.inj (hvalues'.symm.trans hvalues)
  split at h
  · cases h
  · next habsent => exact Bool.not_eq_true _ |>.mp habsent

theorem Inserted.steps {α : Type} [Record α] {record : α} {c c' : MemoryCache}
    (h : Inserted record c c') :
    CacheSteps (StoresRowOf fun record' => record' = record ∧ Record.Identified record') c c' := by
  cases h with
  | uncached _ => exact .refl _
  | keyless _ => exact MemoryCache.evictKeyLists_steps c _
  | @row key values hkey hvalues =>
      refine (MemoryCache.evictKeyLists_steps c _).trans (.single (.store ?_))
      exact ⟨record, key.values, values, ⟨rfl, Record.identified_of_key hkey⟩,
        Record.keyValues_of_key hkey, hvalues, rfl, rfl⟩

theorem Inserted.optionalSteps {α : Type} [Record α] {record : α} {c c' : Option MemoryCache}
    (h : Option.Rel (Inserted record) c c') :
    OptionalSteps (StoresRowOf fun record' => record' = record ∧ Record.Identified record')
      c c' := by
  cases h with
  | none => exact .none
  | some h => exact .some h.steps

namespace RecordWriting

variable {σ : Type} (conn : Connection σ) {α β γ : Type} {Stored : Storable}

/-- However the step ends, it leaves the cache alone. -/
def LeavesCache (x : RecordWriting σ α β) : Prop :=
  RecordStore.Within (fun p p' => p'.1.cache = p.1.cache) x

/-- However the step ends, it has changed the cache in the allowed ways only. -/
def Within (Stored : Storable) (x : RecordWriting σ α β) : Prop :=
  RecordStore.Within (fun p p' => OptionalSteps Stored p.1.cache p'.1.cache) x

theorem LeavesCache.bind {x : RecordWriting σ α β} {f : β → RecordWriting σ α γ}
    (hx : LeavesCache x) (hf : ∀ b, LeavesCache (f b)) : LeavesCache (x >>= f) :=
  RecordStore.Within.bind (fun _ _ _ h h' => h'.trans h) hx hf

theorem LeavesCache.ofExcept (x : Except StoreError β) :
    LeavesCache (MonadExcept.ofExcept x : RecordWriting σ α β) := by
  intro p
  cases x <;> rfl

theorem LeavesCache.get : LeavesCache (MonadState.get : RecordWriting σ α _) := fun _ => rfl

theorem lift_of_ok {w : Writing σ β} {st st' : WriteState σ} {b : β} (h : w st = .ok b st')
    (record : α) : (lift w : RecordWriting σ α β) (st, record) = .ok b (st', record) := by
  unfold lift
  dsimp only
  rw [h]

theorem lift_of_error {w : Writing σ β} {st st' : WriteState σ} {e : StoreError}
    (h : w st = .error e st') (record : α) :
    (lift w : RecordWriting σ α β) (st, record) = .error e (st', record) := by
  unfold lift
  dsimp only
  rw [h]

theorem lift_run_leaves (s : Statement) :
    LeavesCache (lift (Writing.run conn s) : RecordWriting σ α Nat) := by
  rintro ⟨st, record⟩
  have hcache := Writing.run_cache conn s st
  cases hrun : Writing.run conn s st with
  | ok n st' =>
      rw [lift_of_ok hrun]
      rwa [hrun] at hcache
  | error e st' =>
      rw [lift_of_error hrun]
      rwa [hrun] at hcache

theorem lastGeneratedKey_leaves :
    LeavesCache (lastGeneratedKey conn : RecordWriting σ α (Option Value)) := by
  rintro ⟨st, record⟩
  unfold lastGeneratedKey
  dsimp only
  split <;> rfl

variable [Record α]

/-- Assigning a key asks the connection once and then changes the record at most. -/
theorem assignGeneratedKey_within {R : WriteState σ × α → WriteState σ × α → Prop}
    (refl : ∀ p, R p p) (trans : ∀ p q r, R p q → R q r → R p r)
    (hasked : RecordStore.Within R (lastGeneratedKey conn))
    (hset : ∀ st record record', R (st, record) (st, record')) :
    RecordStore.Within R (assignGeneratedKey conn) := by
  unfold assignGeneratedKey
  refine RecordStore.Within.bind trans refl fun p => ?_
  refine RecordStore.Within.ofExcept_bind refl _ fun name? _ => ?_
  cases name? with
  | none => exact refl
  | some name =>
      refine RecordStore.Within.bind trans hasked fun v? => ?_
      cases v? with
      | none => exact refl
      | some v =>
          rintro ⟨st, record⟩
          change R (st, record) (finalState
            ((ofExcept (StoreError.lift (Record.set record name v)) >>=
              fun r => MonadState.set (st, r) : RecordWriting σ α Unit) (st, record)))
          cases StoreError.lift (Record.set record name v) with
          | error e => exact refl _
          | ok record' => exact hset st record record'

theorem assignGeneratedKey_leaves :
    LeavesCache (assignGeneratedKey conn : RecordWriting σ α Unit) :=
  assignGeneratedKey_within conn (fun _ => rfl) (fun _ _ _ h h' => h'.trans h)
    (lastGeneratedKey_leaves conn) fun _ _ _ => rfl

theorem sendInsert_leaves : LeavesCache (sendInsert conn : RecordWriting σ α Nat) := by
  unfold sendInsert
  refine LeavesCache.bind .get fun p => ?_
  refine LeavesCache.bind (.ofExcept _) fun insert => ?_
  refine LeavesCache.bind (lift_run_leaves conn _) fun affected => ?_
  exact LeavesCache.bind (assignGeneratedKey_leaves conn) fun _ _ => rfl

/-- Caching an inserted record where there is no place for it does nothing. -/
theorem cacheInserted_uncached {st : WriteState σ} (record : α)
    (h : (st.cache.isSome && (Record.type α).isCacheable) = false) :
    (cacheInserted : RecordWriting σ α Unit) (st, record) = .ok () (st, record) := by
  change (if (st.cache.isSome && (Record.type α).isCacheable) = true then
    (do lift (Writing.evict (·.evictKeyLists (Record.type α))); rememberRecord :
      RecordWriting σ α Unit) else pure ()) (st, record) = _
  rw [h]
  rfl

theorem rememberRecord_eq (st : WriteState σ) (record : α) :
    match (rememberRecord : RecordWriting σ α Unit) (st, record) with
    | .ok _ (st', record') => record' = record ∧
        ((Record.key record = .ok none ∧ st' = st) ∨
          ∃ key values, Record.key record = .ok (some key) ∧ Record.toValues record = .ok values ∧
            st' = { st with
              cache := st.cache.map (MemoryCache.storeAt · (.ofRow (Record.type α) key.values)
                (.row values)) })
    | .error _ (st', _) => st' = st := by
  have hget : (MonadState.get : RecordWriting σ α _) (st, record) =
      .ok (st, record) (st, record) := rfl
  unfold rememberRecord
  rw [bind_of_ok hget]
  dsimp only
  cases hkey : Record.key record with
  | error e =>
      rw [bind_of_error (ofExcept_error e _)]
  | ok key? =>
      rw [bind_of_ok (ofExcept_ok key? _)]
      cases key? with
      | none => exact ⟨rfl, .inl ⟨rfl, rfl⟩⟩
      | some key =>
          dsimp only
          cases hvalues : Record.toValues record with
          | error e =>
              rw [StoreError.lift, bind_of_error (ofExcept_error _ _)]
          | ok values =>
              rw [StoreError.lift, bind_of_ok (ofExcept_ok values _)]
              exact ⟨rfl, .inr ⟨key, values, rfl, rfl, rfl⟩⟩

theorem cacheInserted_cached {st : WriteState σ} {c : MemoryCache} (record : α)
    (hc : st.cache = some c) (h : (Record.type α).isCacheable = true) :
    match (cacheInserted : RecordWriting σ α Unit) (st, record) with
    | .ok _ (st', record') => record' = record ∧ ∃ c', st'.cache = some c' ∧ Inserted record c c'
    | .error _ (st', _) => st'.cache = some (c.evictKeyLists (Record.type α)).2 := by
  obtain ⟨st₁, hevict⟩ : ∃ st₁, Writing.evict (·.evictKeyLists (Record.type α)) st = .ok () st₁ :=
    ⟨_, rfl⟩
  have hcache := Writing.cache_evict (·.evictKeyLists (Record.type α)) st
  rw [hevict, hc] at hcache
  change st₁.cache = some (c.evictKeyLists (Record.type α)).2 at hcache
  have hrun : (cacheInserted : RecordWriting σ α Unit) (st, record) =
      (rememberRecord : RecordWriting σ α Unit) (st₁, record) := by
    change (if (st.cache.isSome && (Record.type α).isCacheable) = true then
      (do lift (Writing.evict (·.evictKeyLists (Record.type α))); rememberRecord :
        RecordWriting σ α Unit) else pure ()) (st, record) = _
    rw [hc, h]
    exact bind_of_ok (lift_of_ok hevict record)
  have hremember := rememberRecord_eq st₁ record
  rw [hrun]
  cases hres : (rememberRecord : RecordWriting σ α Unit) (st₁, record) with
  | error e p =>
      rw [hres] at hremember
      exact (congrArg WriteState.cache hremember).trans hcache
  | ok u p =>
      rw [hres] at hremember
      obtain ⟨hrecord, ⟨hkey, hst⟩ | ⟨key, values, hkey, hvalues, hst⟩⟩ := hremember
      · exact ⟨hrecord, _, (congrArg WriteState.cache hst).trans hcache, .keyless hkey⟩
      · refine ⟨hrecord, _, ?_, .row hkey hvalues⟩
        rw [hst]
        dsimp only
        rw [hcache, Option.map_some]

/-- Caching removes the key lists first, and stores the record last. -/
theorem cacheInserted_cache (st : WriteState σ) (record : α) :
    match (cacheInserted : RecordWriting σ α Unit) (st, record) with
    | .ok _ (st', record') => Option.Rel (Inserted record') st.cache st'.cache
    | .error _ (st', _) => OptionalSteps (fun _ _ => False) st.cache st'.cache := by
  cases hcache : st.cache with
  | none =>
      rw [cacheInserted_uncached record (by rw [hcache]; rfl)]
      change Option.Rel _ none st.cache
      rw [hcache]
      exact .none
  | some c =>
      cases hcacheable : (Record.type α).isCacheable with
      | false =>
          rw [cacheInserted_uncached record (by rw [hcacheable, Bool.and_false])]
          change Option.Rel _ (some c) st.cache
          rw [hcache]
          exact .some (.uncached hcacheable)
      | true =>
          have hstored := cacheInserted_cached record hcache hcacheable
          cases hrun : (cacheInserted : RecordWriting σ α Unit) (st, record) with
          | error e p =>
              rw [hrun] at hstored
              change OptionalSteps _ (some c) p.1.cache
              rw [show p.1.cache = _ from hstored]
              exact .some (MemoryCache.evictKeyLists_steps c _)
          | ok u p =>
              rw [hrun] at hstored
              obtain ⟨hrecord, c', hc', hinserted⟩ := hstored
              change Option.Rel (Inserted p.2) (some c) p.1.cache
              rw [hrecord, hc']
              exact .some hinserted

/-- An insertion that succeeds caches the record as it is in the end; one that fails stores nothing.
-/
theorem insertRecord_cache (st : WriteState σ) (record : α) :
    match insertRecord conn (st, record) with
    | .ok _ (st', record') => Option.Rel (Inserted record') st.cache st'.cache
    | .error _ (st', _) => OptionalSteps (fun _ _ => False) st.cache st'.cache := by
  have hsent := sendInsert_leaves conn (st, record)
  unfold insertRecord
  cases hsend : sendInsert conn (st, record) with
  | error e p =>
      rw [hsend] at hsent
      rw [bind_of_error hsend]
      change OptionalSteps _ st.cache p.1.cache
      rw [show p.1.cache = st.cache from hsent]
      exact .refl _
  | ok affected p =>
      obtain ⟨st₁, record₁⟩ := p
      rw [hsend] at hsent
      change st₁.cache = st.cache at hsent
      have hcached := cacheInserted_cache st₁ record₁
      rw [bind_of_ok hsend, ← hsent]
      cases hrun : (cacheInserted : RecordWriting σ α Unit) (st₁, record₁) with
      | error e p =>
          rw [bind_of_error hrun]
          rwa [hrun] at hcached
      | ok u p =>
          rw [bind_of_ok hrun]
          rwa [hrun] at hcached

/-- A record that was inserted has a table. -/
theorem insertRecord_table {st : WriteState σ} {record : α} {n : Nat} {p : WriteState σ × α}
    (h : insertRecord conn (st, record) = .ok n p) : (Record.type α).isComputed = false := by
  unfold insertRecord at h
  obtain ⟨affected, p₁, hsend, -⟩ := bind_eq_ok.mp h
  unfold sendInsert at hsend
  obtain ⟨p₀, t₀, -, hsend⟩ := bind_eq_ok.mp hsend
  obtain ⟨insert, t₁, hinsert, hsend⟩ := bind_eq_ok.mp hsend
  obtain ⟨affected', t₂, hrun, -⟩ := bind_eq_ok.mp hsend
  have hrecord := Insert.record_of_ofRecord (lift_eq_ok.mp (ofExcept_eq_ok.mp hinsert).1)
  rw [← hrecord]
  obtain ⟨st₁, record₁⟩ := t₁
  cases hrun' : Writing.run conn (.insert insert) st₁ with
  | error e st₂ =>
      rw [lift_of_error hrun'] at hrun
      cases hrun
  | ok m st₂ =>
      obtain ⟨compiled, hcompiled⟩ := Writing.compile_of_run hrun'
      exact Insert.isComputed_of_compile hcompiled

end RecordWriting

end RecordStore
