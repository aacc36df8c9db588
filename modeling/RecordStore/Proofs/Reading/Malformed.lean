import RecordStore.Proofs.Reading.Fetch
import RecordStore.Proofs.Writing.Stages
import RecordStore.Repository

/-! # Queries that do not compile

A query that does not compile is refused before the database is asked for anything, with one
exception: where the query is read by its keys, it is the query for the keys that is compiled, and
this one may compile while the query does not (`Repository.KeysFirst`).  The reason is then a field
that neither a column nor a definition gives a value (`Select.exists_undefined`).  Reading goes on
in this case: the keys are asked for, and an answer is returned if the cache has the records of all
of them (`Repository.find_malformed`). -/

namespace RecordStore

/-! ### Fields without a value -/

/-- Neither a column nor a definition gives the field a value. -/
def Field.IsUndefined (f : Field) : Prop := ∃ required, f.kind = .computed none required

namespace RecordType

variable {r : RecordType}

theorem exists_field {name : String} (h : name ∈ r.fieldNames) :
    ∃ field ∈ r.fields, r.field name = .ok field := by
  obtain ⟨field, hfield, hname⟩ := List.mem_map.mp h
  have hfound : (r.fields.find? (·.name == name)).isSome :=
    List.find?_isSome.mpr ⟨field, hfield, beq_iff_eq.mpr hname⟩
  obtain ⟨found, hfound⟩ := Option.isSome_iff_exists.mp hfound
  refine ⟨found, List.mem_of_find?_eq_some hfound, ?_⟩
  unfold RecordType.field field?
  rw [hfound]

/-- In a record type with a table every field with a column or a definition can be read. -/
theorem readable_of_defined (htable : r.isComputed = false) {name : String} {field : Field}
    (hfield : r.field name = .ok field) (hdefined : ¬ field.IsUndefined) : r.Readable name := by
  intro scopes owner howner
  have hfield := Resolve.Resolves.ofExcept hfield
  obtain ⟨fieldName, column, kind⟩ := field
  unfold Resolve.plainColumn
  rw [howner]
  cases kind with
  | computed definition required =>
      cases definition with
      | some sql => exact ⟨_, .bind hfield (.pure _)⟩
      | none => exact absurd ⟨required, rfl⟩ hdefined
  | stored | generated =>
      refine ⟨.column ⟨r, name⟩ (if owner.1.qualified then some owner.2 else none) column,
        .bind hfield ?_⟩
      dsimp only
      rw [htable, if_neg Bool.false_ne_true]
      exact .pure _

end RecordType

/-- Where only the query for the keys compiles, some field has no value. -/
theorem Select.exists_undefined {dialect : Dialect} {s : Select} (hfields : s.selection = .fields)
    (hkeyFetch : s.requireKeyFetch = .ok ()) {statement : CompiledStatement}
    (hkeys : s.keysOnly.compile dialect = .ok statement)
    (hmalformed : ∀ compiled, s.compile dialect ≠ .ok compiled) :
    (∃ field ∈ s.record.fields, field.IsUndefined) ∧
      ∃ name ∈ s.record.fieldNames, ¬ s.record.Readable name := by
  obtain ⟨htable, -, hno⟩ := requireKeyFetch_eq_ok.mp hkeyFetch
  obtain ⟨name, hname, hunreadable⟩ :
      ∃ name ∈ s.record.fieldNames, ¬ s.record.Readable name := by
    by_contra hread
    push Not at hread
    obtain ⟨compiled, hcompiled⟩ := compile_of_keysOnly hfields hno hread hkeys
    exact hmalformed compiled hcompiled
  obtain ⟨field, hfield, hfound⟩ := RecordType.exists_field hname
  refine ⟨⟨field, hfield, ?_⟩, name, hname, hunreadable⟩
  by_contra hdefined
  exact hunreadable (RecordType.readable_of_defined htable hfound hdefined)

/-- The records of a set of keys cannot be queried if some field cannot be read. -/
theorem KeySet.compile_select_of_unreadable {r : RecordType} {name : String}
    (hname : name ∈ r.fieldNames) (hunreadable : ¬ r.Readable name) (set : KeySet r)
    (dialect : Dialect) : ∃ e, set.select.compile dialect = .error e := by
  cases hcompile : set.select.compile dialect with
  | error e => exact ⟨e, rfl⟩
  | ok compiled =>
      exact absurd (Select.readable_of_compile (s := set.select) rfl rfl hcompile name hname)
        hunreadable

namespace Reading

variable {σ α β γ : Type} {conn : Connection σ}

/-! ### Steps that fail at once -/

/-- The step fails and leaves everything as it was. -/
def Refuses (x : Reading σ β) : Prop := ∀ st, ∃ e, x st = .error e st

theorem Refuses.bind {x : Reading σ β} (h : Refuses x) (f : β → Reading σ γ) :
    Refuses (x >>= f) := by
  intro st
  obtain ⟨e, he⟩ := h st
  exact ⟨e, bind_of_error he⟩

theorem Refuses.compile_bind {s : Select} (h : ∀ compiled, s.compile conn.dialect ≠ .ok compiled)
    (f : CompiledStatement → Reading σ β) : Refuses (compile conn s >>= f) := by
  refine Refuses.bind (fun st => ?_) f
  unfold compile
  cases hcompile : s.compile conn.dialect with
  | ok compiled => exact absurd hcompile (h compiled)
  | error e => exact ⟨_, rfl⟩

/-- What follows a check on the query fails at once if the check does, and otherwise if it does so
for queries that pass. -/
theorem Refuses.requireRecords_bind {r : RecordType} {s : Select} {x : Reading σ β}
    (h : s.selection = .fields → Refuses x) : Refuses (requireRecords r s >>= fun _ => x) := by
  intro st
  cases hrequire : (requireRecords r s : Reading σ Unit) st with
  | ok u st' =>
      obtain ⟨-, hfields, rfl⟩ := requireRecords_eq_ok.mp hrequire
      rw [bind_of_ok hrequire]
      exact h hfields st
  | error e st' =>
      have hstate : st' = st := by
        unfold requireRecords at hrequire
        cases hr : s.record.sameAs r <;> cases hs : s.selection != .fields <;>
          rw [hr, hs] at hrequire <;> cases hrequire <;> rfl
      rw [bind_of_error hrequire, hstate]
      exact ⟨e, rfl⟩

/-! ### Records that cannot be loaded -/

/-- Without a batch that can be loaded only what was found before is returned. -/
theorem foldlM_of_refuses {f : β → γ → Reading σ β} (h : ∀ b c, Refuses (f b c)) {cs : List γ}
    {b b' : β} {st st' : ReadState σ} (hrun : cs.foldlM f b st = .ok b' st') : b' = b := by
  cases cs with
  | nil =>
      cases hrun
      rfl
  | cons c cs =>
      rw [List.foldlM_cons] at hrun
      obtain ⟨e, he⟩ := (h b c).bind (fun b => cs.foldlM f b) st
      rw [he] at hrun
      cases hrun

/-- However the step ends, the database has not been asked for anything. -/
def KeepsConnection (x : Reading σ β) : Prop :=
  RecordStore.Within (fun st st' => st'.connection = st.connection) x

theorem KeepsConnection.bind {x : Reading σ β} {f : β → Reading σ γ} (hx : KeepsConnection x)
    (hf : ∀ b, KeepsConnection (f b)) : KeepsConnection (x >>= f) :=
  RecordStore.Within.bind (fun _ _ _ h h' => h'.trans h) hx hf

theorem KeepsConnection.foldlM {f : β → γ → Reading σ β} (hf : ∀ b c, KeepsConnection (f b c))
    (cs : List γ) (b : β) : KeepsConnection (cs.foldlM f b) :=
  RecordStore.Within.foldlM (R := fun (st st' : ReadState σ) => st'.connection = st.connection)
    (fun _ => rfl) (fun _ _ _ h h' => h'.trans h) hf cs b

/-- What keeps the connection may follow unseen. -/
theorem connection_bind {x : Reading σ β} {f : β → Reading σ γ} (hf : ∀ b, KeepsConnection (f b))
    (st : ReadState σ) :
    (finalState ((x >>= f) st)).connection = (finalState (x st)).connection := by
  cases hx : x st with
  | ok b st' =>
      rw [bind_of_ok hx]
      exact hf b st'
  | error e st' =>
      rw [bind_of_error hx]
      rfl

theorem Refuses.keepsConnection {x : Reading σ β} (h : Refuses x) : KeepsConnection x := by
  intro st
  obtain ⟨e, he⟩ := h st
  rw [he]
  rfl

variable [Record α]

/-- Some field of the records cannot be read. -/
def Unloadable (α : Type) [Record α] : Prop :=
  ∃ name ∈ (Record.type α).fieldNames, ¬ (Record.type α).Readable name

theorem Unloadable.loadBatch_refuses (h : Unloadable α) (found : Found α)
    (batch : KeySet (Record.type α)) : Refuses (loadBatch conn α found batch) := by
  obtain ⟨name, hname, hunreadable⟩ := h
  unfold loadBatch
  refine Refuses.compile_bind (fun compiled hcompiled => ?_) _
  obtain ⟨e, he⟩ := KeySet.compile_select_of_unreadable hname hunreadable batch conn.dialect
  rw [he] at hcompiled
  cases hcompiled

theorem Unloadable.loadMissing_keepsConnection (h : Unloadable α) (batchSize : Nat)
    (found : Found α) (missing : List (List Value)) :
    KeepsConnection (loadMissing conn α batchSize found missing) := by
  unfold loadMissing
  split
  · exact fun _ => rfl
  · refine KeepsConnection.bind (fun _ => rfl) fun order => ?_
    refine KeepsConnection.bind (fun st => ?_) fun keys => ?_
    · cases KeySet.ofValues (Record.type α) missing order <;> rfl
    · have hbatch (found : Found α) (batch : KeySet (Record.type α)) :
          KeepsConnection (loadBatch conn α found batch) :=
        (h.loadBatch_refuses found batch).keepsConnection
      exact KeepsConnection.foldlM hbatch _ _

theorem Unloadable.eq_of_loadMissing (h : Unloadable α) {batchSize : Nat} {found found' : Found α}
    {missing : List (List Value)} {st st' : ReadState σ}
    (hrun : loadMissing conn α batchSize found missing st = .ok found' st') : found' = found := by
  unfold loadMissing at hrun
  split at hrun
  · cases hrun
    rfl
  · obtain ⟨order, st₁, -, hrun⟩ := bind_eq_ok.mp hrun
    obtain ⟨keys, st₂, -, hrun⟩ := bind_eq_ok.mp hrun
    exact foldlM_of_refuses h.loadBatch_refuses hrun

/-- Records that cannot be loaded are returned from the cache, and the database is not asked. -/
theorem Unloadable.fetchByKeys_cached (h : Unloadable α) (batchSize : Nat)
    (keys : List (List Value)) (st : ReadState σ) :
    (finalState (fetchByKeys conn α batchSize keys st)).connection = st.connection ∧
      ∀ records st', fetchByKeys conn α batchSize keys st = .ok records st' →
        ∀ record ∈ records, ∃ key, cached? α st.cache key = some record := by
  obtain ⟨st₁, hdivide, hdb⟩ := divide_eq α (distinct keys) st
  unfold fetchByKeys
  rw [bind_of_ok hdivide]
  constructor
  · rw [← hdb]
    exact KeepsConnection.bind (h.loadMissing_keepsConnection batchSize _ _)
      (fun _ _ => rfl) st₁
  · intro records st' hrun record hrecord
    obtain ⟨found, st₂, hload, hrun⟩ := bind_eq_ok.mp hrun
    cases hrun
    obtain ⟨key, -, hlookup⟩ := List.mem_filterMap.mp hrecord
    rw [h.eq_of_loadMissing hload] at hlookup
    obtain ⟨key', -, hfound⟩ := List.mem_filterMap.mp (mem_of_lookup_eq_some hlookup)
    obtain ⟨record', hcached, heq⟩ := Option.map_eq_some_iff.mp hfound
    cases heq
    exact ⟨_, hcached⟩

/-! ### Keys first -/

/-- The keys of a query for keys, which reading by keys begins with. -/
def takeKeys (conn : Connection σ) (α : Type) [Record α] (statement : CompiledStatement) :
    Execution → Reading σ (List (List Value))
  | .keyList lifetime => keyList conn α statement lifetime
  | _ => queryKeys conn α statement

theorem takeKeys_keyList (statement : CompiledStatement) (lifetime : Lifetime) :
    takeKeys conn α statement (.keyList lifetime) = keyList conn α statement lifetime := rfl

/-- Reading by keys takes the keys and fetches their records. -/
theorem fetch_eq {e : Execution} (he : e ≠ .direct) (batchSize : Nat) (s : Select) :
    fetch conn α batchSize s e = (do
      requireRecords (Record.type α) s
      ofExcept s.requireKeyFetch
      let statement ← compile conn s.keysOnly
      let keys ← takeKeys conn α statement e
      fetchByKeys conn α batchSize keys) := by
  cases e with
  | direct => exact absurd rfl he
  | keyThenFetch => rfl
  | keyList lifetime => rfl

/-- Reading by keys succeeds if the query passes, its keys are taken and their records fetched. -/
theorem fetch_eq_ok {e : Execution} (he : e ≠ .direct) {batchSize : Nat} {s : Select}
    {st st' : ReadState σ} {fetched : List α} :
    fetch conn α batchSize s e st = .ok fetched st' ↔
      s.record.sameAs (Record.type α) = true ∧ s.selection = .fields ∧
        s.requireKeyFetch = .ok () ∧
        ∃ statement keys st₁, s.keysOnly.compile conn.dialect = .ok statement ∧
          takeKeys conn α statement e st = .ok keys st₁ ∧
          fetchByKeys conn α batchSize keys st₁ = .ok fetched st' := by
  rw [fetch_eq he]
  constructor
  · intro h
    obtain ⟨_, st₁, hrequire, h⟩ := bind_eq_ok.mp h
    obtain ⟨hrecord, hfields, rfl⟩ := requireRecords_eq_ok.mp hrequire
    obtain ⟨_, st₂, hcheck, h⟩ := bind_eq_ok.mp h
    obtain ⟨hkeyFetch, rfl⟩ := ofExcept_eq_ok.mp hcheck
    obtain ⟨statement, st₃, hcompile, h⟩ := bind_eq_ok.mp h
    obtain ⟨hstatement, rfl⟩ := ofExcept_eq_ok.mp hcompile
    obtain ⟨keys, st₄, htake, h⟩ := bind_eq_ok.mp h
    exact ⟨hrecord, hfields, hkeyFetch, statement, keys, st₄, lift_eq_ok.mp hstatement, htake, h⟩
  · rintro ⟨hrecord, hfields, hkeyFetch, statement, keys, st₁, hstatement, htake, h⟩
    have hpasses : requireRecords (Record.type α) s st = .ok () st :=
      requireRecords_eq_ok.mpr ⟨hrecord, hfields, rfl⟩
    rw [bind_of_ok hpasses, hkeyFetch, bind_of_ok (ofExcept_ok _ _),
      bind_of_ok (compile_of_ok conn hstatement st), bind_of_ok htake]
    exact h

variable {statement : CompiledStatement} {lifetime : Lifetime}

theorem connection_of_queryKeys (st : ReadState σ) :
    (finalState (queryKeys conn α statement st)).connection =
      (conn.query statement st.connection).2 := by
  unfold queryKeys
  cases hquery : conn.query statement st.connection with
  | mk answer db =>
      cases answer with
      | ok rows =>
          rw [bind_of_ok (query_of_ok conn hquery)]
          cases rows.mapM (Record.normalizeKey α) <;> rfl
      | error e =>
          have herror : query conn statement st = .error e { st with connection := db } := by
            unfold query
            rw [hquery]
          rw [bind_of_error herror]
          rfl

theorem cache_of_queryKeys {keys : List (List Value)} {st st' : ReadState σ}
    (h : queryKeys conn α statement st = .ok keys st') : st'.cache = st.cache := by
  unfold queryKeys at h
  obtain ⟨rows, st₁, hquery, h⟩ := bind_eq_ok.mp h
  obtain ⟨-, rfl⟩ := ofExcept_eq_ok.mp h
  unfold query at hquery
  split at hquery <;> cases hquery
  rfl

theorem connection_of_askKeys (st : ReadState σ) :
    (finalState (askKeys conn α statement lifetime st)).connection =
      (conn.query statement st.connection).2 := by
  unfold askKeys
  rw [connection_bind (fun _ _ => rfl), connection_of_queryKeys]

theorem cached?_of_askKeys {keys : List (List Value)} {st st' : ReadState σ}
    (h : askKeys conn α statement lifetime st = .ok keys st') :
    cached? α st'.cache = cached? α st.cache := by
  obtain ⟨asked, st₁, hquery, h⟩ := bind_eq_ok.mp h
  cases h
  refine (cached?_storeKeys st₁.cache statement keys lifetime).trans ?_
  rw [cache_of_queryKeys hquery]

/-- Keys are asked for with a single query, unless the cache has their list. -/
theorem connection_of_takeKeys (e : Execution) (st : ReadState σ) :
    ((finalState (takeKeys conn α statement e st)).connection = st.connection ∧
        ∃ keys, valueAt st.cache (.ofKeyList (Record.type α) statement) = some (.keys keys)) ∨
      (finalState (takeKeys conn α statement e st)).connection =
        (conn.query statement st.connection).2 := by
  cases e with
  | direct | keyThenFetch => exact .inr (connection_of_queryKeys st)
  | keyList lifetime =>
      rw [takeKeys_keyList]
      obtain ⟨st₁, hdb, -, ⟨keys, hvalue, hlist, -⟩ | ⟨-, hlist, -⟩⟩ :=
        keyList_cases conn α statement lifetime st
      · rw [hlist]
        exact .inl ⟨hdb, keys, hvalue⟩
      · rw [hlist, connection_of_askKeys, hdb]
        exact .inr rfl

/-- Taking keys changes no record that the cache has. -/
theorem cached?_of_takeKeys {e : Execution} {st st' : ReadState σ} {keys : List (List Value)}
    (h : takeKeys conn α statement e st = .ok keys st') :
    cached? α st'.cache = cached? α st.cache := by
  cases e with
  | direct | keyThenFetch => exact congrArg (cached? α) (cache_of_queryKeys h)
  | keyList lifetime =>
      rw [takeKeys_keyList] at h
      obtain ⟨st₁, -, hvalues, htaken⟩ := keyList_cases conn α statement lifetime st
      have hsame : cached? α st₁.cache = cached? α st.cache := cached?_congr fun _ => hvalues _
      rcases htaken with ⟨keys', -, hlist, -⟩ | ⟨-, hlist, -⟩
      · rw [hlist] at h
        cases h
        exact hsame
      · rw [hlist] at h
        exact (cached?_of_askKeys h).trans hsame

end Reading

/-! ### Finding records -/

namespace Repository

variable {σ β : Type}

/-- The repository over its connection with a list of what that is asked. -/
def recorded (repo : Repository σ) : Repository (σ × List Exchange) :=
  { repo with
    connection := repo.connection.recorded
    state := (repo.state, []) }

/-- What the database is asked during an operation. -/
def asked (repo : Repository σ) (op : Operation (σ × List Exchange) β) : List Exchange :=
  (finalState (op repo.recorded)).state.2

/-- Reading the query begins with its query for keys: reads are cached, the strategy and the query
allow it, and the query for keys compiles. -/
structure KeysFirst (repo : Repository σ) (s : Select) (strategy : Strategy) : Prop where
  enabled : repo.cachingEnabled = true
  execution : strategy.execution ≠ .direct
  keyFetch : s.requireKeyFetch = .ok ()
  fields : s.selection = .fields
  compiles : ∃ statement, s.keysOnly.compile repo.connection.dialect = .ok statement

variable {repo : Repository σ} {α : Type} [Record α] {s : Select} {strategy : Strategy}

/-- A query that does not compile is refused at once, unless its keys are read first. -/
theorem fetch_refuses (hmalformed : ∀ compiled, s.compile repo.connection.dialect ≠ .ok compiled)
    (hnot : ¬ repo.KeysFirst s strategy) {e : Execution}
    (hresolve : strategy.resolve s repo.cachingEnabled = .ok e) (batchSize : Nat) :
    Reading.Refuses (Reading.fetch repo.connection α batchSize s e) := by
  by_cases he : e = .direct
  · subst he
    exact .requireRecords_bind fun _ => .compile_bind hmalformed _
  · obtain ⟨hkeyFetch, henabled, rfl⟩ := Strategy.of_resolve hresolve he
    rw [Reading.fetch_eq he, hkeyFetch]
    refine .requireRecords_bind fun hfields => ?_
    refine Reading.Refuses.compile_bind (fun statement hstatement => ?_) _
    exact hnot ⟨henabled, he, hkeyFetch, hfields, statement, hstatement⟩

/-- Refused, the query leaves the database and the cache alone. -/
theorem find_refused (hmalformed : ∀ compiled, s.compile repo.connection.dialect ≠ .ok compiled)
    (hnot : ¬ repo.KeysFirst s strategy) :
    ∃ e repo', find α s strategy repo = .error e repo' ∧ repo'.state = repo.state ∧
      repo'.cache = repo.cache := by
  cases hresolve : strategy.resolve s repo.cachingEnabled with
  | error e => exact ⟨e, repo, find_of_refused hresolve, rfl, rfl⟩
  | ok execution =>
      obtain ⟨e, he⟩ := fetch_refuses (α := α) hmalformed hnot hresolve
        (repo.config.batchSize repo.connection.dialect)
        ⟨repo.state, if repo.cachingEnabled then repo.cache else none, {}⟩
      rw [find_of_resolve hresolve]
      unfold read
      dsimp only
      rw [he]
      refine ⟨e, _, rfl, rfl, ?_⟩
      unfold afterRead
      dsimp only
      split <;> rfl

/-- Where the keys are read first, finding takes the keys and fetches their records. -/
theorem find_of_keysFirst (h : repo.KeysFirst s strategy) (hrecord : s.record = Record.type α)
    {statement : CompiledStatement}
    (hstatement : s.keysOnly.compile repo.connection.dialect = .ok statement) :
    find α s strategy repo = read (fun conn => do
      let keys ← Reading.takeKeys conn α statement strategy.execution
      Reading.fetchByKeys conn α (repo.config.batchSize conn.dialect) keys) repo := by
  have hresolve : strategy.resolve s repo.cachingEnabled = .ok strategy.execution := by
    unfold Strategy.resolve
    rw [h.keyFetch, h.enabled]
    rfl
  have hrequire (st : ReadState σ) : Reading.requireRecords (Record.type α) s st = .ok () st :=
    Reading.requireRecords_eq_ok.mpr ⟨by rw [hrecord]; exact beq_self_eq_true _, h.fields, rfl⟩
  rw [find_of_resolve hresolve]
  unfold read
  dsimp only
  rw [Reading.fetch_eq h.execution, bind_of_ok (hrequire _), h.keyFetch,
    bind_of_ok (ofExcept_ok _ _), bind_of_ok (Reading.compile_of_ok repo.connection hstatement _)]

theorem state_read (reading : Connection σ → Reading σ β) :
    (finalState (read reading repo)).state = (finalState (reading repo.connection
      ⟨repo.state, if repo.cachingEnabled then repo.cache else none, {}⟩)).connection := by
  unfold read
  dsimp only
  split <;> next hrun => rw [hrun]; rfl

/-- Where the keys are read first and the records cannot be loaded, the keys are all that is asked
for. -/
theorem asked_of_keysFirst (h : repo.KeysFirst s strategy) (hrecord : s.record = Record.type α)
    (hunloadable : Reading.Unloadable α) {statement : CompiledStatement}
    (hstatement : s.keysOnly.compile repo.connection.dialect = .ok statement) :
    (repo.asked (find α s strategy) = [] ∧ ∃ keys,
        Reading.valueAt repo.cache (.ofKeyList (Record.type α) statement) = some (.keys keys)) ∨
      repo.asked (find α s strategy) =
        [.query statement (repo.connection.query statement repo.state).1] := by
  have hrecorded : repo.recorded.KeysFirst s strategy :=
    ⟨h.enabled, h.execution, h.keyFetch, h.fields, h.compiles⟩
  have hfind : find α s strategy repo.recorded = _ :=
    find_of_keysFirst hrecorded hrecord hstatement
  unfold asked
  rw [hfind, state_read, Reading.connection_bind fun keys st =>
    (hunloadable.fetchByKeys_cached _ keys st).1]
  have hcache : (if repo.recorded.cachingEnabled then repo.recorded.cache else none) = repo.cache :=
    if_pos h.enabled
  rw [hcache]
  rcases Reading.connection_of_takeKeys (α := α) strategy.execution _ with ⟨hdb, hkeys⟩ | hdb
  · exact .inl ⟨congrArg Prod.snd hdb, hkeys⟩
  · exact .inr (congrArg Prod.snd hdb)

/-- Records that cannot be loaded are returned from the cache. -/
theorem cached?_of_read (henabled : repo.cachingEnabled = true)
    (hunloadable : Reading.Unloadable α) {statement : CompiledStatement} {e : Execution}
    {batchSize : Connection σ → Nat} {records : List α} {repo' : Repository σ}
    (h : read (fun conn => do
      let keys ← Reading.takeKeys conn α statement e
      Reading.fetchByKeys conn α (batchSize conn) keys) repo = .ok records repo') :
    ∀ record ∈ records, ∃ key, Reading.cached? α repo.cache key = some record := by
  unfold read at h
  dsimp only at h
  rw [henabled, if_pos rfl] at h
  split at h
  · next hrun =>
    cases h
    obtain ⟨keys, st₁, hkeys, hfetch⟩ := bind_eq_ok.mp hrun
    have hcached := (hunloadable.fetchByKeys_cached _ keys st₁).2 _ _ hfetch
    rw [Reading.cached?_of_takeKeys hkeys] at hcached
    exact hcached
  · cases h

/-- A query that does not compile is refused before the database is asked for anything, and leaves
the cache alone, unless its keys are read first.  In that case a field of its records has no value;
the keys are asked for unless the cache has their list, nothing else is asked for, and only records
that the cache has are returned. -/
theorem find_malformed (hrecord : s.record = Record.type α) {e : StatementError}
    (hmalformed : s.compile repo.connection.dialect = .error e) (strategy : Strategy) :
    (¬ repo.KeysFirst s strategy →
      (∃ e' repo', find α s strategy repo = .error e' repo' ∧ repo'.state = repo.state ∧
        repo'.cache = repo.cache) ∧ repo.asked (find α s strategy) = []) ∧
    (repo.KeysFirst s strategy →
      (∃ field ∈ s.record.fields, field.IsUndefined) ∧
      (∀ statement, s.keysOnly.compile repo.connection.dialect = .ok statement →
        (repo.asked (find α s strategy) = [] ∧ ∃ keys,
          Reading.valueAt repo.cache (.ofKeyList (Record.type α) statement) = some (.keys keys)) ∨
        repo.asked (find α s strategy) =
          [.query statement (repo.connection.query statement repo.state).1]) ∧
      ∀ records repo', find α s strategy repo = .ok records repo' →
        ∀ record ∈ records, ∃ key, Reading.cached? α repo.cache key = some record) := by
  have hnone : ∀ compiled, s.compile repo.connection.dialect ≠ .ok compiled := by
    intro compiled hcompiled
    rw [hmalformed] at hcompiled
    cases hcompiled
  constructor
  · intro hnot
    refine ⟨find_refused hnone hnot, ?_⟩
    have hnot' : ¬ repo.recorded.KeysFirst s strategy := fun h =>
      hnot ⟨h.enabled, h.execution, h.keyFetch, h.fields, h.compiles⟩
    obtain ⟨e', repo', hfind, hstate, -⟩ : ∃ e' repo', find α s strategy repo.recorded =
        .error e' repo' ∧ repo'.state = repo.recorded.state ∧ repo'.cache = repo.recorded.cache :=
      find_refused hnone hnot'
    unfold asked
    rw [hfind]
    exact congrArg Prod.snd hstate
  · intro hfirst
    obtain ⟨key, hkey⟩ := hfirst.compiles
    obtain ⟨hundefined, hunreadable⟩ :=
      Select.exists_undefined hfirst.fields hfirst.keyFetch hkey hnone
    have hunloadable : Reading.Unloadable α := by
      rw [hrecord] at hunreadable
      exact hunreadable
    refine ⟨hundefined, fun statement hstatement => ?_, fun records repo' hfind => ?_⟩
    · exact asked_of_keysFirst hfirst hrecord hunloadable hstatement
    · rw [find_of_keysFirst hfirst hrecord hkey] at hfind
      exact cached?_of_read hfirst.enabled hunloadable hfind

end Repository

namespace Sample

/-- Remarks under a number, with a text that nothing gives a value. -/
def remarkSchema : Schema where
  name := "Remark"
  table := some "remarks"
  columns := [⟨.stored "id" "id", .integer, false⟩, ⟨.computed "text" none false, .text, true⟩]
  primaryKey := ["id"]

/-- All remarks. -/
def remarks : Select where
  record := remarkSchema.type

/-- The query for their keys. -/
def remarkKeys : CompiledStatement := ⟨"SELECT t0.\"id\" AS \"id\" FROM \"remarks\" t0", []⟩

/-- A database without remarks. -/
def remarkable : Repository Unit := .withCache (database []) () {} (.new 8)

theorem remarks_malformed : remarks.compile .sqlite =
    .error (.invalidClause (.undefinedField "Remark" "text")) := rfl

theorem remarks_keysFirst : remarkable.KeysFirst remarks .bestEffort where
  enabled := rfl
  execution := nofun
  keyFetch := rfl
  fields := rfl
  compiles := ⟨remarkKeys, rfl⟩

/-- As a whole the query is refused before the database is asked; by its keys it is not, since the
text has no value. -/
theorem remarks_refused_as_a_whole :
    (∃ e repo', remarkable.find (Row remarkSchema) remarks .bypass = .error e repo' ∧
        repo'.cache = remarkable.cache) ∧
      remarkable.asked (Repository.find (Row remarkSchema) remarks .bypass) = [] ∧
      ∃ field ∈ remarkSchema.type.fields, field.IsUndefined := by
  have hwhole : ¬ remarkable.KeysFirst remarks .bypass := fun h => h.execution rfl
  obtain ⟨⟨e, repo', hfind, -, hcache⟩, hasked⟩ :=
    (Repository.find_malformed (α := Row remarkSchema) rfl remarks_malformed .bypass).1 hwhole
  obtain ⟨hundefined, -, -⟩ := (Repository.find_malformed (α := Row remarkSchema)
    rfl remarks_malformed .bestEffort).2 remarks_keysFirst
  exact ⟨⟨e, repo', hfind, hcache⟩, hasked, hundefined⟩

/-- Read by its keys, the query that does not compile is answered. -/
theorem remarks_answered :
    remarks.compile .sqlite = .error (.invalidClause (.undefinedField "Remark" "text")) ∧
      (∃ repo', remarkable.find (Row remarkSchema) remarks .bestEffort = .ok [] repo') ∧
      remarkable.asked (Repository.find (Row remarkSchema) remarks .bestEffort) =
        [.query remarkKeys (.ok [])] :=
  ⟨rfl, ⟨_, rfl⟩, rfl⟩

end Sample

end RecordStore
