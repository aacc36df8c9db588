import RecordStore.Proofs.Reading.Malformed

/-! # What is asked while reading

A connection that keeps a list of what it was asked answers as the connection does without it.
Reading over it comes to the same outcome, and the list grows by questions of a known kind
(`Reading.Recorded`): while the records of a query are read, the database is asked for the query
itself, for its keys, or for the records of a set of keys (`Reading.fetch_recorded`).  What
`Repository.asked` lists for finding is therefore what is asked when no list is kept
(`Repository.find_recorded`). -/

namespace RecordStore

variable {σ β γ : Type}

namespace Exchange

/-- The question is this query, whatever the answer. -/
def Queries (dialect : Dialect) (s : Select) : Exchange → Prop
  | query statement _ => s.compile dialect = .ok statement
  | execute _ _ | lastGeneratedKey _ => False

/-- The question is one for the records of a set of keys. -/
def QueriesKeys (dialect : Dialect) (r : RecordType) (e : Exchange) : Prop :=
  ∃ set : KeySet r, e.Queries dialect set.select

end Exchange

/-- The state over the connection with a list of what it was asked. -/
def ReadState.recorded (st : ReadState σ) (log : List Exchange) :
    ReadState (σ × List Exchange) where
  connection := (st.connection, log)
  cache := st.cache
  stats := st.stats

namespace Reading

/-- The same outcome over the connection with a list. -/
def recordedResult (log : List Exchange) : EStateM.Result StoreError (ReadState σ) β →
    EStateM.Result StoreError (ReadState (σ × List Exchange)) β
  | .ok b st => .ok b (st.recorded log)
  | .error e st => .error e (st.recorded log)

/-- The second step does what the first one does, and adds questions of this kind to the list. -/
def Recorded (Asks : Exchange → Prop) (x : Reading σ β) (y : Reading (σ × List Exchange) β) :
    Prop :=
  ∀ st log, ∃ more, (∀ e ∈ more, Asks e) ∧
    y (st.recorded log) = recordedResult (log ++ more) (x st)

/-! ### Ways of putting steps together -/

section

variable {Asks : Exchange → Prop}

/-- A step that asks for nothing. -/
theorem Recorded.of_silent {x : Reading σ β} {y : Reading (σ × List Exchange) β}
    (h : ∀ st log, y (st.recorded log) = recordedResult log (x st)) : Recorded Asks x y := by
  intro st log
  refine ⟨[], by simp, ?_⟩
  rw [List.append_nil]
  exact h st log

theorem Recorded.pure (b : β) : Recorded Asks (Pure.pure b : Reading σ β) (Pure.pure b) :=
  of_silent fun _ _ => rfl

theorem Recorded.ofExcept (x : Except StoreError β) :
    Recorded Asks (MonadExcept.ofExcept x : Reading σ β) (MonadExcept.ofExcept x) :=
  of_silent fun _ _ => by cases x <;> rfl

theorem Recorded.bind {x : Reading σ β} {y : Reading (σ × List Exchange) β} {f : β → Reading σ γ}
    {g : β → Reading (σ × List Exchange) γ} (hx : Recorded Asks x y)
    (hf : ∀ b, Recorded Asks (f b) (g b)) : Recorded Asks (x >>= f) (y >>= g) := by
  intro st log
  obtain ⟨more, hasks, hy⟩ := hx st log
  cases hst : x st with
  | error e st' =>
      rw [hst] at hy
      have hbind := bind_of_error (f := g) hy
      refine ⟨more, hasks, ?_⟩
      rw [hbind, bind_of_error hst]
      rfl
  | ok b st' =>
      rw [hst] at hy
      have hbind := bind_of_ok (f := g) hy
      obtain ⟨more', hasks', hrest⟩ := hf b st' (log ++ more)
      refine ⟨more ++ more', fun e he => ?_, ?_⟩
      · exact (List.mem_append.mp he).elim (hasks e) (hasks' e)
      · rw [hbind, bind_of_ok hst, hrest, List.append_assoc]

/-- What was computed beforehand is known to what follows. -/
theorem Recorded.ofExcept_bind (x : Except StoreError β) {f : β → Reading σ γ}
    {g : β → Reading (σ × List Exchange) γ} (h : ∀ b, x = .ok b → Recorded Asks (f b) (g b)) :
    Recorded Asks (MonadExcept.ofExcept x >>= f) (MonadExcept.ofExcept x >>= g) := by
  cases x with
  | ok b => exact h b rfl
  | error e => exact of_silent fun _ _ => rfl

theorem Recorded.foldlM {f : β → γ → Reading σ β} {g : β → γ → Reading (σ × List Exchange) β}
    (h : ∀ b c, Recorded Asks (f b c) (g b c)) (cs : List γ) (b : β) :
    Recorded Asks (cs.foldlM f b) (cs.foldlM g b) := by
  induction cs generalizing b with
  | nil => exact .pure b
  | cons c cs ih =>
      rw [List.foldlM_cons, List.foldlM_cons]
      exact (h b c).bind ih

theorem Recorded.mono {Asks' : Exchange → Prop} (hasks : ∀ e, Asks e → Asks' e)
    {x : Reading σ β} {y : Reading (σ × List Exchange) β} (h : Recorded Asks x y) :
    Recorded Asks' x y := by
  intro st log
  obtain ⟨more, hmore, hy⟩ := h st log
  exact ⟨more, fun e he => hasks e (hmore e he), hy⟩

/-- Nothing is lost of the list, and what is added is of the kind. -/
theorem Recorded.log {x : Reading σ β} {y : Reading (σ × List Exchange) β}
    (h : Recorded Asks x y) (st : ReadState (σ × List Exchange)) :
    st.connection.2 ⊆ (finalState (y st)).connection.2 ∧
      ∀ e ∈ (finalState (y st)).connection.2, e ∈ st.connection.2 ∨ Asks e := by
  obtain ⟨⟨db, log⟩, cache, stats⟩ := st
  obtain ⟨more, hasks, hy⟩ := h ⟨db, cache, stats⟩ log
  have hlog : (finalState (y ⟨(db, log), cache, stats⟩)).connection.2 = log ++ more := by
    change y ⟨(db, log), cache, stats⟩ = _ at hy
    rw [hy]
    cases x ⟨db, cache, stats⟩ <;> rfl
  rw [hlog]
  refine ⟨List.subset_append_left log more, fun e he => ?_⟩
  exact (List.mem_append.mp he).imp id (hasks e)

/-! ### Steps that ask for nothing -/

theorem count_recorded (f : ReadStats → ReadStats) :
    Recorded Asks (count f : Reading σ Unit) (count f) := .of_silent fun _ _ => rfl

theorem modifyCache_recorded (f : MemoryCache → MemoryCache) :
    Recorded Asks (modifyCache f : Reading σ Unit) (modifyCache f) := .of_silent fun _ _ => rfl

theorem hasCache_recorded : Recorded Asks (hasCache : Reading σ Bool) hasCache :=
  .of_silent fun _ _ => rfl

theorem hashOrder_recorded (conn : Connection σ) :
    Recorded Asks (hashOrder conn) (hashOrder conn.recorded) := .of_silent fun _ _ => rfl

theorem lookupAt_recorded (a : CacheAddress) :
    Recorded Asks (lookupAt a : Reading σ (Option CacheValue)) (lookupAt a) := by
  refine .of_silent fun st log => ?_
  obtain ⟨db, cache, stats⟩ := st
  cases cache <;> rfl

theorem requireRecords_recorded (r : RecordType) (s : Select) :
    Recorded Asks (requireRecords r s : Reading σ Unit) (requireRecords r s) := by
  refine .of_silent fun st log => ?_
  unfold requireRecords
  cases s.record.sameAs r <;> cases s.selection != .fields <;> rfl

variable (α : Type) [Record α]

theorem records_recorded (fields : List String) (rows : List (List Value)) :
    Recorded Asks (records fields rows : Reading σ (List α)) (records fields rows) := .ofExcept _

theorem cachedRecord_recorded (key : List Value) :
    Recorded Asks (cachedRecord key : Reading σ (Option α)) (cachedRecord key) := by
  unfold cachedRecord
  refine (lookupAt_recorded _).bind fun value => ?_
  cases value with
  | none => exact .pure none
  | some value =>
      cases value with
      | keys tuples => exact .pure none
      | row values =>
          dsimp only
          cases (Record.ofValues (Record.type α).fieldNames values : Except StatementError α) with
          | ok record => exact .pure _
          | error e => exact (modifyCache_recorded _).bind fun _ => .pure _

theorem storeRecord_recorded (key : List Value) (record : α) :
    Recorded Asks (storeRecord key record : Reading σ Unit) (storeRecord key record) := by
  unfold storeRecord
  refine hasCache_recorded.bind fun has => ?_
  cases has with
  | false => exact .pure _
  | true => exact (Recorded.ofExcept _).bind fun values => modifyCache_recorded _

theorem divide_recorded (keys : List (List Value)) :
    Recorded Asks (divide α keys : Reading σ _) (divide α keys) := by
  induction keys with
  | nil => exact .pure _
  | cons key keys ih =>
      refine (cachedRecord_recorded α key).bind fun cached => ?_
      cases cached with
      | none => exact ih.bind fun _ => .pure _
      | some record => exact (count_recorded _).bind fun _ => ih.bind fun _ => .pure _

theorem collect_recorded (found : Found α) (loaded : List α) :
    Recorded Asks (collect α found loaded : Reading σ _) (collect α found loaded) := by
  induction loaded generalizing found with
  | nil => exact .pure _
  | cons record rest ih =>
      refine (Recorded.ofExcept _).bind fun key => ?_
      refine (storeRecord_recorded α key record).bind fun _ => ?_
      exact (count_recorded _).bind fun _ => ih _

end

/-! ### Steps that ask the database -/

variable (conn : Connection σ)

/-- A query adds itself and its answer to the list. -/
theorem query_recorded_eq (statement : CompiledStatement) (st : ReadState σ) (log : List Exchange) :
    query conn.recorded statement (st.recorded log) =
      recordedResult (log ++ [.query statement (conn.query statement st.connection).1])
        (query conn statement st) := by
  have hquery := conn.recorded_query statement st.connection log
  unfold query
  rw [show (st.recorded log).connection = (st.connection, log) from rfl, hquery]
  cases conn.query statement st.connection with
  | mk answer db => cases answer <;> rfl

theorem query_recorded_eq_ok {statement : CompiledStatement} {rows : List (List Value)}
    {st st' : ReadState (σ × List Exchange)}
    (h : query conn.recorded statement st = .ok rows st') : st'.cache = st.cache ∧
      st'.connection.2 = st.connection.2 ++ [.query statement (.ok rows)] := by
  obtain ⟨⟨db, log⟩, cache, stats⟩ := st
  have hquery := query_recorded_eq conn statement ⟨db, cache, stats⟩ log
  change query conn.recorded statement ⟨(db, log), cache, stats⟩ = _ at hquery
  rw [hquery] at h
  unfold query at h
  dsimp only at h ⊢
  cases hanswer : conn.query statement db with
  | mk answer db' =>
      rw [hanswer] at h
      cases answer with
      | ok rows' =>
          cases h
          exact ⟨rfl, rfl⟩
      | error e => cases h

theorem query_recorded {s : Select} {statement : CompiledStatement}
    (h : s.compile conn.dialect = .ok statement) :
    Recorded (Exchange.Queries conn.dialect s) (query conn statement)
      (query conn.recorded statement) := by
  intro st log
  refine ⟨_, fun e he => ?_, query_recorded_eq conn statement st log⟩
  rw [List.mem_singleton.mp he]
  exact h

/-- Compiling a query tells what follows which query is asked for. -/
theorem Recorded.compile_bind {Asks : Exchange → Prop} {s : Select}
    {f : CompiledStatement → Reading σ β} {g : CompiledStatement → Reading (σ × List Exchange) β}
    (h : ∀ statement, s.compile conn.dialect = .ok statement →
      Recorded Asks (f statement) (g statement)) :
    Recorded Asks (compile conn s >>= f) (compile conn.recorded s >>= g) :=
  .ofExcept_bind _ fun statement hstatement => h statement (lift_eq_ok.mp hstatement)

variable (α : Type) [Record α]

theorem queryKeys_recorded {s : Select} {statement : CompiledStatement}
    (h : s.compile conn.dialect = .ok statement) :
    Recorded (Exchange.Queries conn.dialect s) (queryKeys conn α statement)
      (queryKeys conn.recorded α statement) :=
  (query_recorded conn h).bind fun _ => .ofExcept _

theorem takeKeys_recorded {s : Select} {statement : CompiledStatement}
    (h : s.compile conn.dialect = .ok statement) (e : Execution) :
    Recorded (Exchange.Queries conn.dialect s) (takeKeys conn α statement e)
      (takeKeys conn.recorded α statement e) := by
  cases e with
  | direct | keyThenFetch => exact queryKeys_recorded conn α h
  | keyList lifetime =>
      have hask : Recorded (Exchange.Queries conn.dialect s) (askKeys conn α statement lifetime)
          (askKeys conn.recorded α statement lifetime) :=
        (queryKeys_recorded conn α h).bind fun keys =>
          (modifyCache_recorded _).bind fun _ => .pure keys
      rw [takeKeys_keyList, takeKeys_keyList]
      unfold keyList
      refine (lookupAt_recorded _).bind fun value => ?_
      cases value with
      | none => exact hask
      | some value =>
          cases value with
          | row values => exact hask
          | keys tuples => exact (count_recorded _).bind fun _ => .pure tuples

theorem loadBatch_recorded (found : Found α) (batch : KeySet (Record.type α)) :
    Recorded (Exchange.QueriesKeys conn.dialect (Record.type α)) (loadBatch conn α found batch)
      (loadBatch conn.recorded α found batch) := by
  unfold loadBatch
  refine Recorded.compile_bind conn fun statement hstatement => ?_
  have hquery := query_recorded conn hstatement
  refine (hquery.mono fun e he => ⟨batch, he⟩).bind fun rows => ?_
  exact (records_recorded α _ rows).bind fun loaded => collect_recorded α found loaded

theorem loadMissing_recorded (batchSize : Nat) (found : Found α) (missing : List (List Value)) :
    Recorded (Exchange.QueriesKeys conn.dialect (Record.type α))
      (loadMissing conn α batchSize found missing)
      (loadMissing conn.recorded α batchSize found missing) := by
  unfold loadMissing
  cases missing with
  | nil => exact (count_recorded _).bind fun _ => .pure _
  | cons key missing =>
      refine (hashOrder_recorded conn).bind fun order => ?_
      refine (Recorded.ofExcept _).bind fun set => ?_
      exact Recorded.foldlM (loadBatch_recorded conn α) _ found

/-- Fetching the records of keys asks for records by sets of keys only. -/
theorem fetchByKeys_recorded (batchSize : Nat) (keys : List (List Value)) :
    Recorded (Exchange.QueriesKeys conn.dialect (Record.type α)) (fetchByKeys conn α batchSize keys)
      (fetchByKeys conn.recorded α batchSize keys) := by
  unfold fetchByKeys
  refine (divide_recorded α _).bind fun divided => ?_
  exact (loadMissing_recorded conn α batchSize divided.1 divided.2).bind fun found => .pure _

theorem direct_recorded (s : Select) : Recorded (Exchange.Queries conn.dialect s)
    (direct conn α s) (direct conn.recorded α s) := by
  unfold direct
  refine (requireRecords_recorded _ s).bind fun _ => ?_
  refine Recorded.compile_bind conn fun statement hstatement => ?_
  refine (query_recorded conn hstatement).bind fun rows => ?_
  exact (count_recorded _).bind fun _ => records_recorded α _ rows

/-- What may be asked for while the records of a query are read. -/
def Asks (dialect : Dialect) (r : RecordType) (s : Select) (e : Exchange) : Prop :=
  e.Queries dialect s ∨ e.Queries dialect s.keysOnly ∨ e.QueriesKeys dialect r

/-- While the records of a query are read, the database is asked for the query itself, for its keys
and for the records of sets of keys. -/
theorem fetch_recorded (batchSize : Nat) (s : Select) (e : Execution) :
    Recorded (Asks conn.dialect (Record.type α) s) (fetch conn α batchSize s e)
      (fetch conn.recorded α batchSize s e) := by
  by_cases he : e = .direct
  · subst he
    exact (direct_recorded conn α s).mono fun _ => .inl
  · rw [fetch_eq he, fetch_eq he]
    refine (requireRecords_recorded _ s).bind fun _ => ?_
    refine (Recorded.ofExcept _).bind fun _ => ?_
    refine Recorded.compile_bind conn fun statement hstatement => ?_
    have hkeys := takeKeys_recorded conn α hstatement e
    refine (hkeys.mono fun _ h => .inr (.inl h)).bind fun keys => ?_
    exact (fetchByKeys_recorded conn α batchSize keys).mono fun _ h => .inr (.inr h)

end Reading

/-! ### Finding records -/

namespace Repository

/-- The repository over its connection with this list of what was asked. -/
def logged (repo : Repository σ) (log : List Exchange) : Repository (σ × List Exchange) :=
  { repo with
    connection := repo.connection.recorded
    state := (repo.state, log) }

/-- The same outcome over the connection with a list. -/
def loggedResult (log : List Exchange) : EStateM.Result StoreError (Repository σ) β →
    EStateM.Result StoreError (Repository (σ × List Exchange)) β
  | .ok b repo => .ok b (repo.logged log)
  | .error e repo => .error e (repo.logged log)

/-- Reading over the connection with a list comes to the same outcome. -/
theorem read_recorded {Asks : Exchange → Prop} {repo : Repository σ}
    {reading : Connection σ → Reading σ β}
    {reading' : Connection (σ × List Exchange) → Reading (σ × List Exchange) β}
    (h : Reading.Recorded Asks (reading repo.connection) (reading' repo.connection.recorded)) :
    ∃ more, (∀ e ∈ more, Asks e) ∧
      read reading' repo.recorded = loggedResult more (read reading repo) := by
  obtain ⟨more, hasks, hrun⟩ :=
    h ⟨repo.state, if repo.cachingEnabled then repo.cache else none, {}⟩ []
  refine ⟨more, hasks, ?_⟩
  have hrun' : reading' repo.recorded.connection ⟨repo.recorded.state,
      if repo.recorded.cachingEnabled then repo.recorded.cache else none, {}⟩ = _ := hrun
  unfold read
  dsimp only
  rw [hrun']
  cases reading repo.connection
    ⟨repo.state, if repo.cachingEnabled then repo.cache else none, {}⟩ <;> rfl

variable (repo : Repository σ) (α : Type) [Record α] (s : Select) (strategy : Strategy)

/-- Finding over the connection with a list comes to the same outcome, and then the list has what
was asked for: the query, its keys, and records by sets of keys. -/
theorem find_recorded :
    find α s strategy repo.recorded =
        loggedResult (repo.asked (find α s strategy)) (find α s strategy repo) ∧
      ∀ e ∈ repo.asked (find α s strategy),
        Reading.Asks repo.connection.dialect (Record.type α) s e := by
  obtain ⟨more, hasks, hfind⟩ : ∃ more,
      (∀ e ∈ more, Reading.Asks repo.connection.dialect (Record.type α) s e) ∧
        find α s strategy repo.recorded = loggedResult more (find α s strategy repo) := by
    cases hresolve : strategy.resolve s repo.cachingEnabled with
    | error e =>
        have hresolve' : strategy.resolve s repo.recorded.cachingEnabled = .error e := hresolve
        refine ⟨[], by simp, ?_⟩
        rw [find_of_refused hresolve', find_of_refused hresolve]
        rfl
    | ok execution =>
        have hresolve' : strategy.resolve s repo.recorded.cachingEnabled = .ok execution := hresolve
        rw [find_of_resolve hresolve', find_of_resolve hresolve]
        exact read_recorded (Reading.fetch_recorded repo.connection α _ s execution)
  have hasked : repo.asked (find α s strategy) = more := by
    unfold asked
    rw [hfind]
    cases find α s strategy repo <;> rfl
  rw [hasked]
  exact ⟨hfind, hasks⟩

end Repository

end RecordStore
