import RecordStore.Proofs.Reading.Recorded

/-! # Reads that pass the cache by

While caching is disabled no read touches the cache, and some reads never do: counting, reading as
the query says, and best effort on a query that cannot be read by its keys (`Read.PassesBy`).  Such
a read leaves the cache as it is, comes to the same outcome over any other cache, and asks the
database at most once (`Repository.reads_past_cache`).

The cache is out of reach on three levels.  The repository hands none over while caching is
disabled, whatever the steps of reading would do with it (`Repository.read_over_of_disabled`); a
step may have no use for a cache (`Reading.Heedless`); and a strategy may resolve to the direct way
of reading (`Repository.resolve_of_passesBy`). -/

namespace RecordStore

variable {σ β γ : Type}

/-! ### Another cache -/

/-- The state over another cache. -/
def ReadState.onCache (st : ReadState σ) (cache : Option MemoryCache) : ReadState σ :=
  { st with cache }

namespace Reading

/-- The outcome over another cache. -/
def overResult (cache : Option MemoryCache) : EStateM.Result StoreError (ReadState σ) β →
    EStateM.Result StoreError (ReadState σ) β
  | .ok b st => .ok b (st.onCache cache)
  | .error e st => .error e (st.onCache cache)

/-- The step comes to the same outcome over any cache, and leaves that cache as it is. -/
def Heedless (x : Reading σ β) : Prop := ∀ st cache, x (st.onCache cache) = overResult cache (x st)

namespace Heedless

theorem pure (b : β) : Heedless (Pure.pure b : Reading σ β) := fun _ _ => rfl

theorem ofExcept (x : Except StoreError β) : Heedless (MonadExcept.ofExcept x : Reading σ β) := by
  intro st cache
  cases x <;> rfl

theorem count (f : ReadStats → ReadStats) : Heedless (Reading.count f : Reading σ Unit) :=
  fun _ _ => rfl

theorem bind {x : Reading σ β} {f : β → Reading σ γ} (hx : Heedless x) (hf : ∀ b, Heedless (f b)) :
    Heedless (x >>= f) := by
  intro st cache
  have hover := hx st cache
  cases hst : x st with
  | ok b st' =>
      rw [hst] at hover
      rw [bind_of_ok hover, bind_of_ok hst]
      exact hf b st' cache
  | error e st' =>
      rw [hst] at hover
      rw [bind_of_error hover, bind_of_error hst]
      rfl

variable (conn : Connection σ)

theorem query (statement : CompiledStatement) : Heedless (Reading.query conn statement) := by
  intro st cache
  have hdb : (st.onCache cache).connection = st.connection := rfl
  unfold Reading.query
  rw [hdb]
  cases conn.query statement st.connection with
  | mk answer db => cases answer <;> rfl

theorem requireRecords (r : RecordType) (s : Select) :
    Heedless (Reading.requireRecords r s : Reading σ Unit) := by
  intro st cache
  unfold Reading.requireRecords
  cases s.record.sameAs r <;> cases s.selection != .fields <;> rfl

/-- Counting rows has no use for a cache. -/
theorem countRows (r : RecordType) (s : Select) : Heedless (Reading.countRows conn r s) := by
  unfold Reading.countRows
  refine (requireRecords r s).bind fun _ => (ofExcept _).bind fun statement => ?_
  refine (query conn statement).bind fun rows => ?_
  cases (rows.head?.bind List.head?).bind Value.toInteger? with
  | some n => exact .pure _
  | none => exact fun _ _ => rfl

variable {α : Type} [Record α]

/-- Reading a query as it is has no use for a cache. -/
theorem direct (s : Select) : Heedless (Reading.direct conn α s) := by
  unfold Reading.direct
  refine (requireRecords _ s).bind fun _ => (ofExcept _).bind fun statement => ?_
  refine (query conn statement).bind fun rows => ?_
  exact (count _).bind fun _ => ofExcept _

/-- Looking a record up has no use for a cache that it is told to leave alone. -/
theorem lookup (target : LookupTarget (Record.type α)) :
    Heedless (Reading.lookup conn false target) := by
  have hcached : (cachedTarget false target : Reading σ (Option α)) = Pure.pure none := by
    unfold cachedTarget
    cases target.cacheKey? <;> rfl
  have hload : Heedless (loadRecord conn false target : Reading σ (Option α)) := by
    unfold loadRecord
    refine (ofExcept _).bind fun statement => (query conn statement).bind fun rows => ?_
    refine (ofExcept _).bind fun loaded => ?_
    cases loaded.head? with
    | none => exact .pure none
    | some record => exact (count _).bind fun _ => .pure (some record)
  unfold Reading.lookup
  dsimp only
  rw [Bool.false_and, hcached]
  exact hload

end Heedless

/-! ### One question at most -/

/-- The second step does what the first one does, and adds one question to the list at most. -/
def AsksOnce (x : Reading σ β) (y : Reading (σ × List Exchange) β) : Prop :=
  ∀ st log, ∃ more, more.length ≤ 1 ∧ y (st.recorded log) = recordedResult (log ++ more) (x st)

/-- The second step does what the first one does, and adds nothing to the list. -/
abbrev Silent (x : Reading σ β) (y : Reading (σ × List Exchange) β) : Prop :=
  Recorded (fun _ => False) x y

theorem Silent.eq {x : Reading σ β} {y : Reading (σ × List Exchange) β} (h : Silent x y)
    (st : ReadState σ) (log : List Exchange) : y (st.recorded log) = recordedResult log (x st) := by
  obtain ⟨more, hnone, hy⟩ := h st log
  rw [hy, List.eq_nil_iff_forall_not_mem.mpr hnone, List.append_nil]

section

variable {Asks : Exchange → Prop} (α : Type) [Record α]

theorem rememberRecord_recorded (record : α) :
    Recorded Asks (rememberRecord record : Reading σ Unit) (rememberRecord record) := by
  refine hasCache_recorded.bind fun has => ?_
  cases has with
  | false => exact .pure _
  | true =>
      refine (Recorded.ofExcept _).bind fun key => ?_
      cases isAbsentKey key with
      | false => exact storeRecord_recorded α key record
      | true => exact .pure _

theorem cachedTarget_recorded (usesCache : Bool) (target : LookupTarget (Record.type α)) :
    Recorded Asks (cachedTarget usesCache target : Reading σ (Option α))
      (cachedTarget usesCache target) := by
  unfold cachedTarget
  cases target.cacheKey? with
  | none => exact .pure _
  | some key =>
      cases usesCache with
      | false => exact .pure _
      | true => exact cachedRecord_recorded α key

end

namespace AsksOnce

variable {x : Reading σ β} {y : Reading (σ × List Exchange) β} {f : β → Reading σ γ}
  {g : β → Reading (σ × List Exchange) γ}

theorem of_silent (h : Silent x y) : AsksOnce x y := by
  intro st log
  refine ⟨[], Nat.zero_le 1, ?_⟩
  rw [List.append_nil]
  exact h.eq st log

/-- The question may follow what asks for nothing. -/
theorem silent_bind (hx : Silent x y) (hf : ∀ b, AsksOnce (f b) (g b)) :
    AsksOnce (x >>= f) (y >>= g) := by
  intro st log
  have hy := hx.eq st log
  cases hst : x st with
  | ok b st' =>
      rw [hst] at hy
      rw [bind_of_ok hst]
      have hbind := bind_of_ok (f := g) hy
      rw [hbind]
      exact hf b st' log
  | error e st' =>
      rw [hst] at hy
      have hbind := bind_of_error (f := g) hy
      refine ⟨[], Nat.zero_le 1, ?_⟩
      rw [hbind, bind_of_error hst, List.append_nil]
      rfl

/-- What asks for nothing may follow the question. -/
theorem bind_silent (hx : AsksOnce x y) (hf : ∀ b, Silent (f b) (g b)) :
    AsksOnce (x >>= f) (y >>= g) := by
  intro st log
  obtain ⟨more, hmore, hy⟩ := hx st log
  refine ⟨more, hmore, ?_⟩
  cases hst : x st with
  | ok b st' =>
      rw [hst] at hy
      have hbind := bind_of_ok (f := g) hy
      rw [hbind, bind_of_ok hst]
      exact (hf b).eq st' (log ++ more)
  | error e st' =>
      rw [hst] at hy
      have hbind := bind_of_error (f := g) hy
      rw [hbind, bind_of_error hst]
      rfl

variable (conn : Connection σ)

theorem query (statement : CompiledStatement) :
    AsksOnce (Reading.query conn statement) (Reading.query conn.recorded statement) :=
  fun st log => ⟨[_], Nat.le_refl 1, query_recorded_eq conn statement st log⟩

/-- Counting rows sends the query for their number at most. -/
theorem countRows (r : RecordType) (s : Select) :
    AsksOnce (Reading.countRows conn r s) (Reading.countRows conn.recorded r s) := by
  unfold Reading.countRows
  refine silent_bind (requireRecords_recorded r s) fun _ => ?_
  refine silent_bind (.ofExcept _) fun statement => ?_
  refine (query conn statement).bind_silent fun rows => ?_
  cases (rows.head?.bind List.head?).bind Value.toInteger? with
  | some n => exact .pure _
  | none => exact .of_silent fun _ _ => rfl

variable (α : Type) [Record α]

/-- Reading a query as it is sends the query at most. -/
theorem direct (s : Select) : AsksOnce (Reading.direct conn α s) (Reading.direct conn.recorded α s)
    := by
  unfold Reading.direct
  refine silent_bind (requireRecords_recorded _ s) fun _ => ?_
  refine silent_bind (.ofExcept _) fun statement => ?_
  refine (query conn statement).bind_silent fun rows => ?_
  exact (count_recorded _).bind fun _ => records_recorded α _ rows

/-- Loading a record sends its query at most. -/
theorem loadRecord (usesCache : Bool) (target : LookupTarget (Record.type α)) :
    AsksOnce (Reading.loadRecord conn usesCache target)
      (Reading.loadRecord conn.recorded usesCache target) := by
  unfold Reading.loadRecord
  refine silent_bind (.ofExcept _) fun statement => ?_
  refine (query conn statement).bind_silent fun rows => ?_
  refine (records_recorded α _ rows).bind fun loaded => ?_
  cases loaded.head? with
  | none => exact .pure _
  | some record =>
      refine (count_recorded _).bind fun _ => ?_
      cases usesCache with
      | false => exact .pure _
      | true => exact (rememberRecord_recorded α record).bind fun _ => .pure _

/-- Looking a record up sends its query at most, whether or not the cache is used. -/
theorem lookup (useCache : Bool) (target : LookupTarget (Record.type α)) :
    AsksOnce (Reading.lookup conn useCache target)
      (Reading.lookup conn.recorded useCache target) := by
  unfold Reading.lookup
  refine silent_bind (cachedTarget_recorded α _ target) fun cached => ?_
  cases cached with
  | none => exact loadRecord conn α _ target
  | some record => exact .of_silent ((count_recorded _).bind fun _ => .pure _)

end AsksOnce

end Reading

/-! ### Operations that read -/

namespace Repository

/-- A call that reads and returns a value of type `β`. -/
inductive Read : Type → Type 1 where
  | get {α : Type} [Record α] (key : Key (Record.type α)) (strategy : Strategy) : Read (Option α)
  | findOne (α : Type) [Record α] (condition : Expr) : Read (Option α)
  | find (α : Type) [Record α] (s : Select) (strategy : Strategy) : Read (List α)
  | count (α : Type) [Record α] (s : Select) : Read Nat

namespace Read

/-- The operation of the call. -/
def run : Read β → Operation σ β
  | get key strategy => Repository.get key strategy
  | findOne α condition => Repository.findOne α condition
  | find α s strategy => Repository.find α s strategy
  | count α s => Repository.count α s

/-- The call passes the cache by, also while caching is enabled. -/
def PassesBy : Read β → Prop
  | get _ strategy => strategy = .bypass
  | findOne _ _ => False
  | find _ s strategy => strategy = .bypass ∨ strategy = .wholeResult ∨
      strategy = .bestEffort ∧ s.requireKeyFetch ≠ .ok ()
  | count _ _ => True

end Read

/-- The repository over another cache. -/
def onCache (repo : Repository σ) (cache : Option MemoryCache) : Repository σ := { repo with cache }

/-- The outcome over another cache. -/
def overResult (cache : Option MemoryCache) : EStateM.Result StoreError (Repository σ) β →
    EStateM.Result StoreError (Repository σ) β
  | .ok b repo => .ok b (repo.onCache cache)
  | .error e repo => .error e (repo.onCache cache)

theorem onCache_self (repo : Repository σ) : repo.onCache repo.cache = repo := rfl

theorem cache_overResult (cache : Option MemoryCache)
    (result : EStateM.Result StoreError (Repository σ) β) :
    (finalState (overResult cache result)).cache = cache := by
  cases result <;> rfl

theorem state_overResult (cache : Option MemoryCache)
    (result : EStateM.Result StoreError (Repository σ) β) :
    (finalState (overResult cache result)).state = (finalState result).state := by
  cases result <;> rfl

/-- What the steps of reading begin with. -/
def readStart (repo : Repository σ) : ReadState σ :=
  ⟨repo.state, if repo.cachingEnabled then repo.cache else none, {}⟩

/-- What the outcome of the steps of reading is for the repository. -/
def readResult (repo : Repository σ) : EStateM.Result StoreError (ReadState σ) β →
    EStateM.Result StoreError (Repository σ) β
  | .ok b st => .ok b (repo.afterRead st)
  | .error e st => .error e (repo.afterRead st)

theorem read_eq (repo : Repository σ) (reading : Connection σ → Reading σ β) :
    read reading repo = repo.readResult (reading repo.connection repo.readStart) := by
  unfold read readStart
  dsimp only
  cases reading repo.connection
    ⟨repo.state, if repo.cachingEnabled then repo.cache else none, {}⟩ <;> rfl

/-- While caching is disabled the steps of reading are not given the cache. -/
theorem read_over_of_disabled {repo : Repository σ} (hdisabled : repo.cachingEnabled = false)
    (reading : Connection σ → Reading σ β) (cache : Option MemoryCache) :
    read reading (repo.onCache cache) = overResult cache (read reading repo) := by
  have hdisabled' : (repo.onCache cache).cachingEnabled = false := hdisabled
  have hstart : (repo.onCache cache).readStart = repo.readStart := by
    unfold readStart
    rw [hdisabled, hdisabled']
    rfl
  have hafter (st : ReadState σ) :
      (repo.onCache cache).afterRead st = (repo.afterRead st).onCache cache := by
    unfold afterRead
    rw [hdisabled, hdisabled']
    rfl
  rw [read_eq, read_eq, hstart]
  change readResult _ (reading repo.connection repo.readStart) = _
  cases reading repo.connection repo.readStart with
  | ok b st => exact congrArg (EStateM.Result.ok b) (hafter st)
  | error e st => exact congrArg (EStateM.Result.error e) (hafter st)

/-- Steps of reading that have no use for a cache may be given any. -/
theorem read_over_of_heedless {repo : Repository σ} {reading : Connection σ → Reading σ β}
    (h : (reading repo.connection).Heedless) (cache : Option MemoryCache) :
    read reading (repo.onCache cache) = overResult cache (read reading repo) := by
  cases hcaching : repo.cachingEnabled with
  | false => exact read_over_of_disabled hcaching reading cache
  | true =>
      have hcaching' : (repo.onCache cache).cachingEnabled = true := hcaching
      have hstart : (repo.onCache cache).readStart = repo.readStart.onCache cache := by
        unfold readStart
        rw [hcaching, hcaching']
        rfl
      have hafter (st : ReadState σ) :
          (repo.onCache cache).afterRead (st.onCache cache) =
            (repo.afterRead st).onCache cache := by
        unfold afterRead
        rw [hcaching, hcaching']
        rfl
      rw [read_eq, read_eq, hstart]
      change readResult _ (reading repo.connection (repo.readStart.onCache cache)) = _
      rw [h]
      cases reading repo.connection repo.readStart with
      | ok b st => exact congrArg (EStateM.Result.ok b) (hafter st)
      | error e st => exact congrArg (EStateM.Result.error e) (hafter st)

/-- Steps of reading that ask once are an operation that asks once. -/
theorem asked_read_le (repo : Repository σ) {x : Reading σ β}
    (reading : Connection (σ × List Exchange) → Reading (σ × List Exchange) β)
    (h : Reading.AsksOnce x (reading repo.connection.recorded)) :
    (repo.asked (read reading)).length ≤ 1 := by
  obtain ⟨more, hmore, hrun⟩ := h repo.readStart []
  have hrun' : reading repo.recorded.connection repo.recorded.readStart =
      Reading.recordedResult more (x repo.readStart) := hrun
  have hasked : repo.asked (read reading) = more := by
    unfold asked
    rw [read_eq, hrun']
    cases x repo.readStart <;> rfl
  rw [hasked]
  exact hmore

/-- A strategy by which a query is read past the cache is to read it directly, or is refused. -/
theorem resolve_of_passesBy {s : Select} {strategy : Strategy} {cachingEnabled : Bool}
    (h : cachingEnabled = false ∨ strategy = .bypass ∨ strategy = .wholeResult ∨
      strategy = .bestEffort ∧ s.requireKeyFetch ≠ .ok ()) :
    strategy.resolve s cachingEnabled = .ok .direct ∨
      ∃ e, strategy.resolve s cachingEnabled = .error e ∧ strategy.insistsOnKeys = true ∧
        s.requireKeyFetch = .error e := by
  unfold Strategy.resolve
  cases hkeyFetch : s.requireKeyFetch with
  | error e =>
      cases hinsists : strategy.insistsOnKeys with
      | false => exact .inl rfl
      | true => exact .inr ⟨e, rfl, rfl, rfl⟩
  | ok u =>
      left
      rcases h with rfl | rfl | rfl | ⟨-, hrefused⟩
      · rfl
      · cases cachingEnabled <;> rfl
      · cases cachingEnabled <;> rfl
      · exact absurd hkeyFetch hrefused

/-- A strategy that is to read directly reads as a query is read that bypasses the cache. -/
theorem find_eq_bypass {repo : Repository σ} {s : Select} {strategy : Strategy}
    (h : strategy.resolve s repo.cachingEnabled = .ok .direct) (α : Type) [Record α] :
    find α s strategy repo = find α s .bypass repo := by
  have hbypass : Strategy.bypass.resolve s repo.cachingEnabled = .ok .direct :=
    (resolve_of_passesBy (.inr (.inl rfl))).resolve_right fun ⟨_, _, hinsists, _⟩ => by
      cases hinsists
  rw [find_of_resolve h, find_of_resolve hbypass]

variable (repo : Repository σ)

/-- Over another cache the call comes to the same outcome and leaves that cache as it is. -/
theorem run_over {r : Read β} (h : repo.cachingEnabled = false ∨ r.PassesBy)
    (cache : Option MemoryCache) : r.run (repo.onCache cache) = overResult cache (r.run repo) := by
  cases r with
  | @get α _ key strategy =>
      change get key strategy (repo.onCache cache) = overResult cache (get key strategy repo)
      unfold get
      rcases h with hdisabled | hbypass
      · exact read_over_of_disabled hdisabled _ cache
      · cases hbypass
        exact read_over_of_heedless (.lookup repo.connection _) cache
  | findOne α condition =>
      change findOne α condition (repo.onCache cache) = overResult cache (findOne α condition repo)
      exact read_over_of_disabled (h.resolve_right id) _ cache
  | find α s strategy =>
      change find α s strategy (repo.onCache cache) = overResult cache (find α s strategy repo)
      rcases resolve_of_passesBy h with hdirect | ⟨e, hrefused, -, -⟩
      · have hdirect' : strategy.resolve s (repo.onCache cache).cachingEnabled = .ok .direct :=
          hdirect
        rw [find_of_resolve hdirect', find_of_resolve hdirect]
        exact read_over_of_heedless (.direct repo.connection s) cache
      · have hrefused' : strategy.resolve s (repo.onCache cache).cachingEnabled = .error e :=
          hrefused
        rw [find_of_refused hrefused', find_of_refused hrefused]
        rfl
  | count α s =>
      change count α s (repo.onCache cache) = overResult cache (count α s repo)
      unfold count
      exact read_over_of_heedless (.countRows repo.connection _ s) cache

/-- The call asks the database once at most. -/
theorem asked_run_le {r : Read β} (h : repo.cachingEnabled = false ∨ r.PassesBy) :
    (repo.asked r.run).length ≤ 1 := by
  cases r with
  | @get α _ key strategy =>
      exact asked_read_le repo (fun conn => Reading.lookup conn (strategy ≠ .bypass) (.key key))
        (.lookup repo.connection α _ _)
  | findOne α condition =>
      exact asked_read_le repo (fun conn => Reading.lookup conn true (.condition condition))
        (.lookup repo.connection α _ _)
  | find α s strategy =>
      change (finalState (find α s strategy repo.recorded)).state.2.length ≤ 1
      have hresolve : strategy.resolve s repo.recorded.cachingEnabled = .ok .direct ∨ _ :=
        resolve_of_passesBy h
      rcases hresolve with hdirect | ⟨e, hrefused, -, -⟩
      · rw [find_of_resolve hdirect]
        exact asked_read_le repo (fun conn => Reading.direct conn α s)
          (.direct repo.connection α s)
      · rw [find_of_refused hrefused]
        exact Nat.zero_le 1
  | count α s =>
      exact asked_read_le repo (fun conn => Reading.countRows conn (Record.type α) s)
        (.countRows repo.connection _ s)

/-- A read that passes the cache by leaves the cache as it is, asks the database once at most, and
over any other cache asks the same and comes to the same outcome.  While caching is disabled these
are all reads, and a query is read by every strategy that is not refused as it is read by the one
that bypasses the cache. -/
theorem reads_past_cache :
    (∀ {β : Type} (r : Read β), repo.cachingEnabled = false ∨ r.PassesBy →
      (finalState (r.run repo)).cache = repo.cache ∧ (repo.asked r.run).length ≤ 1 ∧
      ∀ cache, r.run (repo.onCache cache) = overResult cache (r.run repo) ∧
        (repo.onCache cache).asked r.run = repo.asked r.run) ∧
    (repo.cachingEnabled = false → ∀ (α : Type) [Record α] (s : Select) (strategy : Strategy),
      (∃ e, find α s strategy repo = .error e repo ∧ strategy.insistsOnKeys = true ∧
          s.requireKeyFetch = .error e) ∨
        find α s strategy repo = find α s .bypass repo ∧
          repo.asked (find α s strategy) = repo.asked (find α s .bypass)) := by
  constructor
  · intro β r h
    have hsame := run_over repo h repo.cache
    refine ⟨?_, asked_run_le repo h, fun cache => ⟨run_over repo h cache, ?_⟩⟩
    · rw [onCache_self] at hsame
      rw [hsame, cache_overResult]
    · have hrecorded := run_over repo.recorded h cache
      change (finalState (r.run (repo.recorded.onCache cache))).state.2 = _
      rw [hrecorded, state_overResult]
      rfl
  · intro hdisabled α _ s strategy
    have hresolve : strategy.resolve s repo.cachingEnabled = .ok .direct ∨ _ :=
      resolve_of_passesBy (.inl hdisabled)
    rcases hresolve with hdirect | ⟨e, hrefused, hinsists, hkeyFetch⟩
    · have hdirect' : strategy.resolve s repo.recorded.cachingEnabled = .ok .direct := hdirect
      refine .inr ⟨find_eq_bypass hdirect α, ?_⟩
      unfold asked
      rw [find_eq_bypass hdirect' α]
    · exact .inl ⟨e, find_of_refused hrefused, hinsists, hkeyFetch⟩

end Repository

namespace Sample

/-- A repository with an empty cache over a database that answers every query with one item. -/
def shelf : Repository Unit := .withCache (database [[.integer 1, .text "one"]]) () {} (.new 8)

/-- All items. -/
def shelved : Select where
  record := schema.type

/-- Reading the whole result passes the cache by; with caching disabled the items are read by their
keys in the same way. -/
theorem shelved_read_past_cache :
    ((finalState (shelf.find Item shelved .wholeResult)).cache = shelf.cache ∧
      (shelf.asked (Repository.find Item shelved .wholeResult)).length ≤ 1) ∧
    (shelf.setCachingEnabled false).find Item shelved .keyThenFetch =
      (shelf.setCachingEnabled false).find Item shelved .bypass := by
  have hwhole : (Repository.Read.find Item shelved .wholeResult).PassesBy := .inr (.inl rfl)
  have hkept := shelf.reads_past_cache.1 (.find Item shelved .wholeResult) (.inr hwhole)
  have hsame := (shelf.setCachingEnabled false).reads_past_cache.2 rfl Item shelved .keyThenFetch
  refine ⟨⟨hkept.1, hkept.2.1⟩, ?_⟩
  rcases hsame with ⟨e, -, -, hrefused⟩ | ⟨hfind, -⟩
  · cases hrefused
  · exact hfind

end Sample

end RecordStore
