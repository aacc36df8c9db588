import RecordStore.Proofs.Reading.Recorded
import RecordStore.Proofs.Sharing.KeyLists
import RecordStore.Proofs.Sql.Spelling

/-! # Queries that lock rows

A query may ask the database to lock the rows that it reads.  Finding its records then sends a
statement that locks, the query itself or its query for keys, unless the list of keys is taken from
the cache: in that case records are asked for by sets of keys only, which locks nothing, and where
the cache has all of them the database is not asked at all (`Repository.find_locking`). -/

namespace RecordStore

/-- The statement locks the rows that it reads. -/
def CompiledStatement.Locks (statement : CompiledStatement) : Prop :=
  ∃ text, statement.sql = text ++ " FOR UPDATE"

/-- The lock is the last clause. -/
theorem queryTerms_locks {dialect : Dialect} (hdialect : dialect.locksRows = true) {q : Query}
    (hcounted : q.counted = false) (hlocking : q.locking = true) :
    ∃ rows, queryTerms dialect q = rows ++ [.space, .word "FOR", .space, .word "UPDATE"] := by
  rw [queryTerms_eq]
  unfold queryLexemes
  dsimp only
  rw [hcounted, hlocking, hdialect, if_neg Bool.false_ne_true, Bool.and_self, if_pos rfl]
  exact ⟨_, rfl⟩

/-- A query that locks compiles to a statement that locks, unless its rows are counted around it. -/
theorem Select.locks_of_compile {dialect : Dialect} {s : Select} (hlocking : s.locking = true)
    (hdialect : dialect.locksRows = true) (hcounts : s.countsAround = false)
    {statement : CompiledStatement} (h : s.compile dialect = .ok statement) :
    statement.Locks := by
  obtain ⟨q, next, hselect, rfl⟩ := compile_eq_ok.mp h
  obtain ⟨-, -, columns, n₁, joins, n₂, filter, n₃, grouping, n₄, ordering, n₅, limit, -, -, -, -,
    -, -, hq⟩ := Resolve.selectWith_eq_ok.mp hselect
  have hcounted : q.counted = false := by rw [hq]; exact hcounts
  have hlocks : q.locking = true := by rw [hq]; exact hlocking
  obtain ⟨rows, hrows⟩ := queryTerms_locks hdialect hcounted hlocks
  have htokens : tokensOf dialect (queryTerms dialect q) =
      tokensOf dialect rows ++ [" ", "FOR", " ", "UPDATE"].map .text := by
    rw [hrows]
    exact List.map_append
  refine ⟨String.join (CompiledStatement.texts dialect 0 (tokensOf dialect rows)), ?_⟩
  change String.join (CompiledStatement.texts dialect 0 (tokensOf dialect (queryTerms dialect q))) =
    _
  rw [htokens, CompiledStatement.texts_append, String.join_append]
  rfl

namespace Reading

variable {σ : Type} {conn : Connection σ} {α : Type} [Record α] {s : Select}
  {statement : CompiledStatement} {keys : List (List Value)}
  {st st' : ReadState (σ × List Exchange)}

/-- Keys that are asked for are asked for by this statement. -/
theorem queryKeys_asks (h : queryKeys conn.recorded α statement st = .ok keys st') :
    ∃ rows, Exchange.query statement (.ok rows) ∈ st'.connection.2 := by
  obtain ⟨rows, st₁, hquery, h⟩ := bind_eq_ok.mp h
  obtain ⟨-, rfl⟩ := ofExcept_eq_ok.mp h
  obtain ⟨-, hlog⟩ := query_recorded_eq_ok conn hquery
  exact ⟨rows, by rw [hlog]; simp⟩

/-- Keys are asked for by this statement, or they are a list that the cache has under it and nothing
is asked. -/
theorem takeKeys_asks {e : Execution}
    (h : takeKeys conn.recorded α statement e st = .ok keys st') :
    (∃ rows, Exchange.query statement (.ok rows) ∈ st'.connection.2) ∨
      (∃ lifetime, e = .keyList lifetime) ∧ st'.connection = st.connection ∧
        valueAt st.cache (.ofKeyList (Record.type α) statement) = some (.keys keys) := by
  cases e with
  | direct | keyThenFetch => exact .inl (queryKeys_asks h)
  | keyList lifetime =>
      rw [takeKeys_keyList] at h
      obtain ⟨st₁, hdb, -, ⟨keys', hvalue, hlist, -⟩ | ⟨-, hlist, -⟩⟩ :=
        keyList_cases conn.recorded α statement lifetime st
      · rw [hlist] at h
        cases h
        exact .inr ⟨⟨lifetime, rfl⟩, hdb, hvalue⟩
      · rw [hlist] at h
        obtain ⟨asked, st₂, hasked, h⟩ := bind_eq_ok.mp h
        cases h
        have hrows := queryKeys_asks hasked
        exact .inl hrows

/-- Reading a query that locks sends a statement that locks, unless the list of its keys is taken
from the cache. -/
theorem fetch_locking (hlocking : s.locking = true) (hdialect : conn.dialect.locksRows = true)
    {batchSize : Nat} {e : Execution} {found : List α}
    (h : fetch conn.recorded α batchSize s e st = .ok found st') :
    (∃ statement rows, Exchange.query statement (.ok rows) ∈ st'.connection.2 ∧
        statement.Locks) ∨
      (∃ lifetime, e = .keyList lifetime) ∧ s.record.sameAs (Record.type α) = true ∧
        s.selection = .fields ∧
        (∃ statement keys, s.keysOnly.compile conn.dialect = .ok statement ∧
          valueAt st.cache (.ofKeyList (Record.type α) statement) = some (.keys keys)) ∧
        ∀ x ∈ st'.connection.2, x ∈ st.connection.2 ∨
          x.QueriesKeys conn.dialect (Record.type α) := by
  by_cases he : e = .direct
  · subst he
    change direct conn.recorded α s st = .ok found st' at h
    obtain ⟨u, st₁, hrecords, h⟩ := bind_eq_ok.mp h
    obtain ⟨-, hfields, rfl⟩ := requireRecords_eq_ok.mp hrecords
    obtain ⟨statement, st₂, hstatement, h⟩ := bind_eq_ok.mp h
    obtain ⟨hcompile, rfl⟩ := ofExcept_eq_ok.mp hstatement
    obtain ⟨rows, st₃, hquery, h⟩ := bind_eq_ok.mp h
    obtain ⟨-, hlog⟩ := query_recorded_eq_ok conn hquery
    obtain ⟨u', st₄, hcount, h⟩ := bind_eq_ok.mp h
    cases hcount
    obtain ⟨-, rfl⟩ := ofExcept_eq_ok.mp h
    have hcounts : s.countsAround = false := by
      unfold Select.countsAround
      rw [hfields]
      rfl
    refine .inl ⟨statement, rows, ?_,
      Select.locks_of_compile hlocking hdialect hcounts (lift_eq_ok.mp hcompile)⟩
    change _ ∈ st₃.connection.2
    rw [hlog]
    simp
  · rw [fetch_eq he] at h
    obtain ⟨u, st₁, hrecords, h⟩ := bind_eq_ok.mp h
    obtain ⟨hsame, hfields, rfl⟩ := requireRecords_eq_ok.mp hrecords
    obtain ⟨u', st₂, hrequire, h⟩ := bind_eq_ok.mp h
    obtain ⟨-, rfl⟩ := ofExcept_eq_ok.mp hrequire
    obtain ⟨statement, st₃, hstatement, h⟩ := bind_eq_ok.mp h
    obtain ⟨hcompile, rfl⟩ := ofExcept_eq_ok.mp hstatement
    obtain ⟨keys, st₄, hkeys, h⟩ := bind_eq_ok.mp h
    have hrest := (fetchByKeys_recorded conn α batchSize keys).log st₄
    rw [h] at hrest
    rcases takeKeys_asks hkeys with ⟨rows, hasked⟩ | ⟨hlifetime, hdb, hvalue⟩
    · exact .inl ⟨statement, rows, hrest.1 hasked,
        Select.locks_of_compile (s := s.keysOnly) hlocking hdialect rfl (lift_eq_ok.mp hcompile)⟩
    · refine .inr ⟨hlifetime, hsame, hfields, ⟨statement, keys, lift_eq_ok.mp hcompile, hvalue⟩, ?_⟩
      rw [← hdb]
      exact hrest.2

end Reading

namespace Repository

variable {σ : Type} {repo : Repository σ} {α : Type} [Record α] {s : Select} {strategy : Strategy}

/-- Where the dialect knows locks, finding the records of a query that locks sends a statement that
locks, unless it takes the list of keys from the cache; then it asks for records by sets of keys at
most. -/
theorem find_locking (hlocking : s.locking = true)
    (hdialect : repo.connection.dialect.locksRows = true) {found : List α} {repo' : Repository σ}
    (hfound : find α s strategy repo = .ok found repo') :
    (∃ statement rows, Exchange.query statement (.ok rows) ∈ repo.asked (find α s strategy) ∧
        statement.Locks) ∨
      ((∃ statement keys, repo.TakesKeyList α s strategy statement keys) ∧
        ∀ e ∈ repo.asked (find α s strategy),
          e.QueriesKeys repo.connection.dialect (Record.type α)) := by
  have hrecorded := (repo.find_recorded α s strategy).1
  rw [hfound] at hrecorded
  cases hresolve : strategy.resolve s repo.cachingEnabled with
  | error e =>
      rw [find_of_refused hresolve] at hfound
      cases hfound
  | ok execution =>
      have hresolve' : strategy.resolve s repo.recorded.cachingEnabled = .ok execution := hresolve
      rw [find_of_resolve hresolve'] at hrecorded
      obtain ⟨st, hfetch, hlogged⟩ := read_eq_ok.mp hrecorded
      have hasked : repo.asked (find α s strategy) = st.connection.2 :=
        congrArg (fun r : Repository (σ × List Exchange) => r.state.2) hlogged
      rw [hasked]
      rcases Reading.fetch_locking hlocking hdialect hfetch with
        hlocks | ⟨⟨lifetime, rfl⟩, hsame, hfields, ⟨statement, keys, hcompile, hvalue⟩, hrest⟩
      · exact .inl hlocks
      · obtain ⟨-, hcaching, -⟩ := Strategy.of_resolve hresolve nofun
        have hcache : (if repo.recorded.cachingEnabled then repo.recorded.cache else none) =
            repo.cache := if_pos hcaching
        dsimp only at hvalue
        rw [hcache] at hvalue
        refine .inr ⟨⟨statement, keys, takesKeyList_iff.mpr
          ⟨hcaching, ⟨lifetime, hresolve⟩, hsame, hfields, hcompile, hvalue⟩⟩, fun e he => ?_⟩
        exact (hrest e he).elim (fun h => absurd h List.not_mem_nil) id

end Repository

namespace Sample

/-- A repository over a database that locks rows and answers with one item, first with its key. -/
def lockable : Repository (List (List (List Value))) :=
  .withCache { script with dialect := .mysql }
    [[[.integer 1]], [[.integer 1, .text "one"]], [[.integer 1]]] {} (.new 8)

/-- All items, to be locked. -/
def lockedItems : Select where
  record := schema.type
  locking := true

/-- The repository after all items have been found once. -/
def lockedOnce : Repository (List (List (List Value))) :=
  finalState (lockable.find Item lockedItems .shortKeyList)

/-- Finding the items for the first time locks them. -/
theorem lockedItems_locking :
    (∃ statement rows,
        Exchange.query statement (.ok rows) ∈
          lockable.asked (Repository.find Item lockedItems .shortKeyList) ∧ statement.Locks) ∨
      ((∃ statement keys, lockable.TakesKeyList Item lockedItems .shortKeyList statement keys) ∧
        ∀ e ∈ lockable.asked (Repository.find Item lockedItems .shortKeyList),
          e.QueriesKeys .mysql schema.type) := by
  have hfound : lockable.find Item lockedItems .shortKeyList = .ok [item 1 "one"] lockedOnce := rfl
  exact Repository.find_locking rfl rfl hfound

/-- Finding them again returns them without asking the database for anything. -/
theorem lockedItems_unasked : lockedItems.locking = true ∧
    lockedOnce.connection.dialect.locksRows = true ∧
    returned (lockedOnce.find Item lockedItems .shortKeyList) = some [item 1 "one"] ∧
    lockedOnce.asked (Repository.find Item lockedItems .shortKeyList) = [] := by
  have hfound :
      returned (lockedOnce.find Item lockedItems .shortKeyList) = some [item 1 "one"] := by
    decide +kernel
  have hnone : (lockedOnce.asked (Repository.find Item lockedItems .shortKeyList)).isEmpty := by
    decide +kernel
  exact ⟨rfl, rfl, hfound, List.isEmpty_iff.mp hnone⟩

end Sample

end RecordStore
