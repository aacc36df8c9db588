import RecordStore.Proofs.Reading.Recorded

/-! # Records that reading stores were answered

Finding the records of a query stores the keys of the query, and records.  Each record that it
stores was in an answer of the database to a query for the records of a set of keys
(`Repository.find_steps`); whether the key of the record can be the key of a row is not looked at.

The invariant relates the cache to the list of what was asked so far (`Reading.Logged`): the list
only grows, and what has been stored follows from the list. -/

namespace RecordStore

namespace Reading

variable {σ β γ : Type}

/-- The record is in an answer to a query for the records of a set of keys. -/
def Answered (dialect : Dialect) {α : Type} [Record α] (log : List Exchange) (record : α) : Prop :=
  ∃ statement rows, Exchange.query statement (.ok rows) ∈ log ∧
    (Exchange.query statement (.ok rows)).QueriesKeys dialect (Record.type α) ∧
    ∃ row ∈ rows, Record.ofValues (Record.type α).fieldNames row = .ok record

/-- What finding stores after this was asked. -/
def AnswerStores (dialect : Dialect) (α : Type) [Record α] (s : Select) (log : List Exchange) :
    Storable := fun a value =>
  StoresRowOf (Answered dialect log : α → Prop) a value ∨ StoresKeyList dialect α s a value

/-- A record stays answered when more is asked. -/
theorem AnswerStores.mono {dialect : Dialect} {α : Type} [Record α] {s : Select}
    {log log' : List Exchange} (hlog : log ⊆ log') (a : CacheAddress) (value : CacheValue)
    (h : AnswerStores dialect α s log a value) : AnswerStores dialect α s log' a value := by
  refine h.imp (StoresRowOf.mono fun record hrecord => ?_) id
  obtain ⟨statement, rows, hasked, hrest⟩ := hrecord
  exact ⟨statement, rows, hlog hasked, hrest⟩

variable (dialect : Dialect) (α : Type) [Record α] (s : Select)

/-- However the step ends, the list of what was asked has grown, and what was stored follows from
it. -/
def Logged (x : Reading (σ × List Exchange) β) : Prop :=
  RecordStore.Within (fun st st' => st.connection.2 ⊆ st'.connection.2 ∧
    OptionalSteps (AnswerStores dialect α s st'.connection.2) st.cache st'.cache) x

namespace Logged

variable {dialect α s}

theorem refl (st : ReadState (σ × List Exchange)) : st.connection.2 ⊆ st.connection.2 ∧
    OptionalSteps (AnswerStores dialect α s st.connection.2) st.cache st.cache :=
  ⟨List.Subset.refl _, .refl _⟩

theorem trans (st st' st'' : ReadState (σ × List Exchange))
    (h : st.connection.2 ⊆ st'.connection.2 ∧
      OptionalSteps (AnswerStores dialect α s st'.connection.2) st.cache st'.cache)
    (h' : st'.connection.2 ⊆ st''.connection.2 ∧
      OptionalSteps (AnswerStores dialect α s st''.connection.2) st'.cache st''.cache) :
    st.connection.2 ⊆ st''.connection.2 ∧
      OptionalSteps (AnswerStores dialect α s st''.connection.2) st.cache st''.cache := by
  obtain ⟨hlog, hcache⟩ := h
  obtain ⟨hlog', hcache'⟩ := h'
  exact ⟨List.Subset.trans hlog hlog', (hcache.mono (AnswerStores.mono hlog')).trans hcache'⟩

theorem bind {x : Reading (σ × List Exchange) β} {f : β → Reading (σ × List Exchange) γ}
    (hx : Logged dialect α s x) (hf : ∀ b, Logged dialect α s (f b)) :
    Logged dialect α s (x >>= f) := RecordStore.Within.bind trans hx hf

/-- A step whose stores do not depend on what was asked. -/
theorem of_within {Asks : Exchange → Prop} {Stored : Storable} {x : Reading σ β}
    {y : Reading (σ × List Exchange) β} (hasks : Recorded Asks x y) (hy : Within Stored y)
    (hS : ∀ log a value, Stored a value → AnswerStores dialect α s log a value) :
    Logged dialect α s y := by
  intro st
  exact ⟨(hasks.log st).1, (hy st).mono (hS _)⟩

/-- A step that stores nothing. -/
theorem of_storeless {Asks : Exchange → Prop} {x : Reading σ β}
    {y : Reading (σ × List Exchange) β} (hasks : Recorded Asks x y)
    (hy : Within (fun _ _ => False) y) : Logged dialect α s y :=
  of_within hasks hy fun _ _ _ => False.elim

end Logged

variable {dialect s} (conn : Connection σ)

theorem hashOrder_logged : Logged dialect α s (hashOrder conn.recorded) :=
  fun st => Logged.refl st

/-- A batch stores records of its answer. -/
theorem loadBatch_logged (found : Found α) (batch : KeySet (Record.type α)) :
    Logged conn.dialect α s (loadBatch conn.recorded α found batch) := by
  unfold loadBatch
  refine RecordStore.Within.ofExcept_bind Logged.refl _ fun statement hstatement => ?_
  have hcompile : batch.select.compile conn.dialect = .ok statement := lift_eq_ok.mp hstatement
  intro st
  cases hquery : query conn.recorded statement st with
  | error e st₁ =>
      have hlogged : Logged conn.dialect α s (query conn.recorded statement) :=
        .of_storeless (query_recorded conn hcompile) (query_within conn.recorded statement)
      have hfailed := hlogged st
      rw [hquery] at hfailed
      rw [bind_of_error hquery]
      exact hfailed
  | ok rows st₁ =>
      obtain ⟨hcache, hasked⟩ := query_recorded_eq_ok conn hquery
      have hasks : Recorded (fun _ => False)
          (records (Record.type α).fieldNames rows >>= collect α found : Reading σ _) _ :=
        (records_recorded α _ rows).bind fun loaded => collect_recorded α found loaded
      have hlog := (hasks.log st₁).1
      have hstored := collectRecords_within α rows found st₁
      rw [bind_of_ok hquery]
      rw [hasked] at hlog
      refine ⟨fun e he => hlog (List.mem_append_left _ he), ?_⟩
      rw [← hcache]
      refine hstored.mono fun a value hrow => .inl (hrow.mono fun record hrecord => ?_)
      exact ⟨statement, rows, hlog (by simp), ⟨batch, hcompile⟩, hrecord⟩

/-- Batches store records of their answers, one after the other. -/
theorem loadMissing_logged (batchSize : Nat) (found : Found α) (missing : List (List Value)) :
    Logged conn.dialect α s (loadMissing conn.recorded α batchSize found missing) := by
  unfold loadMissing
  cases missing with
  | nil => exact fun st => ⟨List.Subset.refl _, .refl _⟩
  | cons key missing =>
      refine (hashOrder_logged α conn).bind fun order => ?_
      refine RecordStore.Within.ofExcept_bind Logged.refl _ fun set _ => ?_
      exact RecordStore.Within.foldlM Logged.refl Logged.trans (loadBatch_logged α conn) _ _

theorem fetchByKeys_logged (batchSize : Nat) (keys : List (List Value)) :
    Logged conn.dialect α s (fetchByKeys conn.recorded α batchSize keys) := by
  have hasks : Recorded (fun _ => False) (divide α (distinct keys) : Reading σ _)
      (divide α (distinct keys)) := divide_recorded α _
  have hdivide : Logged conn.dialect α s
      (divide α (distinct keys) : Reading (σ × List Exchange) _) :=
    .of_storeless hasks (divide_within α _)
  unfold fetchByKeys
  refine hdivide.bind fun divided => ?_
  exact (loadMissing_logged α conn batchSize divided.1 divided.2).bind fun found => Logged.refl

/-- The records of a query by their keys. -/
theorem fetch_logged (batchSize : Nat) (e : Execution) :
    Logged conn.dialect α s (fetch conn.recorded α batchSize s e) := by
  by_cases he : e = .direct
  · subst he
    exact .of_storeless (direct_recorded conn α s) (direct_within conn.recorded s)
  · rw [fetch_eq he]
    have hrequire : Recorded (fun _ => False) (requireRecords (Record.type α) s : Reading σ Unit)
        (requireRecords (Record.type α) s) := requireRecords_recorded _ s
    have hrequired : Logged conn.dialect α s
        (requireRecords (Record.type α) s : Reading (σ × List Exchange) Unit) :=
      .of_storeless hrequire (requireRecords_within _ s)
    refine RecordStore.Within.bind_value Logged.trans hrequired fun st _ st' hrecords => ?_
    obtain ⟨hrecord, -, -⟩ := requireRecords_eq_ok.mp hrecords
    refine RecordStore.Within.ofExcept_bind Logged.refl _ fun _ hkeyFetch => ?_
    refine RecordStore.Within.ofExcept_bind Logged.refl _ fun statement hstatement => ?_
    have hcompile : s.keysOnly.compile conn.dialect = .ok statement := lift_eq_ok.mp hstatement
    have htaken : Within (StoresKeyList conn.dialect α s)
        (takeKeys conn.recorded α statement e) := by
      cases e with
      | direct => exact absurd rfl he
      | keyThenFetch => exact queryKeys_within conn.recorded statement
      | keyList lifetime =>
          exact (keyList_within conn.recorded α lifetime hrecord hkeyFetch hcompile).mono
            fun _ _ => And.left
    have htake : Logged conn.dialect α s (takeKeys conn.recorded α statement e) :=
      .of_within (takeKeys_recorded conn α hcompile e) htaken fun _ _ _ => .inr
    exact htake.bind fun keys => fetchByKeys_logged α conn batchSize keys

end Reading

/-! ### Finding -/

namespace Repository

variable {σ : Type} (repo : Repository σ) (α : Type) [Record α] (s : Select) (strategy : Strategy)

/-- Finding stores the keys of the query and records that were answered to queries for the records
of sets of keys. -/
theorem find_steps : OptionalSteps
    (Reading.AnswerStores repo.connection.dialect α s (repo.asked (find α s strategy)))
    repo.cache (finalState (find α s strategy repo)).cache := by
  have hcache : (finalState (find α s strategy repo)).cache =
      (finalState (find α s strategy repo.recorded)).cache := by
    rw [(repo.find_recorded α s strategy).1]
    cases find α s strategy repo <;> rfl
  rw [hcache]
  unfold asked
  cases hresolve : strategy.resolve s repo.cachingEnabled with
  | error e =>
      have hresolve' : strategy.resolve s repo.recorded.cachingEnabled = .error e := hresolve
      rw [find_of_refused hresolve']
      exact .refl _
  | ok execution =>
      have hresolve' : strategy.resolve s repo.recorded.cachingEnabled = .ok execution := hresolve
      rw [find_of_resolve hresolve', state_read, cache_read]
      cases hcaching : repo.recorded.cachingEnabled with
      | false => exact .refl _
      | true =>
          have hlogged := Reading.fetch_logged α repo.connection (s := s)
            (repo.config.batchSize repo.connection.dialect) execution
            ⟨repo.recorded.state, repo.recorded.cache, {}⟩
          exact hlogged.2

end Repository

end RecordStore
