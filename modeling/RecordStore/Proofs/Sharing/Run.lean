import RecordStore.Proofs.Reading.Inserted
import RecordStore.Proofs.Writing.Cache
import RecordStore.Repository

/-! # Repositories that share a cache

Several repositories read and write through one cache, one call after the other: a turn is a call of
one of them and the time until the next.  `Sharing.run` is the state after some turns, and
`Sharing.writes` lists the writes among them that succeeded, each with the rows it may have changed
and the time.

What a single call can do to the cache is said by `Call.perform_made`, `Call.perform_steps` and
`Call.perform_wrote`. -/

namespace RecordStore

/-- A call of a repository. -/
inductive Call where
  | get {α : Type} [Record α] (key : Key (Record.type α)) (strategy : Strategy)
  | findOne (α : Type) [Record α] (condition : Expr)
  | find (α : Type) [Record α] (s : Select) (strategy : Strategy)
  | count (α : Type) [Record α] (s : Select)
  | insert {α : Type} [Record α] (record : α)
  | update {α : Type} [Record α] (record : α)
  | updateWhere (assignments : List FieldExpr) (target : Target)
  | updateMatching (r : RecordType) (assignments : List FieldExpr) (condition : Expr)
      (guard : Directive)
  | delete {r : RecordType} (key : Key r)
  | deleteWhere (target : Target)
  | setCachingEnabled (enabled : Bool)

/-- A write that succeeded. -/
structure Write where
  record : RecordType
  /-- The rows that may have changed; none are named by the insertion of a record without key. -/
  rows? : Option Directive

/-- A write that succeeded, with the time on the clock of the cache. -/
structure TimedWrite extends Write where
  time : Nat

/-- The row of a record, if the record has a key. -/
def rowOf {α : Type} [Record α] (record : α) : Option Directive :=
  match Record.key record with
  | .ok (some key) => some (.rows (.key _ key))
  | _ => none

namespace Write

/-- The write may have changed the row of this key. -/
def covers (w : Write) (r : RecordType) (key : List Value) : Prop :=
  ∃ d, w.rows? = some d ∧ d.covers r key

end Write

namespace Call

variable {σ : Type}

/-- The record types that a call speaks of. -/
def records : Call → List RecordType
  | @get α _ _ _ | findOne α _ | count α _ | @insert α _ _ | @update α _ _ => [Record.type α]
  | find α s _ => [Record.type α, s.record]
  | updateWhere _ target | deleteWhere target => [target.record]
  | updateMatching r _ _ _ | @delete r _ => [r]
  | setCachingEnabled _ => []

/-- The call reads and does not write. -/
def isRead : Call → Bool
  | get .. | findOne .. | find .. | count .. => true
  | _ => false

/-- The write, if it succeeded, and the repository after it. -/
def written (w : Write) : EStateM.Result StoreError (Repository σ) Nat → Option Write × Repository σ
  | .ok _ repo => (some w, repo)
  | .error _ repo => (none, repo)

/-- The write that a call succeeds with, if it is one, and the repository after the call. -/
def perform (repo : Repository σ) : Call → Option Write × Repository σ
  | get key strategy => (none, finalState (Repository.get key strategy repo))
  | findOne α condition => (none, finalState (Repository.findOne α condition repo))
  | find α s strategy => (none, finalState (Repository.find α s strategy repo))
  | count α s => (none, finalState (Repository.count α s repo))
  | @insert α _ record =>
    match Repository.insert record repo with
    | .ok _ (repo, record) => (some ⟨Record.type α, rowOf record⟩, repo)
    | .error _ (repo, _) => (none, repo)
  | @update α _ record =>
    written ⟨Record.type α, rowOf record⟩ (Repository.update record repo)
  | updateWhere assignments target =>
    written ⟨target.record, some (.rows target)⟩ (Repository.updateWhere assignments target repo)
  | updateMatching r assignments condition guard =>
    written ⟨r, some guard⟩ (Repository.updateMatching r assignments condition guard repo)
  | @delete r key => written ⟨r, some (.rows (.key r key))⟩ (Repository.delete key repo)
  | deleteWhere target =>
    written ⟨target.record, some (.rows target)⟩ (Repository.deleteWhere target repo)
  | setCachingEnabled enabled => (none, repo.setCachingEnabled enabled)

/-- What a call may store. -/
def Stores : Call → Storable
  | @get α _ _ _ | findOne α _ | @insert α _ _ => StoresRow α
  | find α s _ => fun a value => ∃ dialect, ReadStores dialect α s a value
  | _ => fun _ _ => False

/-- What a call may store, with what the record was made from: reading makes records of blank ones,
and an insertion makes the record that it stores of the one that it was given. -/
def StoresMade : Call → Storable
  | @get α _ _ _ | findOne α _ => StoresRowOf (Record.MadeFrom (Record.blank : α))
  | insert record => StoresRowOf (Record.MadeFrom record)
  | find α s _ => fun a value => ∃ dialect, LoadStores dialect α s a value
  | _ => fun _ _ => False

theorem stores_of_made {call : Call} {a : CacheAddress} {value : CacheValue}
    (h : call.StoresMade a value) : call.Stores a value := by
  cases call with
  | get _ _ | findOne _ _ | insert _ => exact .of_rowOf h
  | find _ _ _ => exact h.imp fun _ => .of_loads
  | count _ _ | update _ | updateWhere _ _ | updateMatching _ _ _ _ | delete _ | deleteWhere _
  | setCachingEnabled _ => cases h

end Call

/-- Repositories over one cache. -/
structure Sharing (σ : Type) where
  cache : MemoryCache
  repositories : Nat → Repository σ

/-- A call of one of the repositories, and the time until the next turn. -/
structure Turn where
  repository : Nat
  call : Call
  elapsed : Nat

namespace Sharing

variable {σ : Type}

/-- A repository over the cache. -/
def repository (s : Sharing σ) (i : Nat) : Repository σ :=
  { s.repositories i with cache := some s.cache }

/-- The write of a turn, if it succeeded with one, and what follows the turn. -/
def step (s : Sharing σ) (t : Turn) : Option Write × Sharing σ :=
  let (write?, repo) := t.call.perform (s.repository t.repository)
  (write?, {
    cache := (repo.cache.getD s.cache).later t.elapsed
    repositories := fun i => if i = t.repository then repo else s.repositories i })

/-- What follows some turns. -/
def run (s : Sharing σ) (turns : List Turn) : Sharing σ :=
  turns.foldl (fun s t => (s.step t).2) s

/-- The writes that succeeded in some turns. -/
def writes (s : Sharing σ) : List Turn → List TimedWrite
  | [] => []
  | t :: rest => ((s.step t).1.map (⟨·, s.cache.now⟩)).toList ++ (s.step t).2.writes rest

end Sharing

/-! ### What a call does to the cache -/

/-- What a write that succeeded makes of a cache. -/
inductive Wrote : Write → MemoryCache → MemoryCache → Prop
  /-- A change of rows applies its directive. -/
  | changed {d : Directive} {r : RecordType} {c : MemoryCache} (h : d.record.sameAs r = true) :
      Wrote ⟨r, some d⟩ c (d.apply c).2
  /-- An insertion needs a table and caches the record. -/
  | inserted {α : Type} [Record α] {record : α} {c c' : MemoryCache}
      (htable : (Record.type α).isComputed = false) (h : Inserted record c c') :
      Wrote ⟨Record.type α, rowOf record⟩ c c'

namespace Repository

variable {σ β : Type} {Stored : Storable} (repo : Repository σ)

/-- A change that succeeded has applied a directive for the record type, a failed one has left the
cache alone. -/
def Guarded (r : RecordType) (d : Directive) (op : Operation σ Nat) : Prop := ∀ repo,
  match op repo with
  | .ok _ repo' => d.record.sameAs r = true ∧ repo'.cache = repo.cache.map fun c => (d.apply c).2
  | .error _ repo' => repo'.cache = repo.cache

theorem write_guarded {r : RecordType} {d : Directive} {writing : Connection σ → Writing σ Nat}
    (h : ∀ conn, Writing.Guarded r d (writing conn)) : Guarded r d (write writing) := by
  intro repo
  have hst := h repo.connection ⟨repo.state, repo.cache, {}⟩
  unfold write
  cases hrun : writing repo.connection ⟨repo.state, repo.cache, {}⟩ with
  | ok n st => rwa [hrun] at hst
  | error e st => rwa [hrun] at hst

theorem write_of_error {writing : Connection σ → Writing σ Nat} {e : StoreError}
    {st : WriteState σ} (h : writing repo.connection ⟨repo.state, repo.cache, {}⟩ = .error e st) :
    write writing repo = .error e (repo.afterWrite st) := by
  unfold write
  rw [h]

theorem Guarded.ofExcept_bind {r : RecordType} {d : Directive} (x : Except StoreError β)
    {f : β → Operation σ Nat} (h : ∀ b, Guarded r d (f b)) :
    Guarded r d (MonadExcept.ofExcept x >>= f : Operation σ Nat) := by
  intro repo
  cases x with
  | ok b => exact h b repo
  | error e => rfl

theorem updateWhere_guarded (assignments : List FieldExpr) (target : Target) :
    Guarded target.record (.rows target)
      (updateWhere assignments target : Operation σ Nat) :=
  .ofExcept_bind _ fun _ =>
    write_guarded fun conn => Writing.updateMatching_guarded conn target.record _ _ _

theorem updateMatching_guarded (r : RecordType) (assignments : List FieldExpr) (condition : Expr)
    (guard : Directive) :
    Guarded r guard (updateMatching r assignments condition guard : Operation σ Nat) :=
  write_guarded fun conn => Writing.updateMatching_guarded conn r assignments condition guard

theorem deleteWhere_guarded (target : Target) :
    Guarded target.record (.rows target) (deleteWhere target : Operation σ Nat) :=
  .ofExcept_bind _ fun _ =>
    write_guarded fun conn => Writing.deleteMatching_guarded conn target.record _ _

theorem update_guarded {α : Type} [Record α] {record : α} {key : Key (Record.type α)}
    (h : Record.key record = .ok (some key)) :
    Guarded (Record.type α) (.rows (.key _ key)) (update record : Operation σ Nat) :=
  write_guarded fun conn => Writing.updateRecord_guarded conn h

/-- Without a key the update fails and leaves the cache alone. -/
theorem update_of_no_key {α : Type} [Record α] {record : α}
    (h : ∀ key, Record.key record ≠ .ok (some key)) :
    ∃ e repo', update record repo = .error e repo' ∧ repo'.cache = repo.cache := by
  obtain ⟨e, he⟩ :=
    Writing.updateRecord_of_no_key repo.connection h ⟨repo.state, repo.cache, {}⟩
  exact ⟨e, _, repo.write_of_error he, rfl⟩

/-- An insertion that succeeds is one into a table and caches the record; one that fails stores
nothing. -/
theorem insert_cache {α : Type} [Record α] (record : α) :
    match insert record repo with
    | .ok _ (repo', record') => (Record.type α).isComputed = false ∧
        Option.Rel (Inserted record') repo.cache repo'.cache
    | .error _ (repo', _) => OptionalSteps (fun _ _ => False) repo.cache repo'.cache := by
  have hcache :=
    RecordWriting.insertRecord_cache repo.connection ⟨repo.state, repo.cache, {}⟩ record
  unfold insert
  cases hrun : RecordWriting.insertRecord repo.connection
      (⟨repo.state, repo.cache, {}⟩, record) with
  | ok n p =>
      rw [hrun] at hcache
      exact ⟨RecordWriting.insertRecord_table _ hrun, hcache⟩
  | error e p =>
      rw [hrun] at hcache
      exact hcache

end Repository

namespace Call

variable {σ : Type} {repo : Repository σ}

theorem written_steps {r : RecordType} {d : Directive} {op : Repository.Operation σ Nat}
    (h : Repository.Guarded r d op) (w : Write) :
    OptionalSteps (fun _ _ => False) repo.cache (written w (op repo)).2.cache := by
  have hrepo := h repo
  cases hop : op repo with
  | ok n repo' =>
      rw [hop] at hrepo
      change OptionalSteps _ repo.cache repo'.cache
      rw [hrepo.2]
      exact .map (fun c => d.apply_steps c) _
  | error e repo' =>
      rw [hop] at hrepo
      change OptionalSteps _ repo.cache repo'.cache
      rw [show repo'.cache = repo.cache from hrepo]
      exact .refl _

theorem written_wrote {r : RecordType} {d : Directive} {op : Repository.Operation σ Nat}
    (h : Repository.Guarded r d op) {c : MemoryCache} (hc : repo.cache = some c) {w : Write}
    (hw : (written ⟨r, some d⟩ (op repo)).1 = some w) :
    ∃ c', (written ⟨r, some d⟩ (op repo)).2.cache = some c' ∧ Wrote w c c' := by
  have hrepo := h repo
  cases hop : op repo with
  | ok n repo' =>
      rw [hop] at hrepo hw
      obtain ⟨hr, hcache⟩ := hrepo
      rw [hc] at hcache
      cases hw
      exact ⟨_, hcache, .changed hr⟩
  | error e repo' =>
      rw [hop] at hw
      cases hw

/-- A call changes the cache in the allowed ways only. -/
theorem perform_made (call : Call) (repo : Repository σ) :
    OptionalSteps call.StoresMade repo.cache (call.perform repo).2.cache := by
  cases call with
  | get key strategy =>
      exact repo.read_steps ((Reading.lookup_within _ _ _).mono fun _ _ => .mono fun _ => And.left)
  | findOne α condition =>
      exact repo.read_steps ((Reading.lookup_within _ _ _).mono fun _ _ => .mono fun _ => And.left)
  | find α s strategy =>
      change OptionalSteps _ repo.cache (finalState (Repository.find α s strategy repo)).cache
      cases hresolve : strategy.resolve s repo.cachingEnabled with
      | error e =>
          rw [Repository.find_of_refused hresolve]
          exact .refl _
      | ok execution =>
          rw [Repository.find_of_resolve hresolve]
          refine repo.read_steps ?_
          exact (Reading.fetch_within _ _ _ _ _).mono fun _ _ h => ⟨_, h⟩
  | count α s => exact repo.read_steps (Reading.countRows_within _ _ _)
  | @insert α _ record =>
      have hinsert := repo.insert_cache record
      rw [perform]
      cases hrun : Repository.insert record repo with
      | ok n p =>
          rw [hrun] at hinsert
          obtain ⟨repo', record'⟩ := p
          obtain ⟨-, hcache⟩ := hinsert
          obtain ⟨st', -, hsent⟩ := Repository.exists_of_insert hrun
          have hmade := (RecordWriting.record_of_insertRecord hsent).made
          refine (Inserted.optionalSteps hcache).mono fun _ _ => .mono ?_
          rintro _ ⟨rfl, -⟩
          exact hmade
      | error e p =>
          rw [hrun] at hinsert
          exact hinsert.mono fun _ _ => False.elim
  | @update α _ record =>
      by_cases hkey : ∃ key, Record.key record = .ok (some key)
      · obtain ⟨key, hkey⟩ := hkey
        exact written_steps (Repository.update_guarded hkey) _
      · obtain ⟨e, repo', hrun, hcache⟩ :=
          repo.update_of_no_key (α := α) fun key h => hkey ⟨key, h⟩
        rw [perform]
        rw [hrun]
        change OptionalSteps _ repo.cache repo'.cache
        rw [hcache]
        exact .refl _
  | updateWhere assignments target =>
      exact written_steps (Repository.updateWhere_guarded assignments target) _
  | updateMatching r assignments condition guard =>
      exact written_steps (Repository.updateMatching_guarded r assignments condition guard) _
  | @delete r key => exact written_steps (Repository.deleteWhere_guarded (.key r key)) _
  | deleteWhere target => exact written_steps (Repository.deleteWhere_guarded target) _
  | setCachingEnabled enabled => exact .refl _

theorem perform_steps (call : Call) (repo : Repository σ) :
    OptionalSteps call.Stores repo.cache (call.perform repo).2.cache :=
  (call.perform_made repo).mono fun _ _ => stores_of_made

/-- A call that succeeds as a write leaves what the write leaves. -/
theorem perform_wrote (call : Call) (repo : Repository σ) {c : MemoryCache}
    (hc : repo.cache = some c) {w : Write} (hw : (call.perform repo).1 = some w) :
    ∃ c', (call.perform repo).2.cache = some c' ∧ Wrote w c c' := by
  cases call with
  | get _ _ | findOne _ _ | find _ _ _ | count _ _ | setCachingEnabled _ => cases hw
  | @insert α _ record =>
      have hinsert := repo.insert_cache record
      rw [perform] at hw ⊢
      cases hrun : Repository.insert record repo with
      | ok n p =>
          rw [hrun] at hinsert hw
          obtain ⟨repo', record'⟩ := p
          obtain ⟨htable, hcache⟩ := hinsert
          cases hw
          rw [hc] at hcache
          cases hcache' : repo'.cache with
          | none =>
              rw [hcache'] at hcache
              cases hcache
          | some c' =>
              rw [hcache'] at hcache
              cases hcache with
              | some h => exact ⟨c', rfl, .inserted htable h⟩
      | error e p =>
          rw [hrun] at hw
          cases hw
  | @update α _ record =>
      by_cases hkey : ∃ key, Record.key record = .ok (some key)
      · obtain ⟨key, hkey⟩ := hkey
        have hrow : rowOf record = some (.rows (.key _ key)) := by
          unfold rowOf
          rw [hkey]
        rw [perform] at hw ⊢
        rw [hrow] at hw ⊢
        exact written_wrote (Repository.update_guarded hkey) hc hw
      · obtain ⟨e, repo', hrun, hcache⟩ :=
          repo.update_of_no_key (α := α) fun key h => hkey ⟨key, h⟩
        rw [perform] at hw
        rw [hrun] at hw
        cases hw
  | updateWhere assignments target =>
      exact written_wrote (Repository.updateWhere_guarded assignments target) hc hw
  | updateMatching r assignments condition guard =>
      exact written_wrote (Repository.updateMatching_guarded r assignments condition guard) hc hw
  | @delete r key => exact written_wrote (Repository.deleteWhere_guarded (.key r key)) hc hw
  | deleteWhere target => exact written_wrote (Repository.deleteWhere_guarded target) hc hw

theorem written_record {w w' : Write} {res : EStateM.Result StoreError (Repository σ) Nat}
    (h : (written w res).1 = some w') : w' = w := by
  cases res with
  | ok n repo' => exact (Option.some.inj h).symm
  | error e repo' => cases h

/-- A write is one on a record type that the call speaks of. -/
theorem record_mem_of_perform (call : Call) {w : Write} (hw : (call.perform repo).1 = some w) :
    w.record ∈ call.records := by
  cases call with
  | get _ _ | findOne _ _ | find _ _ _ | count _ _ | setCachingEnabled _ => cases hw
  | @insert α _ record =>
      rw [perform] at hw
      cases hrun : Repository.insert record repo with
      | ok n p =>
          rw [hrun] at hw
          cases hw
          exact List.mem_singleton.mpr rfl
      | error e p =>
          rw [hrun] at hw
          cases hw
  | @update α _ record => exact List.mem_singleton.mpr (congrArg Write.record (written_record hw))
  | updateWhere assignments target =>
      exact List.mem_singleton.mpr (congrArg Write.record (written_record hw))
  | updateMatching r assignments condition guard =>
      exact List.mem_singleton.mpr (congrArg Write.record (written_record hw))
  | @delete r key => exact List.mem_singleton.mpr (congrArg Write.record (written_record hw))
  | deleteWhere target => exact List.mem_singleton.mpr (congrArg Write.record (written_record hw))

/-- A call that may store a key list reads a query whose records can be cached, and the list is one
of its record type. -/
theorem stores_keys (call : Call) {r : RecordType} {key : List Value} {tuples : List (List Value)}
    (h : call.Stores ⟨r.keyListBin, key⟩ (.keys tuples)) : call.isRead = true ∧
      ∃ s : Select, s.record ∈ call.records ∧ s.record.sameAs r = true ∧
        s.record.isCacheable = true := by
  cases call with
  | find α s strategy =>
      obtain ⟨dialect, ⟨_, _, _, _, _, _, h⟩ | ⟨_, _, hrecord, hkey, _, haddress, _⟩⟩ := h
      · cases h
      · refine ⟨rfl, s, by simp [records], ?_, Select.isCacheable_of_requireKeyFetch hkey⟩
        have hname : r.name = (Record.type α).name :=
          String.append_left_inj _ |>.mp (congrArg CacheAddress.bin haddress)
        exact beq_iff_eq.mpr ((beq_iff_eq.mp hrecord).trans hname.symm)
  | get _ _ | findOne _ _ | insert _ =>
      obtain ⟨_, _, _, _, _, _, h⟩ := h
      cases h
  | count _ _ | update _ | updateWhere _ _ | updateMatching _ _ _ _ | delete _ | deleteWhere _
  | setCachingEnabled _ => cases h

end Call

end RecordStore
