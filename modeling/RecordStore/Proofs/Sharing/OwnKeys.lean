import RecordStore.Proofs.Sharing.Freshness

/-! # Rows under their own keys

However many repositories share a cache, whatever is asked of them and whatever their databases
answer: a row in the bin of a record type can be read back as a record of the type whose key is the
key of the entry, and what the bin beside it holds are lists of keys of the type, of its width and
in its form (`Sharing.rows_under_own_keys`).

Two things are needed for it.  A record that is stored, which is made from a blank record or from
one that was handed in for insertion (`Request.StartsFrom`), is made again from its values; and the
bins of one record type are not those of another.  What a single request leaves in a cache is said
by `Request.left_by_perform`, and since entries never change their values, what is there after many
requests was stored by one of them (`Sharing.stored_by`). -/

namespace RecordStore

/-- A row under the key of the record that it is read as. -/
def Record.RowAt (α : Type) [Record α] (key : List Value) (value : CacheValue) : Prop :=
  ∃ (values : List Value) (record : α), value = .row values ∧
    Record.ofValues (Record.type α).fieldNames values = .ok record ∧
    Record.keyValues record = .ok key

namespace StoresRowOf

variable {α : Type} [Record α] {P : α → Prop} {r : RecordType} {key : List Value}
  {value : CacheValue}

theorem sameAs (h : StoresRowOf P (.ofRow r key) value) : (Record.type α).sameAs r = true := by
  obtain ⟨record, key', values, -, -, -, haddress, -⟩ := h
  exact beq_iff_eq.mpr (congrArg CacheAddress.bin haddress).symm

/-- A record that reads back is a row under its key. -/
theorem rowAt (h : StoresRowOf P (.ofRow r key) value)
    (hback : ∀ record, P record → Record.ReadsBack record) : Record.RowAt α key value := by
  obtain ⟨record, key', values, hP, hkey, hvalues, haddress, rfl⟩ := h
  obtain rfl : key = key' := congrArg CacheAddress.key haddress
  exact ⟨values, record, rfl, hback record hP values hvalues, hkey⟩

end StoresRowOf

/-! ### Requests -/

/-- What is asked of a repository. -/
inductive Request where
  | call (call : Call)
  | createIndex (i : CreateIndex)
  | dropIndex (i : DropIndex)
  /-- The cache is to be shut down. -/
  | shutdown

namespace Request

variable {σ α : Type} [Record α]

/-- The repository after a request, which may have failed. -/
def perform (repo : Repository σ) : Request → Repository σ
  | call c => (c.perform repo).2
  | createIndex i => finalState (Repository.createIndex i repo)
  | dropIndex i => finalState (Repository.dropIndex i repo)
  | shutdown => repo.shutdown

/-- What a request may store. -/
def Stores : Request → Storable
  | call c => c.StoresMade
  | _ => fun _ _ => False

/-- The records that a request may store are made from this one. -/
inductive StartsFrom : Request → α → Prop
  | get (key : Key (Record.type α)) (strategy : Strategy) :
      StartsFrom (.call (.get key strategy)) Record.blank
  | findOne (condition : Expr) : StartsFrom (.call (.findOne α condition)) Record.blank
  | find (s : Select) (strategy : Strategy) : StartsFrom (.call (.find α s strategy)) Record.blank
  | insert (record : α) : StartsFrom (.call (.insert record)) record

/-- Creating or dropping an index leaves the cache alone. -/
theorem cache_write_run (s : Statement) (repo : Repository σ) :
    (finalState (Repository.write (fun conn => Writing.run conn s) repo)).cache = repo.cache := by
  have hcache := Writing.run_cache repo.connection s ⟨repo.state, repo.cache, {}⟩
  unfold Repository.write
  dsimp only
  cases hrun : Writing.run repo.connection s ⟨repo.state, repo.cache, {}⟩ with
  | ok n st => rwa [hrun] at hcache
  | error e st => rwa [hrun] at hcache

/-- Every entry after a request was there before it or is one that the request may store. -/
theorem left_by_perform (q : Request) {repo : Repository σ} {c : MemoryCache}
    (hc : repo.cache = some c) : ∃ c', (q.perform repo).cache = some c' ∧
      ∀ a e, c'.entryAt? a = some e → c.entryAt? a = some e ∨ q.Stores a e.value := by
  cases q with
  | call call =>
      have hsteps := call.perform_made repo
      rw [hc] at hsteps
      change ∃ c', (call.perform repo).2.cache = some c' ∧ _
      generalize (call.perform repo).2.cache = cache at hsteps
      cases hsteps with
      | @some _ c' h =>
          exact ⟨c', rfl, fun a e he => (h.entryAt? he).imp_right fun hnew => hnew.2.2⟩
  | createIndex i => exact ⟨c, (cache_write_run _ repo).trans hc, fun a e => .inl⟩
  | dropIndex i => exact ⟨c, (cache_write_run _ repo).trans hc, fun a e => .inl⟩
  | shutdown =>
      refine ⟨c.shutdown, congrArg (Option.map _) hc, fun a e he => ?_⟩
      rw [MemoryCache.entryAt?_of_bins rfl] at he
      cases he

/-- A request stores a row made from one of its records, under its own key, or keys of its record
type. -/
theorem Stores.cases {q : Request} {a : CacheAddress} {value : CacheValue}
    (h : q.Stores a value) : ∃ (α : Type) (_ : Record α) (start : α), q.StartsFrom start ∧
      (StoresRowOf (Record.MadeFrom start) a value ∨
        (a.bin = (Record.type α).keyListBin ∧ Record.ListsKeys α value)) := by
  cases q with
  | call call =>
      cases call with
      | @get α inst key strategy => exact ⟨α, inst, _, .get key strategy, .inl h⟩
      | @findOne α inst condition => exact ⟨α, inst, _, .findOne condition, .inl h⟩
      | @insert α inst record => exact ⟨α, inst, record, .insert record, .inl h⟩
      | @find α inst s strategy =>
          obtain ⟨dialect, hrow | ⟨⟨statement, tuples, -, -, -, rfl, -⟩, hkeys⟩⟩ := h
          · exact ⟨α, inst, _, .find s strategy, .inl hrow⟩
          · exact ⟨α, inst, _, .find s strategy, .inr ⟨rfl, hkeys⟩⟩
      | count _ _ | update _ | updateWhere _ _ | updateMatching _ _ _ _ | delete _ | deleteWhere _
      | setCachingEnabled _ => cases h
  | createIndex _ | dropIndex _ | shutdown => cases h

end Request

/-! ### Requests one after the other -/

/-- A request to one of the repositories, and the time until the next event. -/
structure Event where
  repository : Nat
  request : Request
  elapsed : Nat

/-- The records that may be stored in the course of these events are made from this one. -/
def StartedFrom (events : List Event) {α : Type} [Record α] (start : α) : Prop :=
  ∃ event ∈ events, event.request.StartsFrom start

namespace Sharing

variable {σ : Type} (s : Sharing σ)

/-- What follows an event. -/
def after (event : Event) : Sharing σ :=
  let repo := event.request.perform (s.repository event.repository)
  { cache := (repo.cache.getD s.cache).later event.elapsed
    repositories := fun i => if i = event.repository then repo else s.repositories i }

/-- What follows some events. -/
def afterAll (events : List Event) : Sharing σ := events.foldl after s

theorem afterAll_snoc (events : List Event) (event : Event) :
    s.afterAll (events ++ [event]) = (s.afterAll events).after event := List.foldl_append

theorem left_after (event : Event) {a : CacheAddress} {e : CacheEntry}
    (he : (s.after event).cache.entryAt? a = some e) :
    s.cache.entryAt? a = some e ∨ event.request.Stores a e.value := by
  have hcache : (s.repository event.repository).cache = some s.cache := rfl
  obtain ⟨c', hc', hleft⟩ := event.request.left_by_perform hcache
  refine hleft a e ?_
  change ((event.request.perform (s.repository event.repository)).cache.getD
    s.cache).entryAt? a = some e at he
  rwa [hc'] at he

/-- An entry that is left in the end was stored in one of the events. -/
theorem stored_by (hempty : ∀ a, s.cache.entryAt? a = none) (events : List Event)
    {a : CacheAddress} {e : CacheEntry} (he : (s.afterAll events).cache.entryAt? a = some e) :
    ∃ event ∈ events, event.request.Stores a e.value := by
  induction events using List.reverseRecOn with
  | nil =>
      rw [show (s.afterAll []).cache.entryAt? a = none from hempty a] at he
      cases he
  | append_singleton events event ih =>
      rw [afterAll_snoc] at he
      rcases left_after _ event he with hold | hstored
      · obtain ⟨event', hevent', hstored⟩ := ih hold
        exact ⟨event', List.mem_append_left _ hevent', hstored⟩
      · exact ⟨event, by simp, hstored⟩

/-- In every state that requests lead to from an empty cache: what is in the bin of a record type
`r` is a row that reads as a record whose key is that of the entry, and what is in the bin beside it
is a list of keys that are as wide as those of the type and in its form.  The type is one that the
requests read or insert and that has the name of `r`, by which alone record types are told apart. -/
theorem rows_under_own_keys (hempty : s.cache.bins = []) (events : List Event) (r : RecordType)
    (hnames : ∀ {α : Type} [Record α] {start : α}, StartedFrom events start →
      (Record.type α).name ≠ r.name ++ "#keys" ∧ r.name ≠ (Record.type α).name ++ "#keys")
    (hback : ∀ {α : Type} [Record α] {start record : α}, StartedFrom events start →
      (Record.type α).sameAs r = true → Record.MadeFrom start record → Record.ReadsBack record) :
    (∀ key e, (s.afterAll events).cache.entryAt? (.ofRow r key) = some e →
      ∃ (α : Type) (_ : Record α) (start : α), StartedFrom events start ∧
        (Record.type α).sameAs r = true ∧ Record.RowAt α key e.value) ∧
    (∀ key e, (s.afterAll events).cache.entryAt? ⟨r.keyListBin, key⟩ = some e →
      ∃ (α : Type) (_ : Record α) (start : α), StartedFrom events start ∧
        (Record.type α).sameAs r = true ∧ ∃ tuples, e.value = .keys tuples ∧ ∀ tuple ∈ tuples,
          tuple.length = (Record.type α).primaryKey.length ∧ Record.TypedKey α tuple) := by
  have hnone := fun a => MemoryCache.entryAt?_of_bins hempty a
  constructor
  · intro key e he
    obtain ⟨event, hevent, hstored⟩ := s.stored_by hnone events he
    obtain ⟨α, inst, start, hstart, hrow | ⟨hbin, -⟩⟩ := hstored.cases
    · have hstarted : StartedFrom events start := ⟨event, hevent, hstart⟩
      have hsame := hrow.sameAs
      exact ⟨α, inst, start, hstarted, hsame, hrow.rowAt fun record => hback hstarted hsame⟩
    · exact absurd hbin (hnames ⟨event, hevent, hstart⟩).2
  · intro key e he
    obtain ⟨event, hevent, hstored⟩ := s.stored_by hnone events he
    obtain ⟨α, inst, start, hstart, hrow | ⟨hbin, tuples, hvalue, htyped⟩⟩ := hstored.cases
    · obtain ⟨record, key', values, -, -, -, haddress, -⟩ := hrow
      exact absurd (congrArg CacheAddress.bin haddress).symm (hnames ⟨event, hevent, hstart⟩).1
    · have hname : r.name = (Record.type α).name := String.append_left_inj _ |>.mp hbin
      refine ⟨α, inst, start, ⟨event, hevent, hstart⟩, beq_iff_eq.mpr hname.symm, tuples, hvalue,
        fun tuple htuple => ?_⟩
      exact ⟨(htyped tuple htuple).length_eq, htyped tuple htuple⟩

end Sharing

namespace Sample

/-- An item is inserted, another one is looked up, and then all are read by their keys. -/
def events : List Event :=
  [⟨0, .call (.insert (item 2 "two")), 5⟩,
   ⟨1, .call (.findOne Item ((Expr.col schema.type "name").eqBound (.text "one"))), 0⟩,
   ⟨0, .call (.find Item { record := schema.type } .shortKeyList), 0⟩,
   ⟨1, .createIndex { name := "by_name", record := schema.type, fields := ["name"] }, 0⟩]

/-- The items are made from a blank one or from the one that is inserted. -/
theorem of_startedFrom {P : ∀ (α : Type) [Record α], α → Prop}
    (hblank : P Item Record.blank) (hitem : P Item (item 2 "two")) {α : Type} [Record α] {start : α}
    (h : StartedFrom events start) : P α start := by
  obtain ⟨event, hevent, hstart⟩ := h
  simp only [events, List.mem_cons, List.not_mem_nil, or_false] at hevent
  rcases hevent with rfl | rfl | rfl | rfl
  · cases hstart
    exact hitem
  · cases hstart
    exact hblank
  · cases hstart
    exact hblank
  · cases hstart

theorem typed_item (id : Int64) (name : String) : (item id name).Typed :=
  .cons rfl (.cons rfl .nil)

/-- Items that are made from typed ones read back. -/
theorem item_readsBack {start record : Item} (hstart : start.Typed)
    (h : Record.MadeFrom start record) : Record.ReadsBack record :=
  Row.readsBack (by decide) ((Row.lawful schema).valid_of_madeFrom hstart h)

/-- The row of the inserted item and the list of keys are in their places. -/
theorem items_under_own_keys :
    (∃ (α : Type) (_ : Record α) (start : α), StartedFrom events start ∧
      (Record.type α).sameAs schema.type = true ∧
      Record.RowAt α [.integer 2] (.row [.integer 2, .text "two"])) ∧
    (∃ (α : Type) (_ : Record α) (start : α), StartedFrom events start ∧
      (Record.type α).sameAs schema.type = true ∧
      ∃ tuples, CacheValue.keys [[.integer 1]] = .keys tuples ∧ ∀ tuple ∈ tuples,
        tuple.length = (Record.type α).primaryKey.length ∧ Record.TypedKey α tuple) := by
  have h := sharing.rows_under_own_keys rfl events schema.type
    (fun hstarted => of_startedFrom
      (P := fun α _ _ => (Record.type α).name ≠ schema.type.name ++ "#keys" ∧
        schema.type.name ≠ (Record.type α).name ++ "#keys")
      (by decide) (by decide) hstarted)
    (fun hstarted _ hmade => of_startedFrom
      (P := fun α _ start => ∀ record : α, Record.MadeFrom start record → Record.ReadsBack record)
      (fun _ => item_readsBack Row.typed_blank) (fun _ => item_readsBack (typed_item 2 "two"))
      hstarted _ hmade)
  have hrow : (sharing.afterAll events).cache.entryAt? (.ofRow schema.type [.integer 2]) =
      some ⟨.row [.integer 2, .text "two"], 1, some 300000000000⟩ := by decide +kernel
  have hkeys : (sharing.afterAll events).cache.entryAt?
      ⟨schema.type.keyListBin, [.text "8cdd1120108867a5"]⟩ =
        some ⟨.keys [[.integer 1]], 3, some 30000000005⟩ := by
    decide +kernel
  exact ⟨h.1 _ _ hrow, h.2 _ _ hkeys⟩

end Sample

end RecordStore
