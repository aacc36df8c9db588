import RecordStore.Proofs.Reading.Inserted
import RecordStore.Proofs.Sample

/-! # Keys that wait for the database

An insertion leaves the generated fields without a value to the database.  Where the key is a single
field, the value that the database chose is asked for and set before the record is cached.  A key of
several fields is not asked for: such a record has a key as soon as one of its fields is set, and is
cached under it while the others still hold a placeholder.  So an insertion caches a record under a
placeholder exactly where the record has a key and leaves a field of it to the database
(`RecordWriting.insertRecord_placeholder`). -/

namespace RecordStore

/-! ### Fields left to the database -/

/-- The value of a field is written, or it is a generated field without a value. -/
theorem Insert.get_of_assignments {α : Type} [Record α] {record : α} {fields : List Field}
    {values : List FieldExpr} (h : Insert.assignments record fields = .ok values) {field : Field}
    (hfield : field ∈ fields) : ∃ v, Record.get record field.name = .ok v ∧
      ((field.isGenerated && v.isUnset) = true ∨
        (⟨field.name, .fieldValue field.name v⟩ : FieldExpr) ∈ values) := by
  induction fields generalizing values with
  | nil => cases hfield
  | cons first fields ih =>
      obtain ⟨w, hw, h⟩ := except_bind_eq_ok.mp h
      obtain ⟨more, hmore, h⟩ := except_bind_eq_ok.mp h
      have hkept : ∀ a ∈ more, a ∈ values := by
        intro a ha
        split at h <;> cases h
        · exact ha
        · exact List.mem_cons_of_mem _ ha
      rcases List.mem_cons.mp hfield with rfl | hfield
      · refine ⟨w, hw, ?_⟩
        split at h <;> cases h
        · next hunset => exact .inl hunset
        · exact .inr List.mem_cons_self
      · obtain ⟨v, hv, hwritten⟩ := ih hmore hfield
        exact ⟨v, hv, hwritten.imp_right (hkept _)⟩

namespace Record

variable {α : Type} [Record α]

/-- The insertion of the record leaves a generated field to the database. -/
def LeavesOpen (record : α) (f : String) : Prop :=
  ∃ insert, Insert.ofRecord record = .ok insert ∧
    (∃ field ∈ (type α).fields, field.name = f ∧ field.isGenerated = true) ∧
    ∀ v, ¬ insert.Writes f v

/-- The key has no value yet in a field that the insertion of the record leaves to the database. -/
def IsPlaceholder (record : α) (key : List Value) : Prop :=
  ∃ f v, (f, v) ∈ (type α).primaryKey.zip key ∧ LeavesOpen record f ∧ v.isUnset = true

/-- The record has a key, although its insertion leaves a field of it to the database. -/
def HasOpenKey (record : α) : Prop :=
  (∃ key, Record.key record = .ok (some key)) ∧ ∃ f ∈ (type α).primaryKey, LeavesOpen record f

variable {record record' : α}

/-- What is left to the database has no value. -/
theorem LeavesOpen.exists_unset {f : String} (h : LeavesOpen record f) :
    ∃ v, get record f = .ok v ∧ v.isUnset = true := by
  obtain ⟨insert, hinsert, ⟨field, hfield, rfl, hgenerated⟩, hopen⟩ := h
  unfold Insert.ofRecord at hinsert
  obtain ⟨values, hvalues, hinsert⟩ := except_bind_eq_ok.mp hinsert
  cases hinsert
  have hstored : field ∈ (type α).storedFields := by
    refine List.mem_filter.mpr ⟨hfield, ?_⟩
    unfold Field.isGenerated at hgenerated
    unfold Field.isComputed
    cases hkind : field.kind with
    | computed definition required =>
        rw [hkind] at hgenerated
        cases hgenerated
    | _ => rfl
  obtain ⟨v, hv, hunset | hwritten⟩ := Insert.get_of_assignments hvalues hstored
  · rw [Bool.and_eq_true] at hunset
    exact ⟨v, hv, hunset.2⟩
  · exact absurd hwritten (hopen v)

/-- A record whose only key field has no value has no key. -/
theorem two_le_of_key {key : Key (type α)} (hkey : Record.key record = .ok (some key)) {f : String}
    {v : Value} (hmem : (f, v) ∈ (type α).primaryKey.zip key.values) (hunset : v.isUnset = true) :
    2 ≤ (type α).primaryKey.length := by
  have hpresent := isAbsent_of_key hkey
  have hwidth := key.width
  unfold Key.isAbsent isAbsentKey at hpresent
  by_contra hnarrow
  -- A key of one value that is unset is absent.
  match hvalues : key.values with
  | [] =>
      rw [hvalues, List.zip_nil_right] at hmem
      cases hmem
  | [w] =>
      rw [hvalues] at hmem hpresent
      obtain rfl : v = w := List.mem_singleton.mp (List.of_mem_zip hmem).2
      rw [List.all_cons, hunset, List.all_nil, Bool.and_self, Bool.or_true] at hpresent
      cases hpresent
  | _ :: _ :: _ =>
      rw [hvalues, List.length_cons, List.length_cons] at hwidth
      omega

theorem HasOpenKey.isPlaceholder (h : HasOpenKey record) :
    ∃ key, Record.key record = .ok (some key) ∧ IsPlaceholder record key.values := by
  obtain ⟨⟨key, hkey⟩, f, hf, hopen⟩ := h
  have hvalues := keyValues_of_key hkey
  unfold keyValues at hvalues
  obtain ⟨u, -, hall⟩ := except_bind_eq_ok.mp hvalues
  obtain ⟨v, hmem⟩ := exists_mem_zip (lift_eq_ok.mp hall) hf
  obtain ⟨w, hw, hunset⟩ := hopen.exists_unset
  have hget := get_of_key hkey hmem
  rw [hw] at hget
  cases hget
  exact ⟨key, hkey, f, v, hmem, hopen, hunset⟩

end Record

namespace RecordWriting

variable {α : Type} [Record α] {record record' : α}

/-- Only a key of a single field is asked for. -/
theorem primaryKey_of_awaitsKey {name : String} (h : awaitsKey record = .ok (some name)) :
    (Record.type α).primaryKey.length = 1 := by
  unfold awaitsKey at h
  split at h
  · next hkey =>
    rw [hkey]
    rfl
  · cases h

/-- A record with a key of several fields is not changed by its insertion. -/
theorem eq_of_keyedFrom (hwidth : 2 ≤ (Record.type α).primaryKey.length)
    (h : Record.KeyedFrom record record') : record' = record := by
  rcases h with rfl | ⟨name, v, hawaits, -⟩
  · rfl
  · rw [primaryKey_of_awaitsKey hawaits] at hwidth
    omega

/-! ### What is cached under a placeholder -/

/-- A row under a placeholder was there before, or it is that of a record with an open key. -/
theorem hasOpenKey_of_inserted (hkeyed : Record.KeyedFrom record record') {c c' : MemoryCache}
    (h : Inserted record' c c') {key : List Value} (hplaceholder : Record.IsPlaceholder record key)
    {e : CacheEntry} (he : c'.entryAt? (.ofRow (Record.type α) key) = some e) :
    c.entryAt? (.ofRow (Record.type α) key) = some e ∨
      (2 ≤ (Record.type α).primaryKey.length ∧ Record.HasOpenKey record) := by
  have hevicted : (c.evictKeyLists (Record.type α)).2.entryAt? (.ofRow (Record.type α) key) =
      c.entryAt? (.ofRow (Record.type α) key) :=
    c.entryAt?_evictKeyLists_of_bin_ne _ _ (Record.type α).rowBin_ne_keyListBin
  cases h with
  | uncached _ => exact .inl he
  | keyless _ => exact .inl (hevicted.symm.trans he)
  | @row key' values hkey _ =>
      rcases MemoryCache.entryAt?_of_store _ _ _ he with ⟨haddress, -, -⟩ | hold
      · obtain rfl : key = key'.values := congrArg CacheAddress.key haddress
        obtain ⟨f, v, hmem, hopen, hunset⟩ := hplaceholder
        have hwidth := Record.two_le_of_key hkey hmem hunset
        rw [eq_of_keyedFrom hwidth hkeyed] at hkey
        exact .inr ⟨hwidth, ⟨key', hkey⟩, f, (List.of_mem_zip hmem).1, hopen⟩
      · exact .inl (hevicted.symm.trans hold)

/-- A record with an open key is cached under it. -/
theorem entryAt?_of_hasOpenKey (hkeyed : Record.KeyedFrom record record') {c c' : MemoryCache}
    (h : Inserted record' c c') (hopen : c.isShutDown = false)
    (htable : (Record.type α).isComputed = false) (hkey : Record.HasOpenKey record) :
    ∃ key values, Record.IsPlaceholder record key ∧ Record.toValues record = .ok values ∧
      c'.entryAt? (.ofRow (Record.type α) key) = some (c.entryFor (.row values) .record) := by
  obtain ⟨key, hrecord, hplaceholder⟩ := hkey.isPlaceholder
  have ⟨f, v, hmem, _, hunset⟩ := hplaceholder
  obtain rfl := eq_of_keyedFrom (Record.two_le_of_key hrecord hmem hunset) hkeyed
  cases h with
  | uncached huncached =>
      unfold RecordType.isCacheable at huncached
      rw [htable, key.hasKey] at huncached
      cases huncached
  | keyless hnone =>
      rw [hrecord] at hnone
      cases hnone
  | @row key' values hkey' hvalues =>
      rw [hrecord] at hkey'
      cases hkey'
      have hsteps : CacheSteps (fun _ _ => False) c (c.evictKeyLists (Record.type α)).2 :=
        c.evictKeyLists_steps _
      refine ⟨key.values, values, hplaceholder, hvalues, ?_⟩
      rw [MemoryCache.entryAt?_store_self _ _ (hsteps.isShutDown_eq.trans hopen)]
      exact congrArg some (c.entryFor_removeAll _ _ _ _)

/-- After an insertion, however it ends, a row under a placeholder was there before, or the record
has a key of several fields some of which are left to the database.  Such a record is cached under
its placeholder whenever the insertion succeeds and the cache is open. -/
theorem insertRecord_placeholder {σ : Type} (conn : Connection σ) (st : WriteState σ)
    (record : α) :
    Option.Rel (fun c c' =>
        (∀ key e, Record.IsPlaceholder record key →
          c'.entryAt? (.ofRow (Record.type α) key) = some e →
          c.entryAt? (.ofRow (Record.type α) key) = some e ∨
            (2 ≤ (Record.type α).primaryKey.length ∧ Record.HasOpenKey record)) ∧
        ((∃ n p, insertRecord conn (st, record) = .ok n p) → c.isShutDown = false →
          Record.HasOpenKey record →
          ∃ key values, Record.IsPlaceholder record key ∧ Record.toValues record = .ok values ∧
            c'.entryAt? (.ofRow (Record.type α) key) = some (c.entryFor (.row values) .record)))
      st.cache (finalState (insertRecord conn (st, record))).1.cache := by
  have hcache := insertRecord_cache conn st record
  cases hrun : insertRecord conn (st, record) with
  | error e p =>
      rw [hrun] at hcache
      change OptionalSteps _ st.cache p.1.cache at hcache
      change Option.Rel _ st.cache p.1.cache
      generalize st.cache = before, p.1.cache = after at hcache ⊢
      cases hcache with
      | none => exact .none
      | some hsteps =>
          refine .some ⟨fun key e _ he => ?_, fun ⟨n, p', hok⟩ => by cases hok⟩
          rcases hsteps.entryAt? he with hold | ⟨-, -, hstored⟩
          · exact .inl hold
          · exact hstored.elim
  | ok n p =>
      obtain ⟨st', record'⟩ := p
      have hkeyed := record_of_insertRecord hrun
      have htable := insertRecord_table conn hrun
      rw [hrun] at hcache
      change Option.Rel (Inserted record') st.cache st'.cache at hcache
      change Option.Rel _ st.cache st'.cache
      generalize st.cache = before, st'.cache = after at hcache ⊢
      cases hcache with
      | none => exact .none
      | some hinserted =>
          exact .some ⟨fun key e hplaceholder he =>
              hasOpenKey_of_inserted hkeyed hinserted hplaceholder he,
            fun _ hopen hkey => entryAt?_of_hasOpenKey hkeyed hinserted hopen htable hkey⟩

end RecordWriting

namespace Sample

/-- Tickets under a tenant and a number that the database chooses. -/
def ticketSchema : Schema where
  name := "Ticket"
  table := some "tickets"
  columns := [⟨.stored "tenant" "tenant", .integer, false⟩,
    ⟨.generated "number" "num", .integer, false⟩, ⟨.stored "open" "open", .bool, false⟩]
  primaryKey := ["tenant", "number"]

/-- A ticket of the first tenant without a number. -/
def ticket : Row ticketSchema := ⟨[.integer 1, .integer 0, .bool true]⟩

/-- The ticket is cached under the number zero, which is left to the database. -/
theorem ticket_cached_under_placeholder :
    Record.IsPlaceholder ticket [.integer 1, .integer 0] ∧
      (finalState (RecordWriting.insertRecord (database [])
        (⟨(), some (MemoryCache.new 8), {}⟩, ticket))).1.cache.bind
          (·.entryAt? (.ofRow ticketSchema.type [.integer 1, .integer 0])) =
        some ⟨.row [.integer 1, .integer 0, .bool true], 1, some 300000000000⟩ := by
  have hwritten : "number" ∉ ["tenant", "open"] := by decide
  have hopen : Record.LeavesOpen ticket "number" :=
    ⟨_, rfl, ⟨.generated "number" "num", by decide, rfl, rfl⟩, fun v h =>
      hwritten (List.mem_map_of_mem (f := FieldExprOf.field) h)⟩
  exact ⟨⟨"number", .integer 0, by decide, hopen, rfl⟩, by decide +kernel⟩

end Sample

end RecordStore
