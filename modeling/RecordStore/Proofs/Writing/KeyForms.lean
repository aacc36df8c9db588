import RecordStore.Proofs.Record.Laws
import RecordStore.Proofs.Sample
import RecordStore.Proofs.Sharing.Run

/-! # Forms of a key

A record gives its key back in a form of its own: a column of reals turns the integer two into the
real two.  Reading stores rows under this form, while a write evicts by the values that the caller
has given.  The two are the same where the record type can hold the values as they are
(`LawfulRecord.normalizeKey_eq_iff`), which for rows means that each column converts its value to
itself (`Row.holds_iff`).  Otherwise the row stays unless its own form is among the keys as well
(`Target.evicts_normalized_iff`). -/

namespace RecordStore

/-! ### Values that a record gives back -/

namespace Record

variable {α : Type} [Record α]

/-- Some record in order has this value in the field. -/
def Holds (Valid : α → Prop) (f : String) (v : Value) : Prop :=
  ∃ record : α, Valid record ∧ get record f = .ok v

/-- The values of a record in some fields, one by one. -/
theorem getAll_of_forall {record : α} {fields : List String} {values : List Value}
    (hlength : fields.length = values.length)
    (h : ∀ p ∈ fields.zip values, get record p.1 = .ok p.2) :
    getAll record fields = .ok values := by
  induction fields generalizing values with
  | nil =>
      obtain rfl := List.length_eq_zero_iff.mp hlength.symm
      rfl
  | cons f fields ih =>
      cases values with
      | nil => cases hlength
      | cons v values =>
          obtain ⟨hv, hrest⟩ := List.forall_mem_cons.mp h
          exact except_mapM_cons_eq_ok.mpr ⟨v, values, hv, ih (Nat.succ.inj hlength) hrest, rfl⟩

/-- The form of a key is what a blank record gives back that has been set to the key. -/
theorem exists_of_normalizeKey {values form : List Value}
    (h : normalizeKey α values = .ok form) :
    ∃ probe : α, setAll blank ((type α).primaryKey.zip values) = .ok probe ∧
      getAll probe (type α).primaryKey = .ok form := by
  obtain ⟨probe, hprobe, h⟩ := except_bind_eq_ok.mp h
  obtain ⟨u, -, hform⟩ := except_bind_eq_ok.mp h
  exact ⟨probe, lift_eq_ok.mp hprobe, lift_eq_ok.mp hform⟩

end Record

namespace LawfulRecord

variable {α : Type} [Record α] {Valid : α → Prop} (laws : LawfulRecord α Valid)
include laws

/-- A key is in the form of the record type if its fields can hold the values as they are. -/
theorem normalizeKey_eq_iff (hnodup : (Record.type α).primaryKey.Nodup)
    {key : Key (Record.type α)} {form : List Value}
    (hform : Record.normalizeKey α key.values = .ok form) :
    form = key.values ↔
      ∀ p ∈ (Record.type α).primaryKey.zip key.values, Record.Holds Valid p.1 p.2 := by
  obtain ⟨probe, hprobe, hget⟩ := Record.exists_of_normalizeKey hform
  constructor
  · rintro rfl p hp
    exact ⟨probe, laws.valid_setAll laws.valid_blank hprobe, Record.get_of_mem_zip hget hp⟩
  · intro hholds
    have hnames : (((Record.type α).primaryKey.zip key.values).map (·.1)).Nodup := by
      rwa [List.map_fst_zip (Nat.le_of_eq key.width.symm)]
    have hall : Record.getAll probe (Record.type α).primaryKey = .ok key.values := by
      refine Record.getAll_of_forall key.width.symm fun p hp => ?_
      obtain ⟨record, hvalid, hrecord⟩ := hholds p hp
      exact laws.get_setAll laws.valid_blank hprobe hnames hp hvalid hrecord
    rw [hget] at hall
    exact Except.ok.inj hall

end LawfulRecord

namespace Row

variable {s : Schema} {f : String} {v : Value}

/-- What is read from typed columns is of the type of the first column of the name. -/
theorem convert_of_readColumn {cs : List Column} {vs : List Value} (h : OfColumns cs vs)
    (hread : readColumn f cs vs = some v) :
    ∃ c, cs.find? (·.field.name = f) = some c ∧ c.convert v = .ok v := by
  induction h with
  | nil => cases hread
  | @cons c w cs vs hc hrest ih =>
      rw [readColumn] at hread
      by_cases hname : c.field.name = f
      · rw [if_pos hname] at hread
        cases hread
        exact ⟨c, List.find?_cons_of_pos (by simpa using hname), hc⟩
      · rw [if_neg hname] at hread
        rw [List.find?_cons_of_neg (by simpa using hname)]
        exact ih hread

/-- A value of the type of the first column of the name can be there. -/
theorem exists_readColumn {cs : List Column} {vs : List Value} (h : OfColumns cs vs) {c : Column}
    (hfind : cs.find? (·.field.name = f) = some c) (hv : c.convert v = .ok v) :
    ∃ ws, OfColumns cs ws ∧ readColumn f cs ws = some v := by
  induction h with
  | nil => cases hfind
  | @cons d w cs vs hd hrest ih =>
      by_cases hname : d.field.name = f
      · rw [List.find?_cons_of_pos (by simpa using hname)] at hfind
        cases hfind
        refine ⟨v :: vs, .cons hv hrest, ?_⟩
        rw [readColumn, if_pos hname]
      · rw [List.find?_cons_of_neg (by simpa using hname)] at hfind
        obtain ⟨ws, hws, hread⟩ := ih hfind
        refine ⟨w :: ws, .cons hd hws, ?_⟩
        rw [readColumn, if_neg hname, hread]

/-- A typed row can have a value in a field if the column of the field converts it to itself. -/
theorem holds_iff : Record.Holds (Row.Typed (s := s)) f v ↔
    ∃ c, s.columns.find? (·.field.name = f) = some c ∧ c.convert v = .ok v := by
  constructor
  · rintro ⟨row, htyped, hget⟩
    exact convert_of_readColumn htyped (get_eq_ok.mp hget)
  · rintro ⟨c, hfind, hv⟩
    obtain ⟨ws, hws, hread⟩ := exists_readColumn (typed_blank (s := s)) hfind hv
    exact ⟨⟨ws⟩, hws, get_eq_ok.mpr hread⟩

end Row

/-! ### What a write by keys evicts -/

namespace Target

variable {target : Target} {r : RecordType}

/-- Changing or removing the rows of a target applies its directive to the cache. -/
theorem cache_of_write {σ : Type} {repo repo' : Repository σ} {n : Nat}
    (h : Repository.deleteWhere target repo = .ok n repo' ∨
      ∃ assignments, Repository.updateWhere assignments target repo = .ok n repo') :
    repo'.cache = repo.cache.map fun c => ((Directive.rows target).apply c).2 := by
  rcases h with h | ⟨assignments, h⟩
  · have hguarded := Repository.deleteWhere_guarded target repo
    rw [h] at hguarded
    exact hguarded.2
  · have hguarded := Repository.updateWhere_guarded assignments target repo
    rw [h] at hguarded
    exact hguarded.2

/-- A row under the record type's form of a key is evicted by a target, and by a write to it,
exactly if this form is one of the target's keys.  With the key itself in the target it is so if the
fields of the key can hold its values as they are, and if the target is that key alone then only so.
-/
theorem evicts_normalized_iff {α : Type} [Record α] {Valid : α → Prop}
    (laws : LawfulRecord α Valid) (hnodup : (Record.type α).primaryKey.Nodup)
    (hrecord : target.record.sameAs (Record.type α) = true) {key : Key (Record.type α)}
    (hkey : key.values ∈ target.tuples) {form : List Value}
    (hform : Record.normalizeKey α key.values = .ok form) :
    (∀ c : MemoryCache,
        ((Directive.rows target).apply c).2.entryAt? (.ofRow (Record.type α) form) =
          if form ∈ target.tuples then none else c.entryAt? (.ofRow (Record.type α) form)) ∧
      (∀ {σ : Type} {repo repo' : Repository σ} {n : Nat},
        (Repository.deleteWhere target repo = .ok n repo' ∨
          ∃ assignments, Repository.updateWhere assignments target repo = .ok n repo') →
        Option.Rel (fun c c' => c'.entryAt? (.ofRow (Record.type α) form) =
            if form ∈ target.tuples then none else c.entryAt? (.ofRow (Record.type α) form))
          repo.cache repo'.cache) ∧
      ((∀ p ∈ (Record.type α).primaryKey.zip key.values, Record.Holds Valid p.1 p.2) →
        form ∈ target.tuples) ∧
      (target.tuples = [key.values] → form ∈ target.tuples →
        ∀ p ∈ (Record.type α).primaryKey.zip key.values, Record.Holds Valid p.1 p.2) := by
  have hform_iff := laws.normalizeKey_eq_iff hnodup hform
  have hevicted := entryAt?_apply hrecord form
  refine ⟨hevicted, fun {σ repo repo' n} hwrite => ?_, fun hholds => ?_, fun hsingle hmem => ?_⟩
  · rw [cache_of_write hwrite]
    cases repo.cache with
    | none => exact .none
    | some c => exact .some (hevicted c)
  · rw [hform_iff.mpr hholds]
    exact hkey
  · rw [hsingle] at hmem
    exact hform_iff.mp (List.mem_singleton.mp hmem)

end Target

namespace Sample

/-- Gauges under a real number. -/
def gaugeSchema : Schema where
  name := "Gauge"
  table := some "gauges"
  columns := [⟨.stored "id" "gauge_id", .real, false⟩, ⟨.stored "label" "label", .text, true⟩]
  primaryKey := ["id"]

/-- Gauges, the second of which is cached. -/
def gauges : Repository Unit :=
  .withCache (database []) () {} ((MemoryCache.new 8).storeAt
    (.ofRow gaugeSchema.type [.real (.ofInt 2)]) (.row [.real (.ofInt 2), .text "a"]) .record)

/-- The second gauge, as a caller with integers names it. -/
def gaugeKey : Key gaugeSchema.type := ⟨[.integer 2], by decide, by decide⟩

/-- The second gauge in both forms of its key. -/
def gaugeKeys : KeySet gaugeSchema.type :=
  .ofKeys [gaugeKey, ⟨[.real (.ofInt 2)], by decide, by decide⟩]

theorem normalize_gaugeKey :
    Record.normalizeKey (Row gaugeSchema) gaugeKey.values = .ok [.real (.ofInt 2)] := rfl

/-- Removed in both forms of its key, the gauge leaves the cache. -/
theorem gauge_removed_in_both_forms :
    ∃ repo', Repository.deleteWhere (.keys _ gaugeKeys) gauges = .ok 1 repo' ∧
      ∃ c', repo'.cache = some c' ∧
        c'.entryAt? (.ofRow gaugeSchema.type [.real (.ofInt 2)]) = none := by
  have hmem : gaugeKey.values ∈ (Target.keys _ gaugeKeys).tuples := by decide
  obtain ⟨repo', hdelete⟩ :
      ∃ repo', Repository.deleteWhere (.keys _ gaugeKeys) gauges = .ok 1 repo' := ⟨_, rfl⟩
  have hrel := (Target.evicts_normalized_iff (Row.lawful gaugeSchema) (by decide) rfl hmem
    normalize_gaugeKey).2.1 (.inl hdelete)
  refine ⟨repo', hdelete, ?_⟩
  rw [show gauges.cache = some _ from rfl] at hrel
  generalize repo'.cache = cache at hrel ⊢
  cases hrel with
  | some h => exact ⟨_, rfl, h.trans (if_pos (by decide))⟩

/-- Removed by the integer alone, it stays there: a column of reals holds no integer. -/
theorem gauge_outlives_removal :
    Record.normalizeKey (Row gaugeSchema) gaugeKey.values = .ok [.real (.ofInt 2)] ∧
      ¬ Record.Holds (Row.Typed (s := gaugeSchema)) "id" (.integer 2) ∧
      ∃ repo', Repository.delete gaugeKey gauges = .ok 1 repo' ∧
        repo'.cache.bind (·.entryAt? (.ofRow gaugeSchema.type [.real (.ofInt 2)])) =
          some ⟨.row [.real (.ofInt 2), .text "a"], 1, some 300000000000⟩ := by
  refine ⟨normalize_gaugeKey, fun hholds => ?_, _, rfl, by decide +kernel⟩
  obtain ⟨c, hfind, hconvert⟩ := Row.holds_iff.mp hholds
  cases hfind
  cases hconvert

end Sample

end RecordStore
