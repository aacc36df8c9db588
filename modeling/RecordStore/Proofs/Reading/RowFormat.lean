import RecordStore.Proofs.Reading.Fetch
import RecordStore.Proofs.Writing.KeyForms

/-! # What the cache keeps of a row

The cache has the values of a row, under the key that the row reports.  The values make the same row
again (`Row.exists_toValues`), whatever was written to it since it was blank, and a key that was
given the form of its record type has this form already (`LawfulRecord.normalizeKey_normalizeKey`).
So a key that was stored finds its row, and the row that is found reports the key
(`Schema.rows_kept`).

Names of fields may repeat here.  Only the first column of a name is ever written, so the others are
blank (`Row.LaterBlank`). -/

namespace RecordStore

namespace Record

variable {α : Type} [Record α]

theorem normalizeKey_eq_ok {values form : List Value} : normalizeKey α values = .ok form ↔
    (type α).requireKey = .ok () ∧ ∃ probe : α,
      setAll blank ((type α).primaryKey.zip values) = .ok probe ∧
        getAll probe (type α).primaryKey = .ok form := by
  constructor
  · intro h
    obtain ⟨probe, hprobe, h⟩ := except_bind_eq_ok.mp h
    obtain ⟨⟨⟩, hkey, hform⟩ := except_bind_eq_ok.mp h
    exact ⟨hkey, probe, lift_eq_ok.mp hprobe, lift_eq_ok.mp hform⟩
  · rintro ⟨hkey, probe, hprobe, hform⟩
    exact except_bind_eq_ok.mpr ⟨probe, lift_eq_ok.mpr hprobe,
      except_bind_eq_ok.mpr ⟨(), hkey, lift_eq_ok.mpr hform⟩⟩

/-- Fields that can be read one by one can be read together. -/
theorem exists_getAll {record : α} {fields : List String}
    (h : ∀ f ∈ fields, ∃ v, get record f = .ok v) :
    ∃ values, getAll record fields = .ok values := by
  unfold getAll
  induction fields with
  | nil => exact ⟨[], rfl⟩
  | cons f fields ih =>
      obtain ⟨⟨v, hv⟩, hfields⟩ := List.forall_mem_cons.mp h
      obtain ⟨values, hvalues⟩ := ih hfields
      exact ⟨v :: values, except_mapM_cons_eq_ok.mpr ⟨v, values, hv, hvalues, rfl⟩⟩

end Record

namespace LawfulRecord

variable {α : Type} [Record α] {Valid : α → Prop} (laws : LawfulRecord α Valid)
include laws

/-- Fields that are set to the values of a record have these values, also if some are set several
times. -/
theorem get_setAll_of_forall {r r' record : α} {pairs : List (String × Value)} (hr : Valid r)
    (hrecord : Valid record) (h : ∀ p ∈ pairs, Record.get record p.1 = .ok p.2)
    (hset : Record.setAll r pairs = .ok r') : ∀ p ∈ pairs, Record.get r' p.1 = .ok p.2 := by
  induction pairs generalizing r with
  | nil => exact nofun
  | cons p pairs ih =>
      obtain ⟨t, hfirst, hrest⟩ := Record.setAll_cons.mp hset
      obtain ⟨hp, hpairs⟩ := List.forall_mem_cons.mp h
      have hothers := ih (laws.valid_set hr hfirst) hpairs hrest
      refine List.forall_mem_cons.mpr ⟨?_, hothers⟩
      by_cases hagain : p.1 ∈ pairs.map (·.1)
      · -- The last write of the field has the same value.
        obtain ⟨q, hq, hname⟩ := List.mem_map.mp hagain
        have hvalue := hpairs q hq
        rw [hname, hp] at hvalue
        rw [← hname, hothers q hq, Except.ok.inj hvalue]
      · obtain ⟨t', hset', hget'⟩ := laws.set_get hrecord hr hp
        rw [hfirst] at hset'
        cases hset'
        rw [laws.get_setAll_of_notMem hrest hagain, hget']

/-- A key in the form of its record type stays as it is. -/
theorem normalizeKey_normalizeKey {values form : List Value}
    (h : Record.normalizeKey α values = .ok form) : Record.normalizeKey α form = .ok form := by
  obtain ⟨hkey, probe, hprobe, hget⟩ := Record.normalizeKey_eq_ok.mp h
  have hprobe : Valid probe := laws.valid_setAll laws.valid_blank hprobe
  have hvalues : ∀ p ∈ (Record.type α).primaryKey.zip form, Record.get probe p.1 = .ok p.2 :=
    fun p hp => Record.get_of_mem_zip hget hp
  obtain ⟨copy, hcopy⟩ := laws.exists_setAll laws.valid_blank hprobe hvalues
  refine Record.normalizeKey_eq_ok.mpr ⟨hkey, copy, hcopy, ?_⟩
  exact Record.getAll_of_forall (except_mapM_length hget).symm
    (laws.get_setAll_of_forall laws.valid_blank hprobe hvalues hcopy)

end LawfulRecord

namespace Row

/-! ### Columns that nothing writes to -/

/-- Columns of a name that is taken, or of an earlier column, are blank. -/
def LaterBlank : List String → List Column → List Value → Prop
  | taken, c :: cs, v :: vs =>
    (c.field.name ∈ taken → v = c.blank) ∧ LaterBlank (c.field.name :: taken) cs vs
  | _, _, _ => True

variable {unknown : StatementError} {f : String} {v : Value} {cs : List Column}
  {taken : List String} {vs ws : List Value}

theorem laterBlank_blank (taken : List String) (cs : List Column) :
    LaterBlank taken cs (cs.map Column.blank) := by
  induction cs generalizing taken with
  | nil => trivial
  | cons c cs ih => exact ⟨fun _ => rfl, ih _⟩

/-- Writing goes to the first column of a name only. -/
theorem laterBlank_writeColumn (h : LaterBlank taken cs vs) (hf : f ∉ taken)
    (hwrite : writeColumn unknown f v cs vs = .ok ws) : LaterBlank taken cs ws := by
  induction cs generalizing taken vs ws with
  | nil => cases hwrite
  | cons c cs ih =>
      cases vs with
      | nil => cases hwrite
      | cons w vs =>
          obtain ⟨hhead, htail⟩ := h
          rcases writeColumn_cons_eq_ok.mp hwrite with ⟨rfl, u, -, rfl⟩ | ⟨hne, us, hus, rfl⟩
          · exact ⟨fun hmem => absurd hmem hf, htail⟩
          · refine ⟨hhead, ih htail ?_ hus⟩
            rw [List.mem_cons, not_or]
            exact ⟨fun heq => hne heq.symm, hf⟩

/-- Columns hold the same if the same is read from the names that are not taken. -/
theorem eq_of_laterBlank (hvs : OfColumns cs vs) (hws : OfColumns cs ws)
    (hv : LaterBlank taken cs vs) (hw : LaterBlank taken cs ws)
    (hread : ∀ c ∈ cs, c.field.name ∉ taken →
      readColumn c.field.name cs vs = readColumn c.field.name cs ws) : vs = ws := by
  induction hvs generalizing taken ws with
  | nil =>
      cases hws
      rfl
  | @cons c v cs vs hc hrest ih =>
      cases hws with
      | @cons _ w _ ws _ hrest' =>
          have hhead : v = w := by
            by_cases htaken : c.field.name ∈ taken
            · rw [hv.1 htaken, hw.1 htaken]
            · have hfirst := hread c List.mem_cons_self htaken
              rw [readColumn, readColumn, if_pos rfl, if_pos rfl] at hfirst
              exact Option.some.inj hfirst
          have htail : vs = ws := by
            refine ih hrest' hv.2 hw.2 fun d hd hnew => ?_
            rw [List.mem_cons, not_or] at hnew
            have hlater := hread d (List.mem_cons_of_mem _ hd) hnew.2
            rwa [readColumn, readColumn, if_neg (Ne.symm hnew.1), if_neg (Ne.symm hnew.1)] at hlater
          rw [hhead, htail]

/-! ### The values of a row -/

variable {s : Schema} {row row' : Row s}

theorem laterBlank_of_madeFrom (h : Record.MadeFrom Record.blank row) :
    LaterBlank [] s.columns row.values := by
  obtain ⟨pairs, hset⟩ := h
  have hstart : LaterBlank [] s.columns (Record.blank : Row s).values :=
    laterBlank_blank [] s.columns
  generalize (Record.blank : Row s) = start at hset hstart
  induction pairs generalizing start with
  | nil =>
      cases hset
      exact hstart
  | cons p pairs ih =>
      obtain ⟨next, hnext, hrest⟩ := Record.setAll_cons.mp hset
      exact ih next hrest (laterBlank_writeColumn hstart List.not_mem_nil (set_eq_ok.mp hnext))

/-- Every field of a typed row can be read. -/
theorem exists_readColumn_of_mem (h : OfColumns cs vs) {c : Column} (hc : c ∈ cs) :
    ∃ v, readColumn c.field.name cs vs = some v := by
  induction h with
  | nil => cases hc
  | @cons d w cs vs hd hrest ih =>
      rw [readColumn]
      by_cases hname : d.field.name = c.field.name
      · exact ⟨w, if_pos hname⟩
      · rw [if_neg hname]
        rcases List.mem_cons.mp hc with rfl | hc
        · exact absurd rfl hname
        · exact ih hc

/-- A row that is made from a blank one has values, and they make the row again. -/
theorem exists_toValues (h : Record.MadeFrom Record.blank row) :
    ∃ values, Record.toValues row = .ok values ∧
      Record.ofValues s.type.fieldNames values = .ok row := by
  have laws := lawful s
  have htyped : row.Typed := laws.valid_of_madeFrom laws.valid_blank h
  have hnames : s.type.fieldNames = s.columns.map (·.field.name) := List.map_map
  obtain ⟨values, hvalues⟩ : ∃ values, Record.toValues row = .ok values := by
    refine Record.exists_getAll fun f hf => ?_
    rw [show (Record.type (Row s)).fieldNames = _ from hnames] at hf
    obtain ⟨c, hc, rfl⟩ := List.mem_map.mp hf
    obtain ⟨v, hv⟩ := exists_readColumn_of_mem htyped hc
    exact ⟨v, get_eq_ok.mpr hv⟩
  have hget : ∀ p ∈ s.type.fieldNames.zip values, Record.get row p.1 = .ok p.2 :=
    fun p hp => Record.get_of_mem_zip hvalues hp
  obtain ⟨copy, hcopy⟩ := laws.exists_setAll laws.valid_blank htyped hget
  have hcopyTyped : copy.Typed := laws.valid_setAll laws.valid_blank hcopy
  have hsame : copy.values = row.values := by
    refine eq_of_laterBlank hcopyTyped htyped (laterBlank_of_madeFrom ⟨_, hcopy⟩)
      (laterBlank_of_madeFrom h) fun c hc _ => readColumn_eq_of_get ?_
    obtain ⟨v, hmem⟩ := Record.exists_mem_zip hvalues (hnames ▸ List.mem_map_of_mem hc)
    exact (laws.get_setAll_of_forall laws.valid_blank htyped hget hcopy _ hmem).trans
      (hget _ hmem).symm
  have hlength : s.type.fieldNames.length = values.length := (except_mapM_length hvalues).symm
  refine ⟨values, hvalues, ?_⟩
  unfold Record.ofValues
  rw [if_pos hlength, hcopy, show copy = row from congrArg Row.mk hsame]

end Row

namespace Reading

variable {σ : Type} {α : Type} [Record α]

/-- Caching a record puts its values at the address of the key, unless the cache refuses them. -/
theorem valueAt_storeRecord {key : List Value} {record : α} {values : List Value}
    (hvalues : Record.toValues record = .ok values) {st : ReadState σ} {c : MemoryCache}
    (hcache : st.cache = some c) (hopen : c.isShutDown = false) :
    ∃ st', storeRecord key record st = .ok () st' ∧
      valueAt st'.cache (.ofRow (Record.type α) key) = some (.row values) := by
  obtain ⟨db, cache, stats⟩ := st
  obtain rfl : cache = some c := hcache
  refine ⟨⟨db, some (c.storeAt (.ofRow (Record.type α) key) (.row values)), stats⟩, ?_, ?_⟩
  · unfold storeRecord
    rw [hvalues]
    rfl
  · exact congrArg (Option.map CacheEntry.value) (c.freshAt?_store_self _ hopen)

end Reading

/-- The form of a key has a value for each key field and is its own form.  A row that was made from
a blank one by setting fields has values that make it again.  So where the cache has been given the
row under its key, and still has what it was given, the row comes back and reports this key. -/
theorem Schema.rows_kept (s : Schema) :
    (∀ values form, Record.normalizeKey (Row s) values = .ok form →
      form.length = s.primaryKey.length ∧ Record.normalizeKey (Row s) form = .ok form) ∧
    ∀ row : Row s, Record.MadeFrom Record.blank row →
      ∃ values, Record.toValues row = .ok values ∧
        Record.ofValues s.type.fieldNames values = .ok row ∧
        ∀ key, Record.keyValues row = .ok key →
          (∀ {σ : Type} (st : ReadState σ) (c : MemoryCache), st.cache = some c →
            c.isShutDown = false →
            ∃ st', Reading.storeRecord key row st = .ok () st' ∧
              Reading.valueAt st'.cache (.ofRow s.type key) = some (.row values)) ∧
          ∀ {σ : Type} (st : ReadState σ),
            Reading.valueAt st.cache (.ofRow s.type key) = some (.row values) →
            ∃ (copy : Row s) (st' : ReadState σ),
              Reading.cachedRecord key st = .ok (some copy) st' ∧
              copy = row ∧ Record.keyValues copy = .ok key := by
  refine ⟨fun values form h => ?_, fun row hrow => ?_⟩
  · exact ⟨Record.length_of_normalizeKey h, (Row.lawful s).normalizeKey_normalizeKey h⟩
  obtain ⟨values, hvalues, hagain⟩ := Row.exists_toValues hrow
  refine ⟨values, hvalues, hagain, fun key hkey => ⟨fun st c hcache hopen => ?_, fun st hst => ?_⟩⟩
  · exact Reading.valueAt_storeRecord hvalues hcache hopen
  · obtain ⟨st', hlookup, -, -⟩ := Reading.cachedRecord_eq (α := Row s) key st
    have hcached : Reading.cached? (Row s) st.cache key = some row := by
      unfold Reading.cached?
      rw [show Reading.valueAt st.cache (.ofRow (Record.type (Row s)) key) = _ from hst]
      exact congrArg Except.toOption hagain
    exact ⟨row, st', hcached ▸ hlookup, rfl, hkey⟩

namespace Sample

/-- A gauge that is found by an integer is kept and found again under a real number. -/
theorem gauge_kept :
    Record.normalizeKey (Row gaugeSchema) [.real (.ofInt 2)] = .ok [.real (.ofInt 2)] ∧
      ∃ row : Row gaugeSchema,
        Record.setAll Record.blank [("id", .integer 2), ("label", .text "a")] = .ok row ∧
        ∃ (copy : Row gaugeSchema) (st' : ReadState Unit),
          Reading.cachedRecord [.real (.ofInt 2)]
            { connection := (), cache := gauges.cache : ReadState Unit } = .ok (some copy) st' ∧
          copy = row ∧ Record.keyValues copy = .ok [.real (.ofInt 2)] := by
  obtain ⟨hform, hrow⟩ := gaugeSchema.rows_kept
  refine ⟨(hform _ _ normalize_gaugeKey).2, ⟨[.real (.ofInt 2), .text "a"]⟩, rfl, ?_⟩
  obtain ⟨values, hvalues, -, hkept⟩ :=
    hrow ⟨[.real (.ofInt 2), .text "a"]⟩ ⟨[("id", .integer 2), ("label", .text "a")], rfl⟩
  cases hvalues
  exact (hkept _ rfl).2 _ rfl

end Sample

end RecordStore
