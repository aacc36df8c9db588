import Mathlib.Data.List.Forall2
import RecordStore.Proofs.Computation
import RecordStore.Record.Row

/-! # Laws of records

A field that is set has a value that depends on nothing but what was set, the other fields are left
alone, and the values that a record has can be set again and stay the same (`LawfulRecord`).  Then a
record is known by its values (`LawfulRecord.ofValues_toValues`).  Rows of typed columns obey these
laws (`Row.lawful`), and their values make the same rows again (`Row.readsBack`). -/

namespace RecordStore

/-- The laws of getting and setting fields, for records that are in order. -/
structure LawfulRecord (α : Type) [Record α] (Valid : α → Prop) : Prop where
  valid_blank : Valid Record.blank
  valid_set {r r' : α} {f : String} {v : Value} (hr : Valid r) (h : Record.set r f v = .ok r') :
    Valid r'
  get_set_ne {r r' : α} {f g : String} {v : Value} (h : Record.set r f v = .ok r') (hne : g ≠ f) :
    Record.get r' g = Record.get r g
  /-- What a record has in a field can be set in every record. -/
  set_get {r s : α} {f : String} {v : Value} (hr : Valid r) (hs : Valid s)
    (h : Record.get r f = .ok v) : ∃ s', Record.set s f v = .ok s' ∧ Record.get s' f = .ok v

namespace Record

variable {α : Type} [Record α] {record : α}

/-- The values of fields are those that the record has. -/
theorem get_of_mem_zip {fields : List String} {values : List Value}
    (h : getAll record fields = .ok values) {f : String} {v : Value}
    (hmem : (f, v) ∈ fields.zip values) : get record f = .ok v := by
  unfold getAll at h
  induction fields generalizing values with
  | nil => cases hmem
  | cons g fields ih =>
      obtain ⟨w, rest, hw, hrest, rfl⟩ := except_mapM_cons_eq_ok.mp h
      rcases List.mem_cons.mp hmem with heq | hmem
      · cases heq
        exact hw
      · exact ih hrest hmem

/-- Every field has one of the values. -/
theorem exists_mem_zip {fields : List String} {values : List Value}
    (h : getAll record fields = .ok values) {f : String} (hf : f ∈ fields) :
    ∃ v, (f, v) ∈ fields.zip values := by
  unfold getAll at h
  induction fields generalizing values with
  | nil => cases hf
  | cons g fields ih =>
      obtain ⟨w, rest, -, hrest, rfl⟩ := except_mapM_cons_eq_ok.mp h
      rcases List.mem_cons.mp hf with rfl | hf
      · exact ⟨w, List.mem_cons_self⟩
      · obtain ⟨v, hv⟩ := ih hrest hf
        exact ⟨v, List.mem_cons_of_mem _ hv⟩

theorem setAll_cons {r r' : α} {f : String} {v : Value} {rest : List (String × Value)} :
    setAll r ((f, v) :: rest) = .ok r' ↔ ∃ s, set r f v = .ok s ∧ setAll s rest = .ok r' :=
  except_bind_eq_ok

/-- Setting fields of the first record makes the second one. -/
def MadeFrom (start record : α) : Prop := ∃ pairs, setAll start pairs = .ok record

/-- The values of the record make the record again. -/
def ReadsBack (record : α) : Prop :=
  ∀ values, toValues record = .ok values → ofValues (type α).fieldNames values = .ok record

namespace MadeFrom

variable {start : α}

theorem refl (record : α) : MadeFrom record record := ⟨[], rfl⟩

theorem of_set {f : String} {v : Value} (h : set start f v = .ok record) :
    MadeFrom start record := ⟨[(f, v)], setAll_cons.mpr ⟨record, h, rfl⟩⟩

/-- A record that is made of values is made from a blank one. -/
theorem of_ofValues {fields : List String} {values : List Value}
    (h : ofValues fields values = .ok record) : MadeFrom blank record := by
  unfold ofValues at h
  split at h
  · exact ⟨_, h⟩
  · cases h

end MadeFrom

end Record

namespace LawfulRecord

variable {α : Type} [Record α] {Valid : α → Prop} (laws : LawfulRecord α Valid)
include laws

/-! ### Setting several fields -/

theorem valid_setAll {r r' : α} {pairs : List (String × Value)} (hr : Valid r)
    (h : Record.setAll r pairs = .ok r') : Valid r' := by
  induction pairs generalizing r with
  | nil =>
      cases h
      exact hr
  | cons p pairs ih =>
      obtain ⟨s, hset, hrest⟩ := Record.setAll_cons.mp h
      exact ih (laws.valid_set hr hset) hrest

theorem valid_of_madeFrom {r r' : α} (hr : Valid r) (h : Record.MadeFrom r r') : Valid r' :=
  h.elim fun _ => laws.valid_setAll hr

/-- Fields that are not set are left alone. -/
theorem get_setAll_of_notMem {r r' : α} {pairs : List (String × Value)} {g : String}
    (h : Record.setAll r pairs = .ok r') (hg : g ∉ pairs.map (·.1)) :
    Record.get r' g = Record.get r g := by
  induction pairs generalizing r with
  | nil =>
      cases h
      rfl
  | cons p pairs ih =>
      obtain ⟨f, v⟩ := p
      obtain ⟨s, hset, hrest⟩ := Record.setAll_cons.mp h
      rw [List.map_cons, List.mem_cons, not_or] at hg
      rw [ih hrest hg.2, laws.get_set_ne hset hg.1]

/-- A field that is set to a value of a record has this value. -/
theorem get_setAll {r r' record : α} {pairs : List (String × Value)} {f : String} {v : Value}
    (hr : Valid r) (h : Record.setAll r pairs = .ok r') (hnodup : (pairs.map (·.1)).Nodup)
    (hmem : (f, v) ∈ pairs) (hrecord : Valid record) (hget : Record.get record f = .ok v) :
    Record.get r' f = .ok v := by
  induction pairs generalizing r with
  | nil => cases hmem
  | cons p pairs ih =>
      obtain ⟨g, w⟩ := p
      obtain ⟨s, hset, hrest⟩ := Record.setAll_cons.mp h
      obtain ⟨hfresh, hnodup⟩ := List.nodup_cons.mp hnodup
      rcases List.mem_cons.mp hmem with heq | hmem
      · cases heq
        obtain ⟨s', hset', hget'⟩ := laws.set_get hrecord hr hget
        rw [hset] at hset'
        cases hset'
        -- Each field is set once, so the rest leaves this one alone.
        rw [laws.get_setAll_of_notMem hrest hfresh, hget']
      · exact ih (laws.valid_set hr hset) hrest hnodup hmem

/-- The values of a record can be set in every record. -/
theorem exists_setAll {r record : α} {pairs : List (String × Value)} (hr : Valid r)
    (hrecord : Valid record) (h : ∀ p ∈ pairs, Record.get record p.1 = .ok p.2) :
    ∃ r', Record.setAll r pairs = .ok r' := by
  induction pairs generalizing r with
  | nil => exact ⟨r, rfl⟩
  | cons p pairs ih =>
      obtain ⟨hp, hpairs⟩ := List.forall_mem_cons.mp h
      obtain ⟨s, hset, -⟩ := laws.set_get hrecord hr hp
      obtain ⟨r', hr'⟩ := ih (laws.valid_set hr hset) hpairs
      exact ⟨r', Record.setAll_cons.mpr ⟨s, hset, hr'⟩⟩

/-! ### Records of values -/

variable {fields : List String} {values : List Value} {record loaded : α}

/-- A record that is made of values has those that some record has already. -/
theorem get_ofValues (hload : Record.ofValues fields values = .ok loaded) (hnodup : fields.Nodup)
    {f : String} {v : Value} (hmem : (f, v) ∈ fields.zip values) (hrecord : Valid record)
    (hget : Record.get record f = .ok v) : Record.get loaded f = .ok v := by
  unfold Record.ofValues at hload
  split at hload
  · next hlength =>
    refine laws.get_setAll laws.valid_blank hload ?_ hmem hrecord hget
    rwa [List.map_fst_zip (Nat.le_of_eq hlength)]
  · cases hload

/-- The values of a record make a record with the same values. -/
theorem ofValues_toValues (hrecord : Valid record) (hnodup : (Record.type α).fieldNames.Nodup)
    (h : Record.toValues record = .ok values) :
    ∃ copy : α, Record.ofValues (Record.type α).fieldNames values = .ok copy ∧
      ∀ f ∈ (Record.type α).fieldNames, Record.get copy f = Record.get record f := by
  have hlength : (Record.type α).fieldNames.length = values.length := (except_mapM_length h).symm
  obtain ⟨copy, hcopy⟩ := laws.exists_setAll laws.valid_blank hrecord
    fun p hp => Record.get_of_mem_zip h hp
  have hload : Record.ofValues (Record.type α).fieldNames values = .ok copy := by
    unfold Record.ofValues
    rw [if_pos hlength, hcopy]
  refine ⟨copy, hload, fun f hf => ?_⟩
  obtain ⟨v, hmem⟩ := Record.exists_mem_zip h hf
  have hget := Record.get_of_mem_zip h hmem
  rw [hget, laws.get_ofValues hload hnodup hmem hrecord hget]

end LawfulRecord

/-! ### Rows -/

/-- The value of a blank column is one of the column's type. -/
theorem Column.convert_blank (c : Column) : c.convert c.blank = .ok c.blank := by
  obtain ⟨field, scalar, nullable⟩ := c
  cases nullable with
  | true => rfl
  | false => cases scalar <;> rfl

/-- Converting twice is converting once. -/
theorem Column.convert_convert {c : Column} {v w : Value} (h : c.convert v = .ok w) :
    c.convert w = .ok w := by
  obtain ⟨field, scalar, nullable⟩ := c
  cases nullable with
  | false => exact Scalar.convert_convert h
  | true =>
      change scalar.convertNullable v = .ok w at h
      change scalar.convertNullable w = .ok w
      have hconvert : w ≠ .null → scalar.convert v = .ok w := by
        intro hw
        cases v with
        | null =>
            cases h
            exact absurd rfl hw
        | _ => exact h
      cases w with
      | null => rfl
      | _ => exact Scalar.convert_convert (hconvert fun heq => by cases heq)

namespace Row

/-- The values are those of the columns, each of its type. -/
def OfColumns : List Column → List Value → Prop := List.Forall₂ fun c v => c.convert v = .ok v

/-- The row has one value for each column, of its type. -/
def Typed {s : Schema} (row : Row s) : Prop := OfColumns s.columns row.values

variable {unknown : StatementError} {f g : String} {v : Value} {cs : List Column}
  {vs ws vs' : List Value}

/-- Writing goes to the first column of the name. -/
theorem writeColumn_cons_eq_ok {c : Column} {w : Value} :
    writeColumn unknown f v (c :: cs) (w :: vs) = .ok ws ↔
      (c.field.name = f ∧ ∃ u, c.convert v = .ok u ∧ u :: vs = ws) ∨
        (c.field.name ≠ f ∧ ∃ us, writeColumn unknown f v cs vs = .ok us ∧ w :: us = ws) := by
  have heq : writeColumn unknown f v (c :: cs) (w :: vs) =
      if c.field.name = f then (c.convert v).map (· :: vs)
      else (writeColumn unknown f v cs vs).map (w :: ·) := rfl
  rw [heq]
  by_cases hname : c.field.name = f
  · rw [if_pos hname, except_map_eq_ok]
    simp [hname]
  · rw [if_neg hname, except_map_eq_ok]
    simp [hname]

theorem ofColumns_writeColumn (h : OfColumns cs vs)
    (hwrite : writeColumn unknown f v cs vs = .ok ws) : OfColumns cs ws := by
  induction h generalizing ws with
  | nil => cases hwrite
  | @cons c w cs vs hc hrest ih =>
      rcases writeColumn_cons_eq_ok.mp hwrite with ⟨-, u, hu, rfl⟩ | ⟨-, us, hus, rfl⟩
      · exact .cons (Column.convert_convert hu) hrest
      · exact .cons hc (ih hus)

theorem readColumn_writeColumn_ne (hwrite : writeColumn unknown f v cs vs = .ok ws)
    (hne : g ≠ f) : readColumn g cs ws = readColumn g cs vs := by
  induction cs generalizing vs ws with
  | nil => cases hwrite
  | cons c cs ih =>
      cases vs with
      | nil => cases hwrite
      | cons w vs =>
          rcases writeColumn_cons_eq_ok.mp hwrite with ⟨rfl, u, -, rfl⟩ | ⟨-, us, hus, rfl⟩
          · rw [readColumn, readColumn, if_neg hne.symm, if_neg hne.symm]
          · rw [readColumn, readColumn, ih hus]

/-- What typed columns hold can be written into typed columns. -/
theorem writeColumn_readColumn (h : OfColumns cs vs) (h' : OfColumns cs vs')
    (hread : readColumn f cs vs = some v) :
    ∃ ws, writeColumn unknown f v cs vs' = .ok ws ∧ readColumn f cs ws = some v := by
  induction h generalizing vs' with
  | nil => cases hread
  | @cons c w cs vs hc hrest ih =>
      cases h' with
      | @cons _ w' _ vs' _ hrest' =>
          rw [readColumn] at hread
          by_cases hname : c.field.name = f
          · rw [if_pos hname] at hread
            cases hread
            refine ⟨v :: vs', writeColumn_cons_eq_ok.mpr (.inl ⟨hname, v, hc, rfl⟩), ?_⟩
            rw [readColumn, if_pos hname]
          · rw [if_neg hname] at hread
            obtain ⟨us, hus, hread'⟩ := ih hrest' hread
            refine ⟨w' :: us, writeColumn_cons_eq_ok.mpr (.inr ⟨hname, us, hus, rfl⟩), ?_⟩
            rw [readColumn, if_neg hname, hread']

/-- Columns of distinct names hold the same if the same is read from them. -/
theorem eq_of_readColumn (hnodup : (cs.map (·.field.name)).Nodup) (h : OfColumns cs vs)
    (h' : OfColumns cs ws)
    (hread : ∀ c ∈ cs, readColumn c.field.name cs vs = readColumn c.field.name cs ws) :
    vs = ws := by
  induction h generalizing ws with
  | nil =>
      cases h'
      rfl
  | @cons c w cs vs hc hrest ih =>
      cases h' with
      | @cons _ w' _ ws _ hrest' =>
          obtain ⟨hfresh, hnodup⟩ := List.nodup_cons.mp hnodup
          have hhead := hread c List.mem_cons_self
          rw [readColumn, readColumn, if_pos rfl, if_pos rfl] at hhead
          cases hhead
          refine congrArg (w :: ·) (ih hnodup hrest' fun d hd => ?_)
          have hne : c.field.name ≠ d.field.name :=
            fun heq => hfresh (List.mem_map.mpr ⟨d, hd, heq.symm⟩)
          have htail := hread d (List.mem_cons_of_mem _ hd)
          rwa [readColumn, readColumn, if_neg hne, if_neg hne] at htail

variable {s : Schema} {row row' : Row s}

theorem set_eq_ok : row.set f v = .ok row' ↔
    writeColumn (.unknownField s.name f) f v s.columns row.values = .ok row'.values := by
  unfold set
  rw [except_map_eq_ok]
  constructor
  · rintro ⟨ws, hwrite, rfl⟩
    exact hwrite
  · exact fun hwrite => ⟨_, hwrite, rfl⟩

theorem get_eq_ok : row.get f = .ok v ↔ readColumn f s.columns row.values = some v := by
  unfold get
  cases readColumn f s.columns row.values <;> simp

/-- Blank rows are typed. -/
theorem typed_blank : (blank : Row s).Typed :=
  List.forall₂_map_right_iff.mpr (List.forall₂_same.mpr fun c _ => c.convert_blank)

variable (s) in
/-- Typed rows obey the laws of records. -/
theorem lawful : LawfulRecord (Row s) Typed where
  valid_blank := typed_blank
  valid_set hr h := ofColumns_writeColumn hr (set_eq_ok.mp h)
  get_set_ne {r r' f g v} h hne := by
    change r'.get g = r.get g
    unfold get
    rw [readColumn_writeColumn_ne (set_eq_ok.mp h) hne]
  set_get {r t f v} hr ht h := by
    obtain ⟨ws, hwrite, hread⟩ := writeColumn_readColumn hr ht (get_eq_ok.mp h)
    exact ⟨⟨ws⟩, set_eq_ok.mpr hwrite, get_eq_ok.mpr hread⟩

theorem readColumn_eq_of_get (h : row.get f = row'.get f) :
    readColumn f s.columns row.values = readColumn f s.columns row'.values := by
  cases hread : readColumn f s.columns row.values with
  | some v =>
      rw [get_eq_ok.mpr hread] at h
      exact (get_eq_ok.mp h.symm).symm
  | none =>
      cases hread' : readColumn f s.columns row'.values with
      | none => rfl
      | some v =>
          rw [get_eq_ok.mpr hread', get_eq_ok, hread] at h
          cases h

/-- The values of a row of typed columns make the row again. -/
theorem readsBack (hnodup : s.type.fieldNames.Nodup) (h : row.Typed) : Record.ReadsBack row := by
  intro values hvalues
  obtain ⟨copy, hcopy, hget⟩ := (lawful s).ofValues_toValues h hnodup hvalues
  have htyped : copy.Typed := (lawful s).valid_of_madeFrom typed_blank (.of_ofValues hcopy)
  have hnames : s.type.fieldNames = s.columns.map (·.field.name) := List.map_map
  have hsame : copy.values = row.values := by
    refine eq_of_readColumn (hnames ▸ hnodup) htyped h fun c hc => readColumn_eq_of_get ?_
    exact hget _ (hnames ▸ List.mem_map_of_mem hc)
  rw [hcopy, show copy = row from congrArg Row.mk hsame]

end Row

end RecordStore
