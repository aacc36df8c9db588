import RecordStore.Proofs.Writing.Evicted
import RecordStore.Proofs.Writing.KeyForms

/-! # Conditions on keys

A write sends a condition to the database and evicts keys from the cache.  To compare the two,
conditions are evaluated on the rows of a record type (`Expr.holds?`).  Building a connective takes
operands of the same connective apart, which changes nothing about its truth
(`Expr.holds?_connect`).  So a key condition holds for the rows with the key
(`RecordType.holds?_keyCondition`), the condition of a target for the rows with one of its keys
(`Target.holds?_condition`), and the update of a record is the update under the key of the record
(`Update.ofRecord_filter`). -/

namespace RecordStore

/-! ### Truth of conditions -/

/-- What holds of no operands. -/
def LogicalOp.neutral : LogicalOp → Bool
  | and => true
  | or => false

/-- What holds of two operands. -/
def LogicalOp.combine : LogicalOp → Bool → Bool → Bool
  | and => Bool.and
  | or => Bool.or

theorem LogicalOp.neutral_combine (op : LogicalOp) (b : Bool) : op.combine op.neutral b = b := by
  cases op <;> cases b <;> rfl

theorem LogicalOp.combine_neutral (op : LogicalOp) (b : Bool) : op.combine b op.neutral = b := by
  cases op <;> cases b <;> rfl

theorem LogicalOp.combine_assoc (op : LogicalOp) (a b c : Bool) :
    op.combine (op.combine a b) c = op.combine a (op.combine b c) := by
  cases op <;> cases a <;> rfl

namespace Expr

section

variable (r : RecordType) (row : String → Value)

/-- The value of a field of the row, or of a value in the statement. -/
def value? : Expr → Option Value
  | column c => if c.record = r then some (row c.field) else none
  | literal v | bound v | fieldValue _ v => some v
  | _ => none

mutual

/-- Whether a condition holds for a row of the record type, which is given by the values of its
fields.  Values are equal or not; conditions of other kinds than equality, membership and
connectives have no truth here. -/
def holds? : Expr → Option Bool
  | binary .eq left right => do return (← left.value? r row) = (← right.value? r row)
  | inValues negated operand values => do
    return decide ((← operand.value? r row) ∈ values) != negated
  | logical op operands => holdTogether op operands
  | not operand => operand.holds?.map (!·)
  | _ => none

/-- Whether operands hold under a connective. -/
def holdTogether (op : LogicalOp) : List Expr → Option Bool
  | [] => some op.neutral
  | e :: es => do return op.combine (← e.holds?) (← holdTogether op es)

end

variable {r row} {op : LogicalOp}

theorem holdTogether_append (es fs : List Expr) :
    holdTogether r row op (es ++ fs) =
      (do return op.combine (← holdTogether r row op es) (← holdTogether r row op fs)) := by
  induction es with
  | nil =>
      rw [List.nil_append, holdTogether]
      cases holdTogether r row op fs with
      | none => rfl
      | some b => exact congrArg some (op.neutral_combine b).symm
  | cons e es ih =>
      rw [List.cons_append, holdTogether, holdTogether, ih]
      cases e.holds? r row with
      | none => rfl
      | some a =>
          cases holdTogether r row op es with
          | none => rfl
          | some b =>
              cases holdTogether r row op fs with
              | none => rfl
              | some c => exact congrArg some (op.combine_assoc a b c).symm

theorem holdTogether_singleton (e : Expr) : holdTogether r row op [e] = e.holds? r row := by
  rw [holdTogether, holdTogether]
  cases e.holds? r row with
  | none => rfl
  | some b => exact congrArg some (op.combine_neutral b)

/-- An expression and the operands that it contributes hold for the same rows. -/
theorem holdTogether_operandsOf (e : Expr) :
    holdTogether r row op (operandsOf op e) = e.holds? r row := by
  cases e with
  | logical inner operands =>
      change holdTogether r row op
        (if inner = op then operands else [logical inner operands]) = _
      by_cases hop : inner = op
      · rw [if_pos hop, ← hop, holds?]
      · rw [if_neg hop, holdTogether_singleton]
  | _ => exact holdTogether_singleton _

/-- Taking operands of the same connective apart changes no truth. -/
theorem holds?_connect (es : List Expr) :
    (connect op es).holds? r row = holdTogether r row op es := by
  unfold connect
  rw [holds?]
  induction es with
  | nil => rfl
  | cons e es ih =>
      rw [List.flatMap_cons, holdTogether_append, holdTogether_operandsOf, ih, holdTogether]

section

variable {α : Type} {f : α → Expr} {p : α → Bool} {xs : List α}

theorem holds?_all (h : ∀ x ∈ xs, (f x).holds? r row = some (p x)) :
    (all (xs.map f)).holds? r row = some (xs.all p) := by
  unfold all
  rw [holds?_connect]
  induction xs with
  | nil => rfl
  | cons x xs ih =>
      obtain ⟨hx, hxs⟩ := List.forall_mem_cons.mp h
      rw [List.map_cons, holdTogether, hx, ih hxs]
      rfl

theorem holds?_any (h : ∀ x ∈ xs, (f x).holds? r row = some (p x)) :
    (any (xs.map f)).holds? r row = some (xs.any p) := by
  unfold any
  rw [holds?_connect]
  induction xs with
  | nil => rfl
  | cons x xs ih =>
      obtain ⟨hx, hxs⟩ := List.forall_mem_cons.mp h
      rw [List.map_cons, holdTogether, hx, ih hxs]
      rfl

end

theorem holds?_eqBound (field : String) (v : Value) :
    ((col r field).eqBound v).holds? r row = some (decide (row field = v)) := by
  unfold eqBound col
  rw [holds?, value?, value?, if_pos rfl]
  rfl

theorem holds?_inValues (field : String) (values : List Value) :
    (inValues false (col r field) values).holds? r row = some (decide (row field ∈ values)) := by
  unfold col
  rw [holds?, value?, if_pos rfl]
  exact congrArg some (Bool.bne_false _)

end

end Expr

/-! ### The conditions of a write -/

variable {r : RecordType} {row : String → Value}

/-- A row has some values in some fields if it has each value in its field. -/
theorem forall_zip_iff_map_eq {fields : List String} {values : List Value}
    (hwidth : values.length = fields.length) :
    (∀ p ∈ fields.zip values, row p.1 = p.2) ↔ fields.map row = values := by
  induction fields generalizing values with
  | nil =>
      obtain rfl := List.length_eq_zero_iff.mp hwidth
      simp
  | cons field fields ih =>
      cases values with
      | nil => cases hwidth
      | cons v values =>
          have hrest : (∀ p ∈ fields.zip values, row p.1 = p.2) ↔ fields.map row = values :=
            ih (Nat.succ.inj hwidth)
          rw [List.zip_cons_cons, List.forall_mem_cons, hrest, List.map_cons, List.cons.injEq]

/-- A key condition holds for the rows with the key. -/
theorem RecordType.holds?_keyCondition {values : List Value}
    (hwidth : values.length = r.primaryKey.length) :
    (r.keyCondition values).holds? r row = some (decide (r.primaryKey.map row = values)) := by
  have heach : ∀ p ∈ r.primaryKey.zip values,
      ((Expr.col r p.1).eqBound p.2).holds? r row = some (decide (row p.1 = p.2)) :=
    fun p _ => Expr.holds?_eqBound p.1 p.2
  have hall := Expr.holds?_all heach
  refine hall.trans (congrArg some ?_)
  rw [Bool.eq_iff_iff, List.all_eq_true, decide_eq_true_eq, ← forall_zip_iff_map_eq hwidth]
  simp only [decide_eq_true_eq]

theorem Key.holds?_condition (k : Key r) :
    k.condition.holds? r row = some (decide (r.primaryKey.map row = k.values)) :=
  RecordType.holds?_keyCondition k.width

/-- However the condition of a set of keys is written, it holds for the rows with one of them. -/
theorem KeySet.holds?_rowCondition (s : KeySet r) :
    s.rowCondition.holds? r row = some (decide (r.primaryKey.map row ∈ s.tuples)) := by
  cases s with
  | empty => rfl
  | single width values =>
      obtain ⟨field, hfield⟩ := List.length_eq_one_iff.mp width
      have hfirst : r.primaryKey[0] = field := by simp only [hfield, List.getElem_cons_zero]
      have hrow : r.primaryKey.map row = [row field] := by rw [hfield, List.map_singleton]
      refine (Expr.holds?_inValues _ values).trans (congrArg some (decide_eq_decide.mpr ?_))
      rw [hfirst, hrow]
      exact (List.mem_map_of_injective List.singleton_injective).symm
  | multi _ tuples _ _ widths =>
      have heach : ∀ tuple ∈ tuples, (r.keyCondition tuple).holds? r row =
          some (decide (r.primaryKey.map row = tuple)) :=
        fun tuple htuple => RecordType.holds?_keyCondition (widths tuple htuple)
      refine (Expr.holds?_any heach).trans (congrArg some ?_)
      rw [Bool.eq_iff_iff, List.any_eq_true, decide_eq_true_eq]
      simp only [decide_eq_true_eq, exists_eq_right', KeySet.tuples]

/-- The condition of a target holds for the rows with one of its keys. -/
theorem Target.holds?_condition (target : Target) (h : target.record.hasKey = true) :
    ∃ e, target.condition = .ok e ∧ ∀ row, e.holds? target.record row =
      some (decide (target.record.primaryKey.map row ∈ target.tuples)) := by
  cases target with
  | key r k =>
      refine ⟨k.condition, rfl, fun row => ?_⟩
      refine k.holds?_condition.trans (congrArg some (decide_eq_decide.mpr ?_))
      exact List.mem_singleton.symm
  | keys r s =>
      have hkey : r.requireKey = .ok () := if_pos h
      refine ⟨s.rowCondition, ?_, fun row => s.holds?_rowCondition⟩
      change r.requireKey >>= _ = _
      rw [hkey]
      rfl

section

variable {α : Type} [Record α] {record : α}

theorem RecordType.name_of_field {name : String} {field : Field} (h : r.field name = .ok field) :
    field.name = name := by
  unfold RecordType.field at h
  split at h
  · next hfind =>
    cases h
    exact beq_iff_eq.mp (List.find?_some hfind :)
  · cases h

/-- The conditions on the key fields of a record are those of the key's values. -/
theorem Record.mapM_keyCondition {fields : List Field} {names : List String} {values : List Value}
    {conditions : List Expr} (hfields : names.mapM (Record.type α).field = .ok fields)
    (hvalues : Record.getAll record names = .ok values)
    (hconditions : fields.mapM (Record.keyCondition record) = .ok conditions) :
    conditions = (names.zip values).map fun p => (Expr.col (Record.type α) p.1).eqBound p.2 := by
  induction names generalizing fields values conditions with
  | nil =>
      cases hfields
      cases hconditions
      rfl
  | cons name names ih =>
      obtain ⟨field, fields', hfield, hfields', rfl⟩ := except_mapM_cons_eq_ok.mp hfields
      obtain ⟨v, values', hv, hvalues', rfl⟩ := except_mapM_cons_eq_ok.mp hvalues
      obtain ⟨e, conditions', he, hconditions', rfl⟩ := except_mapM_cons_eq_ok.mp hconditions
      have hname : field.name = name := RecordType.name_of_field hfield
      obtain ⟨w, hw, he⟩ := except_bind_eq_ok.mp he
      rw [hname, hv] at hw
      cases hw
      cases he
      rw [ih hfields' hvalues' hconditions', hname]
      rfl

/-- The update of a record is the update under the key of the record. -/
theorem Update.ofRecord_filter {key : Key (Record.type α)} {update : Update}
    (hkey : Record.key record = .ok (some key)) (h : Update.ofRecord record = .ok update) :
    update.filter = some key.condition := by
  have hvalues := Record.keyValues_of_key hkey
  obtain ⟨_, -, hvalues⟩ := except_bind_eq_ok.mp hvalues
  have hvalues := lift_eq_ok.mp hvalues
  unfold Update.ofRecord at h
  dsimp only at h
  rw [if_neg (by rw [key.hasKey]; decide)] at h
  obtain ⟨assignments, -, h⟩ := except_bind_eq_ok.mp h
  obtain ⟨fields, hfields, h⟩ := except_bind_eq_ok.mp h
  obtain ⟨conditions, hconditions, h⟩ := except_bind_eq_ok.mp h
  cases h
  have hsame := Record.mapM_keyCondition hfields hvalues hconditions
  rw [hsame]
  rfl

end

/-! ### What a write selects and what it evicts -/

/-- Of the entries for rows of the record type, those are gone from the second cache whose row meets
the condition, and the others are as in the first. -/
def Expr.Clears (e : Expr) (r : RecordType) (c c' : MemoryCache) : Prop :=
  ∀ row : String → Value, c'.entryAt? (.ofRow r (r.primaryKey.map row)) =
    if e.holds? r row = some true then none else c.entryAt? (.ofRow r (r.primaryKey.map row))

/-- A condition for the rows with some keys clears the rows that a directive for the keys evicts. -/
theorem Target.clears (target : Target) {e : Expr}
    (h : ∀ row, e.holds? target.record row =
      some (decide (target.record.primaryKey.map row ∈ target.tuples))) (c : MemoryCache) :
    e.Clears target.record c ((Directive.rows target).apply c).2 := by
  intro row
  rw [entryAt?_apply (beq_self_eq_true _), h row]
  simp only [Option.some.injEq, decide_eq_true_eq]

namespace Modifier

variable {σ α : Type} [Record α]

/-- An update of a record that asks the connection anything has a key and a compiled statement. -/
theorem updateRecord_prepared {conn : Connection σ} {st : WriteState σ} {record : α}
    (h : updateRecord.exchanges conn st record ≠ []) :
    ∃ key update compiled, Record.key record = .ok (some key) ∧
      Update.ofRecord record = .ok update ∧
      compile conn.dialect (.update update) = .ok compiled ∧
      updateRecord.prepare conn.dialect record = .ok compiled := by
  cases hprepare : updateRecord.prepare conn.dialect record with
  | error e => exact absurd (exchanges_of_refused hprepare) h
  | ok compiled =>
      have hstages := hprepare
      obtain ⟨s, hstatement, hcompile⟩ := except_bind_eq_ok.mp hstages
      obtain ⟨key?, hkey, hstatement⟩ := except_bind_eq_ok.mp hstatement
      cases key? with
      | none => cases hstatement
      | some key =>
          obtain ⟨update, hupdate, hstatement⟩ := except_bind_eq_ok.mp hstatement
          cases hstatement
          exact ⟨key, update, compiled, hkey, lift_eq_ok.mp hupdate, lift_eq_ok.mp hcompile, rfl⟩

end Modifier

/-- The condition of a target holds for exactly the rows whose keys its directive evicts.  Likewise,
if the update of a record comes to its statement, then the condition of the statement holds for
exactly the rows with the key of the record, and this key is evicted once the statement succeeds. -/
theorem conditions_select_evicted :
    (∀ target : Target, target.record.hasKey = true → ∃ e, target.condition = .ok e ∧
      (∀ row : String → Value, e.holds? target.record row =
        some (decide (target.record.primaryKey.map row ∈ target.tuples))) ∧
      ∀ c : MemoryCache, e.Clears target.record c ((Directive.rows target).apply c).2) ∧
    ∀ {σ α : Type} [Record α] (conn : Connection σ) (st : WriteState σ) (record : α),
      Modifier.updateRecord.exchanges conn st record ≠ [] →
      ∃ key update e compiled, Record.key record = .ok (some key) ∧
        Update.ofRecord record = .ok update ∧ update.filter = some e ∧
        compile conn.dialect (.update update) = .ok compiled ∧
        (∀ row : String → Value, e.holds? (Record.type α) row =
          some (decide ((Record.type α).primaryKey.map row = key.values))) ∧
        ∀ n db c, conn.execute compiled st.connection = (.ok n, db) → st.cache = some c →
          ∃ c', (finalState (Modifier.updateRecord.perform conn (st, record))).1.cache = some c' ∧
            c' = ((Directive.rows (.key _ key)).apply c).2 ∧ e.Clears (Record.type α) c c' := by
  constructor
  · intro target hkey
    obtain ⟨e, he, hholds⟩ := target.holds?_condition hkey
    exact ⟨e, he, hholds, target.clears hholds⟩
  · intro σ α _ conn st record hasked
    obtain ⟨key, update, compiled, hkey, hupdate, hcompile, hprepare⟩ :=
      Modifier.updateRecord_prepared hasked
    have hfilter := Update.ofRecord_filter hkey hupdate
    refine ⟨key, update, key.condition, compiled, hkey, hupdate, hfilter, hcompile,
      fun row => key.holds?_condition, ?_⟩
    intro n db c hexecute hcache
    have hguard : Modifier.updateRecord.guard? record = some (.rows (.key _ key)) := by
      unfold Modifier.guard?
      rw [hkey]
    have hevicted := Modifier.cache_of_executed st hguard hprepare hexecute
    rw [hcache] at hevicted
    refine ⟨_, hevicted, rfl, ?_⟩
    apply Target.clears (.key _ key)
    intro row
    refine key.holds?_condition.trans (congrArg some (decide_eq_decide.mpr ?_))
    exact List.mem_singleton.symm

namespace Sample

/-- The values of the fields of an item. -/
def itemRow (id : Int64) (name : String) (field : String) : Value :=
  if field = "id" then .integer id else .text name

/-- The condition of two keys holds for the second item and not for the third, and the update of the
first item selects it and evicts it. -/
theorem item_conditions_select :
    (∃ e, (Target.keys _ (.ofKeys [itemKey 1, itemKey 2])).condition = .ok e ∧
      e.holds? schema.type (itemRow 2 "two") = some true ∧
      e.holds? schema.type (itemRow 3 "three") = some false) ∧
    ∃ e compiled, compile .sqlite (.update ⟨schema.type,
        [⟨"name", .fieldValue "name" (.text "two")⟩], some e⟩) = .ok compiled ∧
      e.holds? schema.type (itemRow 1 "one") = some true ∧
      ∃ c', (finalState (Modifier.updateRecord.perform (database [])
          (⟨(), some cachedItems, {}⟩, item 1 "two"))).1.cache = some c' ∧
        c'.entryAt? (.ofRow schema.type [.integer 1]) = none := by
  obtain ⟨htargets, hupdates⟩ := conditions_select_evicted
  constructor
  · obtain ⟨e, he, hholds, -⟩ := htargets (.keys _ (.ofKeys [itemKey 1, itemKey 2])) rfl
    refine ⟨e, he, (hholds _).trans ?_, (hholds _).trans ?_⟩
    · decide +kernel
    · decide +kernel
  · have hexecute (s : CompiledStatement) : (database []).execute s () = (.ok 1, ()) := rfl
    have hprepare : Modifier.updateRecord.prepare (database []).dialect (item 1 "two") = .ok
        ⟨"UPDATE \"items\" SET \"item_name\" = ? WHERE \"item_id\" = ?",
          [.field "name" (.text "two"), .value (.integer 1)]⟩ := rfl
    have hasked : Modifier.updateRecord.exchanges (database []) ⟨(), some cachedItems, {}⟩
        (item 1 "two") ≠ [] :=
      List.ne_nil_of_mem (Modifier.mem_exchanges_of_executed hprepare (hexecute _))
    obtain ⟨key, update, e, compiled, hkey, hupdate, hfilter, hcompile, hholds, hevicted⟩ :=
      hupdates (database []) ⟨(), some cachedItems, {}⟩ (item 1 "two") hasked
    obtain ⟨c', hc', -, hclears⟩ := hevicted 1 () cachedItems (hexecute _) rfl
    obtain rfl : itemKey 1 = key := Option.some.inj (Except.ok.inj hkey)
    obtain rfl : ⟨schema.type, [⟨"name", .fieldValue "name" (.text "two")⟩],
      some (itemKey 1).condition⟩ = update := Except.ok.inj hupdate
    obtain rfl : (itemKey 1).condition = e := Option.some.inj hfilter
    have htrue : (itemKey 1).condition.holds? schema.type (itemRow 1 "one") = some true :=
      (hholds _).trans (by decide +kernel)
    refine ⟨_, compiled, hcompile, htrue, c', hc', ?_⟩
    exact (hclears (itemRow 1 "one")).trans (if_pos htrue)

end Sample

end RecordStore
