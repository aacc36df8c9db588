import RecordStore.Proofs.Sql.Inversion

/-! # Steps that never miss a record type

`Sound strict first post x` says of a step of resolving that its results are as `post` asks and, in
the strict sense, that it never fails with an unknown record type.  It also says that no alias is
given back, so that what is sound from one alias on is sound after other steps.  The parts of a
statement that have no columns are sound. -/

namespace RecordStore

theorem RecordType.field_ne_unknownRecord (r : RecordType) (field name : String) :
    r.field field ≠ .error (.unknownRecord name) := by
  unfold RecordType.field
  intro h
  split at h <;> cases h

theorem RecordType.tableName_ne_unknownRecord (r : RecordType) (name : String) :
    r.tableName ≠ .error (.unknownRecord name) := by
  unfold RecordType.tableName
  intro h
  split at h <;> cases h

theorem RecordType.table_of_tableName {r : RecordType} {table : String}
    (h : r.tableName = .ok table) : r.table = some table := by
  unfold RecordType.tableName at h
  split at h
  · next htable =>
      cases h
      exact htable
  · cases h

namespace Resolve

variable {β γ : Type}

/-! ### Sound steps -/

/-- From this alias on, a step gives no alias back, returns only what is as asked, and, if strict,
never fails for want of a record type. -/
structure Sound (strict : Prop) (first : Alias) (post : β → Prop) (x : Resolve β) : Prop where
  ok : ∀ {next b next'}, first ≤ next → x next = .ok b next' → next ≤ next' ∧ post b
  error : strict → ∀ {next name next'}, first ≤ next → x next ≠ .error (.unknownRecord name) next'

namespace Sound

variable {strict : Prop} {first : Alias} {post : β → Prop} {post' : γ → Prop}

theorem pure {b : β} (h : post b) : Sound strict first post (Pure.pure b) where
  ok _ heq := by
    obtain ⟨rfl, rfl⟩ := pure_eq_ok.mp heq
    exact ⟨Nat.le_refl _, h⟩
  error _ _ _ _ _ heq := by cases heq

theorem throw {e : StatementError} (h : strict → ∀ name, e ≠ .unknownRecord name) :
    Sound strict first post (MonadExcept.throw e) where
  ok _ heq := by cases heq
  error hstrict _ _ _ _ heq := by
    cases heq
    exact h hstrict _ rfl

theorem fault (f : ClauseFault) : Sound strict first post (Resolve.fault f) :=
  throw fun _ _ h => by cases h

theorem bind {x : Resolve β} {f : β → Resolve γ} (hx : Sound strict first post x)
    (hf : ∀ b, post b → Sound strict first post' (f b)) : Sound strict first post' (x >>= f) where
  ok hnext heq := by
    obtain ⟨b, n, hb, hc⟩ := bind_eq_ok.mp heq
    obtain ⟨hle, hpost⟩ := hx.ok hnext hb
    obtain ⟨hle', hpost'⟩ := (hf b hpost).ok (Nat.le_trans hnext hle) hc
    exact ⟨Nat.le_trans hle hle', hpost'⟩
  error hstrict next name next' hnext heq := by
    cases hb : x next with
    | ok b n =>
        rw [bind_of_ok hb] at heq
        obtain ⟨hle, hpost⟩ := hx.ok hnext hb
        exact (hf b hpost).error hstrict (Nat.le_trans hnext hle) heq
    | error e n =>
        rw [bind_of_error hb] at heq
        cases heq
        exact hx.error hstrict hnext hb

/-- A step that is another step from a later alias on. -/
theorem after {x : Resolve β} (h : ∀ next, first ≤ next →
    ∃ (y : Resolve β) (next' : Alias), next ≤ next' ∧ x next = y next' ∧
      Sound strict next' post y) :
    Sound strict first post x where
  ok hnext heq := by
    obtain ⟨y, next', hle, hxy, hy⟩ := h _ hnext
    obtain ⟨hle', hpost⟩ := hy.ok (Nat.le_refl _) (hxy.symm.trans heq)
    exact ⟨Nat.le_trans hle hle', hpost⟩
  error hstrict _ _ _ hnext heq := by
    obtain ⟨y, next', -, hxy, hy⟩ := h _ hnext
    exact hy.error hstrict (Nat.le_refl _) (hxy.symm.trans heq)

theorem mono {post' : β → Prop} {x : Resolve β} (h : Sound strict first post x)
    (himp : ∀ b, post b → post' b) : Sound strict first post' x where
  ok hnext heq := ⟨(h.ok hnext heq).1, himp _ (h.ok hnext heq).2⟩
  error hstrict := h.error hstrict

/-- A step after a fault is not reached. -/
theorem fault_bind (f : ClauseFault) {g : β → Resolve γ} :
    Sound strict first post' (Resolve.fault f >>= g) where
  ok _ heq := by cases heq
  error _ _ _ _ _ heq := by cases heq

theorem ofExcept {x : Except StatementError β}
    (h : strict → ∀ name, x ≠ .error (.unknownRecord name)) :
    Sound strict first (fun b => x = .ok b) (MonadExcept.ofExcept x) where
  ok _ heq := by
    obtain ⟨hx, rfl⟩ := ofExcept_eq_ok.mp heq
    exact ⟨Nat.le_refl _, hx⟩
  error hstrict _ name _ _ heq := by
    cases x with
    | ok b => cases heq
    | error e =>
        cases heq
        exact h hstrict name rfl

theorem mapM {f : γ → Resolve β} {cs : List γ} (h : ∀ c ∈ cs, Sound strict first post (f c)) :
    Sound strict first (fun bs => ∀ b ∈ bs, post b) (cs.mapM f) := by
  induction cs with
  | nil => exact .pure fun _ hb => by cases hb
  | cons c cs ih =>
      rw [List.mapM_cons]
      refine .bind (h c List.mem_cons_self) fun b hb => ?_
      refine .bind (ih fun c' hc' => h c' (List.mem_cons_of_mem c hc')) fun bs hbs => .pure ?_
      exact List.forall_mem_cons.mpr ⟨hb, hbs⟩

end Sound

/-! ### Parts without columns -/

section

variable {strict : Prop} {first : Alias}

theorem limitNumber_sound (part : LimitPart) (n : Nat) :
    Sound strict first (fun _ => True) (limitNumber part n) := by
  unfold limitNumber
  split
  · exact .pure trivial
  · exact .fault _

theorem window_sound (l : Limit) : Sound strict first (fun _ => True) (window l) := by
  unfold window
  refine .bind (limitNumber_sound _ _) fun count _ => ?_
  split
  · exact .bind (limitNumber_sound _ _) fun offset _ => .pure trivial
  · exact .pure trivial

theorem optionally_sound {post : γ → Prop} {f : β → Resolve γ}
    (h : ∀ b, Sound strict first post (f b)) :
    ∀ b? : Option β, Sound strict first (fun c? => ∀ c ∈ c?, post c) (optionally f b?)
  | none => .pure fun _ hc => by cases hc
  | some b => .bind (h b) fun c hc => .pure fun c' hc' => by
      cases hc'
      exact hc

theorem interval_sound (dialect : Dialect) (amount : Int64) (unit : CalendarUnit) :
    Sound strict first (· = Term.interval amount unit) (interval dialect amount unit) := by
  have hseconds : Sound strict first (· = Term.interval amount unit) (do
      if amount.toInt * unit.seconds < -0x8000_0000_0000_0000 ∨
          0x8000_0000_0000_0000 ≤ amount.toInt * unit.seconds then
        fault (.intervalOutOfRange amount unit)
      return .interval amount unit) := by
    dsimp only
    split
    · exact .fault_bind _
    · exact .pure rfl
  cases dialect with
  | postgres | mysql => exact .pure rfl
  | generic | sqlite => exact hseconds

theorem literal_sound (dialect : Dialect) (v : Value) :
    Sound strict first (fun t => ∃ l, t = .literal l) (literal dialect v) := by
  unfold literal
  split
  · exact .pure ⟨_, rfl⟩
  · exact .throw fun _ _ h => by cases h

end

end Resolve

end RecordStore
