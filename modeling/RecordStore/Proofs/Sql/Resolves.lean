import RecordStore.Proofs.Sql.Inversion

/-! # Expressions that resolve without aliases

Outside nested queries no alias is taken: `Resolve.Resolves x b` says that a step of resolving
returns `b` and leaves the free aliases as they are, whichever they are.  The step is closed under
the ways of building expressions (`resolves_binary`, `resolves_logical`, `resolves_inValues`), so
that an expression resolves where its fields do. -/

namespace RecordStore

namespace Resolve

variable {β γ : Type}

/-- The step returns this value and takes no alias. -/
def Resolves (x : Resolve β) (b : β) : Prop := ∀ next, x next = .ok b next

theorem Resolves.pure (b : β) : Resolves (Pure.pure b : Resolve β) b := fun _ => rfl

theorem Resolves.bind {x : Resolve β} {f : β → Resolve γ} {b : β} {c : γ} (hx : Resolves x b)
    (hf : Resolves (f b) c) : Resolves (x >>= f) c := by
  intro next
  rw [bind_of_ok (hx next)]
  exact hf next

theorem Resolves.ofExcept {x : Except StatementError β} {b : β} (h : x = .ok b) :
    Resolves (MonadExcept.ofExcept x) b := by
  rw [h]
  exact .pure b

/-- Steps over a list that all take no alias. -/
theorem Resolves.mapM {f : γ → Resolve β} {cs : List γ} (h : ∀ c ∈ cs, ∃ b, Resolves (f c) b) :
    ∃ bs, Resolves (cs.mapM f) bs := by
  induction cs with
  | nil => exact ⟨[], .pure []⟩
  | cons c cs ih =>
      obtain ⟨b, hb⟩ := h c List.mem_cons_self
      obtain ⟨bs, hbs⟩ := ih fun c' hc' => h c' (List.mem_cons_of_mem c hc')
      refine ⟨b :: bs, ?_⟩
      rw [List.mapM_cons]
      exact .bind hb (.bind hbs (.pure _))

/-! ### Fields -/

section

variable {scopes scopes' : Scopes} {c : ColumnRef}

/-- A field that is read in some scopes is read in all that have a place for its record type. -/
theorem plainColumn_resolves {t : Term} {next next' : Alias} {owner : Scope × Alias}
    (hok : plainColumn scopes c next = .ok t next')
    (howner : Scope.owner? scopes' c.record = some owner) :
    ∃ t', Resolves (plainColumn scopes' c) t' := by
  unfold plainColumn at hok ⊢
  obtain ⟨field, n, hfield, hok⟩ := bind_eq_ok.mp hok
  have hfield := Resolves.ofExcept (ofExcept_eq_ok.mp hfield).1
  rw [howner]
  obtain ⟨name, column, kind⟩ := field
  cases kind with
  | computed definition required =>
      cases definition with
      | some sql => exact ⟨_, .bind hfield (.pure _)⟩
      | none =>
          dsimp only at hok
          split at hok
          · next hmissing =>
              refine ⟨.missing c, .bind hfield ?_⟩
              dsimp only
              rw [if_pos hmissing]
              exact .pure _
          · cases hok
  | stored | generated =>
      dsimp only at hok
      split at hok
      · cases hok
      · next hcomputed =>
          refine ⟨.column c (if owner.1.qualified then some owner.2 else none) column,
            .bind hfield ?_⟩
          dsimp only
          rw [if_neg hcomputed]
          exact .pure _

/-- Where nothing overrides the field it is read as it is. -/
theorem overriddenColumn_eq_plain (dialect : Dialect)
    (h : ∀ scope a, Scope.owner? scopes c.record = some (scope, a) → scope.overrideOf? c = none) :
    overriddenColumn dialect scopes c = plainColumn scopes c := by
  unfold overriddenColumn
  cases hfield : c.record.field c.field with
  | error e =>
      unfold plainColumn
      rw [hfield]
      rfl
  | ok field =>
      cases howner : Scope.owner? scopes c.record with
      | none => rfl
      | some owner =>
          obtain ⟨scope, a⟩ := owner
          dsimp only
          rw [h scope a howner]
          rfl

/-- An overridden field is the overriding expression without overrides. -/
theorem overriddenColumn_eq_override {dialect : Dialect} {scope : Scope} {a : Alias} {body : Expr}
    (howner : Scope.owner? scopes c.record = some (scope, a))
    (hbody : scope.overrideOf? c = some body) :
    overriddenColumn dialect scopes c = (do
      let _ ← ofExcept (c.record.field c.field)
      return .override c a (← exprWith dialect plainColumn scopes body)) := by
  unfold overriddenColumn
  rw [howner]
  dsimp only
  rw [hbody]

/-- What a field is when it is read as it is. -/
inductive Reads (scopes : Scopes) (c : ColumnRef) : Term → Prop where
  | definition {field : Field} {sql : String} {required : Bool}
      (hfield : c.record.field c.field = .ok field)
      (hkind : field.kind = .computed (some sql) required) : Reads scopes c (.definition c sql)
  | missing {field : Field} (hfield : c.record.field c.field = .ok field)
      (hkind : field.kind = .computed none false) (hcomputed : c.record.isComputed = true) :
      Reads scopes c (.missing c)
  | column {field : Field} {scope : Scope} {a : Alias}
      (hfield : c.record.field c.field = .ok field) (hkind : field.isComputed = false)
      (htable : c.record.isComputed = false)
      (howner : Scope.owner? scopes c.record = some (scope, a)) :
      Reads scopes c (.column c (if scope.qualified then some a else none) field.column)

/-- A field that is read as it is takes no alias. -/
theorem plainColumn_eq_ok {t : Term} {first last : Alias}
    (h : plainColumn scopes c first = .ok t last) : Reads scopes c t ∧ last = first := by
  unfold plainColumn at h
  obtain ⟨field, next, hread, h⟩ := bind_eq_ok.mp h
  obtain ⟨hfield, rfl⟩ := ofExcept_eq_ok.mp hread
  cases hkind : field.kind with
  | computed definition required =>
      rw [hkind] at h
      cases definition with
      | some sql =>
          obtain ⟨rfl, rfl⟩ := pure_eq_ok.mp h
          exact ⟨.definition hfield hkind, rfl⟩
      | none =>
          dsimp only at h
          split at h
          · next hmissing =>
              obtain ⟨rfl, rfl⟩ := pure_eq_ok.mp h
              obtain ⟨hrequired, hcomputed⟩ := Bool.and_eq_true_iff.mp hmissing
              rw [Bool.not_eq_true'] at hrequired
              subst hrequired
              exact ⟨.missing hfield hkind hcomputed, rfl⟩
          · exact absurd h fault_ne_ok
  | stored | generated =>
      rw [hkind] at h
      dsimp only at h
      split at h
      · cases h
      · next htable =>
          cases howner : Scope.owner? scopes c.record with
          | some owner =>
              rw [howner] at h
              obtain ⟨rfl, rfl⟩ := pure_eq_ok.mp h
              have hstored : field.isComputed = false := by
                unfold Field.isComputed
                rw [hkind]
              exact ⟨.column hfield hstored (eq_false_of_ne_true htable) howner, rfl⟩
          | none =>
              rw [howner] at h
              exact absurd h throw_ne_ok

/-- A field is the expression that overrides it, or it is read as it is. -/
theorem overriddenColumn_eq_ok {dialect : Dialect} {t : Term} {first last : Alias}
    (h : overriddenColumn dialect scopes c first = .ok t last) :
    (∃ scope a body t', Scope.owner? scopes c.record = some (scope, a) ∧
      scope.overrideOf? c = some body ∧ (∃ field, c.record.field c.field = .ok field) ∧
      exprWith dialect plainColumn scopes body first = .ok t' last ∧ t = .override c a t') ∨
    (∀ scope a, Scope.owner? scopes c.record = some (scope, a) → scope.overrideOf? c = none) ∧
      plainColumn scopes c first = .ok t last := by
  by_cases hplain : ∀ scope a, Scope.owner? scopes c.record = some (scope, a) →
      scope.overrideOf? c = none
  · rw [overriddenColumn_eq_plain dialect hplain] at h
    exact .inr ⟨hplain, h⟩
  · obtain ⟨scope, hscope⟩ := Classical.not_forall.mp hplain
    obtain ⟨a, howned⟩ := Classical.not_forall.mp hscope
    obtain ⟨howner, hsome⟩ := Classical.not_imp.mp howned
    obtain ⟨body, hbody⟩ := Option.ne_none_iff_exists'.mp hsome
    rw [overriddenColumn_eq_override howner hbody] at h
    obtain ⟨field, n, hread, h⟩ := bind_eq_ok.mp h
    obtain ⟨hfield, rfl⟩ := ofExcept_eq_ok.mp hread
    obtain ⟨t', n', ht, h⟩ := bind_eq_ok.mp h
    obtain ⟨rfl, rfl⟩ := pure_eq_ok.mp h
    exact .inl ⟨scope, a, body, t', howner, hbody, ⟨field, hfield⟩, ht, rfl⟩

end

/-! ### Expressions -/

section

variable {dialect : Dialect} {rule : ColumnRule} {scopes : Scopes}

theorem resolves_column {c : ColumnRef} {t : Term} (h : Resolves (rule scopes c) t) :
    Resolves (exprWith dialect rule scopes (.column c)) t := h

theorem resolves_bound (v : Value) :
    Resolves (exprWith dialect rule scopes (.bound v)) (.param (.value v)) := .pure _

theorem resolves_binary {op : BinaryOp} {left right : Expr} {l r : Term}
    (hl : Resolves (exprWith dialect rule scopes left) l)
    (hr : Resolves (exprWith dialect rule scopes right) r) :
    Resolves (exprWith dialect rule scopes (.binary op left right)) (.binary op l r) :=
  Resolves.bind hl (Resolves.bind hr (.pure _))

theorem resolves_exprs {es : List Expr}
    (h : ∀ e ∈ es, ∃ t, Resolves (exprWith dialect rule scopes e) t) :
    ∃ ts, Resolves (exprsWith dialect rule scopes es) ts := by
  induction es with
  | nil => exact ⟨[], .pure []⟩
  | cons e es ih =>
      obtain ⟨t, ht⟩ := h e List.mem_cons_self
      obtain ⟨ts, hts⟩ := ih fun e' he' => h e' (List.mem_cons_of_mem e he')
      exact ⟨t :: ts, .bind ht (.bind hts (.pure _))⟩

theorem resolves_logical {op : LogicalOp} {operands : List Expr} {ts : List Term}
    (h : Resolves (exprsWith dialect rule scopes operands) ts) :
    Resolves (exprWith dialect rule scopes (.logical op operands)) (.logical op ts) :=
  Resolves.bind h (.pure _)

/-- A membership test in a list of values, which is cut into chunks or bound as one array. -/
theorem resolves_inValues {negated : Bool} {operand : Expr} {values : List Value} {t : Term}
    (h : Resolves (exprWith dialect rule scopes operand) t) :
    ∃ t', Resolves (exprWith dialect rule scopes (.inValues negated operand values)) t' := by
  rw [exprWith]
  split
  · exact ⟨_, .pure _⟩
  · split
    · exact ⟨_, .bind h (.pure _)⟩
    · have hchunk (chunk : List Value) :
          Resolves (do return (← exprWith dialect rule scopes operand, chunk)) (t, chunk) :=
        .bind h (.pure _)
      obtain ⟨_, hchunks⟩ := Resolves.mapM
        fun chunk (_ : chunk ∈ chunks dialect.maxInList values) => ⟨_, hchunk chunk⟩
      exact ⟨_, .bind hchunks (.pure _)⟩

end

end Resolve

end RecordStore
