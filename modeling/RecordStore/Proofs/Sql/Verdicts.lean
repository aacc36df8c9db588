import RecordStore.Proofs.Sql.Erasing
import RecordStore.Proofs.Sql.FromClause
import RecordStore.Proofs.Sql.Relabelling

/-! # Validity does not depend on data

Whether a statement compiles, and the error if it does not, depends on its data in one way only: a
test against an empty list is decided without a look at its operand, so an empty list hides the
errors of the operand.  Statements that differ in their data and have the same lists empty compile
both or fail with the same error, and if a statement without empty lists compiles, so does every
other with its shape (`compile_data`).

A statement is compared with what remains of it without its data.  A long list resolves its operand
several times and takes more aliases than a short one, so the two are compared from whatever alias
is free (`Resolve.Follows`). -/

namespace RecordStore

namespace Resolve

variable {β β' γ γ' : Type} {strict : Prop}

/-! ### One step after another -/

/-- If the first step succeeds, the second one does, whatever aliases are free; and in the strict
sense it fails with the same error if the first one fails. -/
structure Follows (strict : Prop) (x : Resolve β) (y : Resolve γ) : Prop where
  succeeds : ∀ {next b n}, x next = .ok b n → ∀ next', ∃ c n', y next' = .ok c n'
  fails : strict → ∀ {next e n}, x next = .error e n → ∀ next', ∃ n', y next' = .error e n'

namespace Follows

variable {x : Resolve β} {y : Resolve γ} {f : β → Resolve β'} {g : γ → Resolve γ'}

theorem pure {b : β} {c : γ} : Follows strict (Pure.pure b) (Pure.pure c) where
  succeeds _ next' := ⟨c, next', rfl⟩
  fails _ _ _ _ h := by cases h

/-- Two steps that fail at once with the same error. -/
theorem of_error {e : StatementError} (hx : ∀ next, x next = .error e next)
    (hy : ∀ next, y next = .error e next) : Follows strict x y where
  succeeds {next b n} h := by
    rw [hx] at h
    cases h
  fails _ {next e' n} h next' := by
    rw [hx] at h
    cases h
    exact ⟨next', hy next'⟩

theorem throw {e : StatementError} :
    Follows strict (MonadExcept.throw e : Resolve β) (MonadExcept.throw e : Resolve γ) :=
  of_error (fun _ => rfl) fun _ => rfl

theorem fault {f : ClauseFault} :
    Follows strict (Resolve.fault f : Resolve β) (Resolve.fault f : Resolve γ) := throw

/-- What is known of the results of the first two steps can be used for the next two. -/
theorem bind_of {p : β → Prop} {q : γ → Prop} (hx : Follows strict x y)
    (hp : ∀ {next b n}, x next = .ok b n → p b) (hq : ∀ {next c n}, y next = .ok c n → q c)
    (hf : ∀ b c, p b → q c → Follows strict (f b) (g c)) :
    Follows strict (x >>= f) (y >>= g) where
  succeeds h next' := by
    obtain ⟨b, m, hb, hrest⟩ := bind_eq_ok.mp h
    obtain ⟨c, m', hc⟩ := hx.succeeds hb next'
    rw [bind_of_ok hc]
    exact (hf b c (hp hb) (hq hc)).succeeds hrest m'
  fails hstrict next e n h next' := by
    cases hb : x next with
    | error e' m =>
        rw [bind_of_error hb] at h
        cases h
        obtain ⟨m', hc⟩ := hx.fails hstrict hb next'
        exact ⟨m', bind_of_error hc⟩
    | ok b m =>
        rw [bind_of_ok hb] at h
        obtain ⟨c, m', hc⟩ := hx.succeeds hb next'
        rw [bind_of_ok hc]
        exact (hf b c (hp hb) (hq hc)).fails hstrict h m'

theorem bind (hx : Follows strict x y) (hf : ∀ b c, Follows strict (f b) (g c)) :
    Follows strict (x >>= f) (y >>= g) :=
  hx.bind_of (p := fun _ => True) (q := fun _ => True) (fun _ => trivial) (fun _ => trivial)
    fun b c _ _ => hf b c

/-- What would follow a fault does not matter. -/
theorem fault_bind {e : ClauseFault} : Follows strict (Resolve.fault e >>= f)
    (Resolve.fault e >>= g) := of_error (fun _ => rfl) fun _ => rfl

/-- What was computed beforehand is the same on both sides. -/
theorem ofExcept_bind (x : Except StatementError β) {f : β → Resolve β'} {g : β → Resolve γ'}
    (h : ∀ b, Follows strict (f b) (g b)) :
    Follows strict (MonadExcept.ofExcept x >>= f) (MonadExcept.ofExcept x >>= g) := by
  cases x with
  | ok b => exact h b
  | error e => exact of_error (fun _ => rfl) fun _ => rfl

theorem ofExcept (x : Except StatementError β) :
    Follows strict (MonadExcept.ofExcept x : Resolve β) (MonadExcept.ofExcept x : Resolve β) := by
  cases x with
  | ok b => exact .pure (b := b) (c := b)
  | error e => exact of_error (fun _ => rfl) fun _ => rfl

theorem mapM {α : Type} {f : α → Resolve β} {g : α → Resolve γ} {as : List α}
    (h : ∀ a ∈ as, Follows strict (f a) (g a)) : Follows strict (as.mapM f) (as.mapM g) := by
  induction as with
  | nil => exact .pure
  | cons a as ih =>
      rw [List.mapM_cons, List.mapM_cons]
      refine (h a List.mem_cons_self).bind fun b c => ?_
      exact (ih fun a' ha' => h a' (List.mem_cons_of_mem a ha')).bind fun bs cs => .pure

/-- A step that follows another still does if both are repeated, not necessarily as often. -/
theorem mapM_repeated {α α' : Type} {f : α → Resolve β} {g : α' → Resolve γ} {as : List α}
    {as' : List α'} (h : ∀ a a', Follows strict (f a) (g a')) (has : as ≠ []) (has' : as' ≠ []) :
    Follows strict (as.mapM f) (as'.mapM g) where
  succeeds hx next' := by
    obtain ⟨a, rest, rfl⟩ := List.exists_cons_of_ne_nil has
    obtain ⟨b, -, m, hb, -⟩ := mapM_cons_eq_ok.mp hx
    have hagain : ∀ a' ∈ as', ∀ next, ∃ c n, g a' next = .ok c n ∧ True := by
      intro a' _ next
      obtain ⟨c, n, hc⟩ := (h a a').succeeds hb next
      exact ⟨c, n, hc, trivial⟩
    obtain ⟨cs, n', hcs, -⟩ := exists_mapM_eq_ok hagain next'
    exact ⟨cs, n', hcs⟩
  fails hstrict _ _ _ hx next' := by
    obtain ⟨a, -, m, m', ha⟩ := exists_of_mapM_eq_error hx
    obtain ⟨a', rest, rfl⟩ := List.exists_cons_of_ne_nil has'
    obtain ⟨n', ha'⟩ := (h a a').fails hstrict ha next'
    refine ⟨n', ?_⟩
    rw [List.mapM_cons, bind_of_error ha']

theorem optionally {α : Type} {f : α → Resolve β} {g : α → Resolve γ}
    (h : ∀ a, Follows strict (f a) (g a)) : ∀ a? : Option α,
    Follows strict (Resolve.optionally f a?) (Resolve.optionally g a?)
  | none => .pure
  | some a => (h a).bind fun _ _ => .pure

theorem getD {x? : Option (Resolve β)} {y? : Option (Resolve γ)}
    (h? : Option.Rel (Follows strict) x? y?) (h : Follows strict x y) :
    Follows strict (x?.getD x) (y?.getD y) := by
  cases h? with
  | none => exact h
  | some h => exact h

end Follows

/-! ### Single parts -/

theorem limitNumber_follows (part : LimitPart) (n : Nat) :
    Follows strict (limitNumber part n) (limitNumber part n) := by
  unfold limitNumber
  split
  · exact .pure
  · exact .fault

theorem window_follows (l : Limit) : Follows strict (window l) (window l) := by
  unfold window
  refine (limitNumber_follows _ _).bind fun count count' => ?_
  split
  · exact (limitNumber_follows _ _).bind fun _ _ => .pure
  · exact .pure

theorem interval_follows (dialect : Dialect) (amount : Int64) (unit : CalendarUnit) :
    Follows strict (interval dialect amount unit) (interval dialect amount unit) := by
  unfold interval
  cases dialect with
  | postgres | mysql => exact .pure
  | generic | sqlite =>
      dsimp only
      split
      · exact .fault_bind
      · exact .pure

theorem literal_follows (dialect : Dialect) (v : Value) :
    Follows strict (literal dialect v) (literal dialect v) := by
  unfold literal
  split
  · exact .pure
  · exact .throw

theorem allocate_follows (records : List RecordType) :
    Follows strict (allocate records) (allocate records) where
  succeeds _ _ := ⟨_, _, rfl⟩
  fails _ _ _ _ h := by cases h

theorem changeScope_follows (record : RecordType) (qualified : Bool) :
    Follows strict (changeScope record qualified) (changeScope record qualified) where
  succeeds _ _ := ⟨_, _, rfl⟩
  fails _ _ _ _ h := by cases h

/-- Aliases are given to all record types in order. -/
theorem allocate_records {records : List RecordType} {entries : List (RecordType × Alias)}
    {next n : Alias} (h : allocate records next = .ok entries n) :
    entries.map (·.1) = records := by
  cases h
  exact List.map_fst_zip (Nat.le_of_eq List.length_range'.symm)

/-- The scope of a change lists the type of the changed records only. -/
theorem changeScope_scope {record : RecordType} {qualified : Bool} {o : Scope × Alias}
    {next n : Alias} (h : changeScope record qualified next = .ok o n) :
    ∃ a, o.1 = ⟨[(record, a)], record, [], qualified⟩ := by
  cases h
  exact ⟨next, rfl⟩

end Resolve

/-! ### Places without data -/

/-- Lists are put in the place of lists: an empty one only where the list was empty, and in the
strict sense wherever it was. -/
structure Fills (strict : Prop) (lists : List Value → List Value) : Prop where
  eq_nil_of_eq_nil : ∀ {values}, lists values = [] → values = []
  nil_eq_nil : strict → lists [] = []

namespace Scope

variable {lists : List Value → List Value}

/-- The first place is the second one without data. -/
abbrev AllErased (lists : List Value → List Value) : Scopes → Scopes → Prop :=
  AllRelabelled (Expr.eraseFields lists)

/-- The same field is overridden, by an expression without its data. -/
theorem overrideOf_erased {s s' : Scope} (h : Relabelled (Expr.eraseFields lists) s s')
    (c : ColumnRef) : s.overrideOf? c = (s'.overrideOf? c).map (·.erase lists) := by
  unfold overrideOf?
  rw [h.selected, h.overridden, Expr.eraseFields_eq_map, List.find?_map]
  split
  · rw [Option.map_map, Option.map_map]
    rfl
  · rfl

end Scope

namespace Resolve

variable {strict : Prop} {lists : List Value → List Value}

/-! ### The traversal -/

/-- A rule for fields gives the same verdict with and without data. -/
def RuleFollows (strict : Prop) (lists : List Value → List Value) (rule : ColumnRule) : Prop :=
  ∀ ⦃scopes scopes'⦄ (c : ColumnRef), Scope.AllErased lists scopes scopes' →
    Follows strict (rule scopes c) (rule scopes' c)

theorem plainColumn_follows : RuleFollows strict lists plainColumn := by
  intro scopes scopes' c h
  unfold plainColumn
  refine .ofExcept_bind _ fun field => ?_
  obtain ⟨name, column, kind⟩ := field
  cases kind with
  | computed definition required =>
      cases definition with
      | some sql => exact .pure
      | none =>
          dsimp only
          split
          · exact .pure
          · exact .fault
  | stored | generated =>
      have howner := h.owner c.record
      dsimp only
      generalize Scope.owner? scopes c.record = o at howner
      generalize Scope.owner? scopes' c.record = o' at howner
      split
      · exact .fault_bind
      · cases howner with
        | none => exact .throw
        | some _ => exact .pure

section

variable {dialect : Dialect} {rule : ColumnRule}

/-- A test against a list follows the one against another list, where their operands do. -/
theorem inValues_follows (hlists : Fills strict lists) {scopes scopes' : Scopes} {negated : Bool}
    {operand operand' : Expr} (values : List Value)
    (h : Follows strict (exprWith dialect rule scopes operand)
      (exprWith dialect rule scopes' operand')) :
    Follows strict (exprWith dialect rule scopes (.inValues negated operand (lists values)))
      (exprWith dialect rule scopes' (.inValues negated operand' values)) := by
  have hchunks {values : List Value} (hne : values ≠ []) :
      chunks dialect.maxInList values ≠ [] := by
    intro hnone
    exact hne ((flatten_chunks dialect.maxInList values).symm.trans (by rw [hnone]; rfl))
  rw [exprWith, exprWith]
  cases values with
  | nil =>
      -- Without data the operand is resolved where the list is filled, but here it is not: nothing
      -- can fail.
      cases hnil : lists [] with
      | nil => exact .pure
      | cons v vs => exact {
          succeeds := fun _ next' => ⟨_, next', rfl⟩
          fails := fun hstrict => by
            rw [hlists.nil_eq_nil hstrict] at hnil
            cases hnil }
  | cons v vs =>
      obtain ⟨v', vs', hcons⟩ : ∃ v' vs', lists (v :: vs) = v' :: vs' :=
        List.exists_cons_of_ne_nil fun hnil => List.cons_ne_nil v vs (hlists.eq_nil_of_eq_nil hnil)
      rw [hcons]
      simp only [List.isEmpty_cons, Bool.false_eq_true, if_false]
      split
      · exact h.bind fun _ _ => .pure
      · refine Follows.bind ?_ fun _ _ => .pure
        refine .mapM_repeated (fun _ _ => h.bind fun _ _ => .pure) ?_ ?_
        · exact hchunks (List.cons_ne_nil v' vs')
        · exact hchunks (List.cons_ne_nil v vs)

/-- A list of results follows another where the expressions of its fields do. -/
theorem output_follows {s s' : Select} {scopes scopes' : Scopes}
    (hfields : s.resultFields? = s'.resultFields?) (hrecord : s.record = s'.record)
    (hdefined : ∀ field, Option.Rel (Follows strict)
      (definitionWith dialect rule scopes field s.definitions)
      (definitionWith dialect rule scopes' field s'.definitions))
    (hread : ∀ field, Follows strict (rule scopes ⟨s'.record, field⟩)
      (rule scopes' ⟨s'.record, field⟩)) :
    Follows strict (output dialect rule scopes s) (output dialect rule scopes' s') := by
  unfold output
  rw [hfields, hrecord]
  refine .optionally (fun fields => .mapM fun field _ => ?_) _
  exact (Follows.getD (hdefined field) (hread field)).bind fun _ _ => .pure

/-- The clauses of a query follow those of another. -/
structure ClausesFollow (strict : Prop) (dialect : Dialect) (rule : ColumnRule)
    (scopes scopes' : Scopes) (s s' : Select) : Prop where
  output : Follows strict (output dialect rule scopes s) (output dialect rule scopes' s')
  joins : Follows strict (joinsWith dialect rule scopes s.joins)
    (joinsWith dialect rule scopes' s'.joins)
  filter : Follows strict (optionalWith dialect rule scopes s.filter)
    (optionalWith dialect rule scopes' s'.filter)
  grouping : Follows strict (groupingWith dialect rule scopes s.grouping)
    (groupingWith dialect rule scopes' s'.grouping)
  ordering : Follows strict (orderingWith dialect rule scopes s.ordering)
    (orderingWith dialect rule scopes' s'.ordering)

/-- A query follows the query without its data where its clauses do, inside it. -/
theorem selectWith_follows_of_clauses {s : Select} {outer outer' : Scopes}
    (h : Scope.AllErased lists outer outer') (labelled : Bool)
    (hclauses : ∀ {scopes scopes'}, Scope.AllErased lists scopes scopes' →
      ClausesFollow strict dialect rule scopes scopes' (Expr.eraseSelect lists s) s) :
    Follows strict (selectWith dialect rule outer labelled (Expr.eraseSelect lists s))
      (selectWith dialect rule outer' labelled s) := by
  have hjoins : (Expr.eraseSelect lists s).joins.isEmpty = s.joins.isEmpty := by
    rw [← List.isEmpty_map, s.joins_records_erase lists, List.isEmpty_map]
  have hlimit : (Expr.eraseSelect lists s).limit = s.limit := by rw [Select.eraseSelect_eq]
  rw [selectWith_eq, selectWith_eq, s.record_erase, h.lists,
    s.scopeRecords_erase lists h.lists, hjoins, hlimit]
  cases Scope.lists outer' s.record with
  | true => exact .fault_bind
  | false =>
      simp only [Bool.false_eq_true, if_false]
      refine (allocate_follows _).bind_of allocate_records allocate_records
        fun entries entries' hentries hentries' => ?_
      have hsame : entries.map (·.1) = entries'.map (·.1) := hentries.trans hentries'.symm
      have hscope : Scope.Relabelled (Expr.eraseFields lists)
          ⟨entries, s.record, (Expr.eraseSelect lists s).overrides, true⟩
          ⟨entries', s.record, s.overrides, true⟩ :=
        ⟨hsame, rfl, by rw [Select.eraseSelect_eq]⟩
      have hinner := hclauses (.cons hscope h)
      refine hinner.output.bind fun _ _ => ?_
      rw [s.isEmpty_tableItems_erase lists hsame]
      cases (s.tableItems entries').isEmpty && !s.joins.isEmpty with
      | true => exact .fault_bind
      | false =>
          simp only [Bool.false_eq_true, if_false]
          refine hinner.joins.bind fun _ _ => ?_
          refine hinner.filter.bind fun _ _ => ?_
          refine hinner.grouping.bind fun _ _ => ?_
          refine hinner.ordering.bind fun _ _ => ?_
          exact (Follows.optionally window_follows s.limit).bind fun _ _ => .pure

mutual

/-- An expression follows the expression without its data. -/
theorem exprWith_follows (hlists : Fills strict lists) (hrule : RuleFollows strict lists rule)
    {scopes scopes' : Scopes} (h : Scope.AllErased lists scopes scopes') : ∀ e : Expr,
    Follows strict (exprWith dialect rule scopes (e.erase lists)) (exprWith dialect rule scopes' e)
  | .column c => hrule c h
  | .literal v => literal_follows dialect v
  | .bound _ | .fieldValue .. | .wildcard => .pure
  | .interval amount unit => interval_follows dialect amount unit
  | .call _ args => (exprsWith_follows hlists hrule h args).bind fun _ _ => .pure
  | .binary _ left right =>
    (exprWith_follows hlists hrule h left).bind fun _ _ =>
      (exprWith_follows hlists hrule h right).bind fun _ _ => .pure
  | .logical _ operands => (exprsWith_follows hlists hrule h operands).bind fun _ _ => .pure
  | .not operand => (exprWith_follows hlists hrule h operand).bind fun _ _ => .pure
  | .isNull _ operand => (exprWith_follows hlists hrule h operand).bind fun _ _ => .pure
  | .inValues _ operand values =>
    inValues_follows hlists values (exprWith_follows hlists hrule h operand)
  | .inExprs negated operand items => by
    have hoperand := exprWith_follows hlists hrule h operand
    have hitems := exprsWith_follows hlists hrule h items
    rw [Expr.erase, exprWith, exprWith, Expr.isEmpty_eraseAll]
    split
    · exact .pure
    · exact hoperand.bind fun _ _ => hitems.bind fun _ _ => .pure
  | .inSelect _ operand select =>
    (exprWith_follows hlists hrule h operand).bind fun _ _ =>
      (selectWith_follows hlists hrule h false select).bind fun _ _ => .pure
  | .caseWhen operand branches otherwise => by
    have hoperand := optionalWith_follows hlists hrule h operand
    have hbranches := branchesWith_follows hlists hrule h branches
    have hotherwise := optionalWith_follows hlists hrule h otherwise
    rw [Expr.erase, exprWith, exprWith, Expr.isEmpty_eraseBranches]
    split
    · exact .fault
    · exact hoperand.bind fun _ _ => hbranches.bind fun _ _ => hotherwise.bind fun _ _ => .pure
  | .search _ columns _ => by
    have hcolumns := exprsWith_follows hlists hrule h columns
    rw [Expr.erase, exprWith, exprWith, Expr.isEmpty_eraseAll]
    split
    · exact .fault
    · exact hcolumns.bind fun _ _ => .pure
  | .temporal _ operand => (exprWith_follows hlists hrule h operand).bind fun _ _ => .pure
  | .subquery select => (selectWith_follows hlists hrule h false select).bind fun _ _ => .pure
  | .existsRow select => (selectWith_follows hlists hrule h false select).bind fun _ _ => .pure

theorem exprsWith_follows (hlists : Fills strict lists) (hrule : RuleFollows strict lists rule)
    {scopes scopes' : Scopes} (h : Scope.AllErased lists scopes scopes') : ∀ es : List Expr,
    Follows strict (exprsWith dialect rule scopes (Expr.eraseAll lists es))
      (exprsWith dialect rule scopes' es)
  | [] => .pure
  | e :: es =>
    (exprWith_follows hlists hrule h e).bind fun _ _ =>
      (exprsWith_follows hlists hrule h es).bind fun _ _ => .pure

theorem optionalWith_follows (hlists : Fills strict lists) (hrule : RuleFollows strict lists rule)
    {scopes scopes' : Scopes} (h : Scope.AllErased lists scopes scopes') : ∀ e? : Option Expr,
    Follows strict (optionalWith dialect rule scopes (Expr.eraseOptional lists e?))
      (optionalWith dialect rule scopes' e?)
  | none => .pure
  | some e => (exprWith_follows hlists hrule h e).bind fun _ _ => .pure

theorem branchesWith_follows (hlists : Fills strict lists) (hrule : RuleFollows strict lists rule)
    {scopes scopes' : Scopes} (h : Scope.AllErased lists scopes scopes') :
    ∀ branches : List (Expr × Expr),
    Follows strict (branchesWith dialect rule scopes (Expr.eraseBranches lists branches))
      (branchesWith dialect rule scopes' branches)
  | [] => .pure
  | (condition, result) :: rest =>
    (exprWith_follows hlists hrule h condition).bind fun _ _ =>
      (exprWith_follows hlists hrule h result).bind fun _ _ =>
        (branchesWith_follows hlists hrule h rest).bind fun _ _ => .pure

theorem definitionWith_follows (hlists : Fills strict lists)
    (hrule : RuleFollows strict lists rule) {scopes scopes' : Scopes}
    (h : Scope.AllErased lists scopes scopes') (field : String) :
    ∀ definitions : List (FieldExprOf Expr), Option.Rel (Follows strict)
      (definitionWith dialect rule scopes field (Expr.eraseFields lists definitions))
      (definitionWith dialect rule scopes' field definitions)
  | [] => .none
  | { field := defined, expr } :: rest => by
    have hexpr := exprWith_follows hlists hrule h expr
    have hrest := definitionWith_follows hlists hrule h field rest
    rw [Expr.eraseFields, definitionWith, definitionWith]
    split
    · exact .some hexpr
    · exact hrest

theorem joinsWith_follows (hlists : Fills strict lists) (hrule : RuleFollows strict lists rule)
    {scopes scopes' : Scopes} (h : Scope.AllErased lists scopes scopes') :
    ∀ joins : List (JoinOf Expr),
    Follows strict (joinsWith dialect rule scopes (Expr.eraseJoins lists joins))
      (joinsWith dialect rule scopes' joins)
  | [] => .pure
  | { kind, record, on } :: rest => by
    have hon := exprWith_follows hlists hrule h on
    have hrest := joinsWith_follows hlists hrule h rest
    have howner := h.owner record
    rw [Expr.eraseJoins, joinsWith, joinsWith]
    refine .ofExcept_bind _ fun table => ?_
    generalize Scope.owner? scopes record = o at howner
    generalize Scope.owner? scopes' record = o' at howner
    cases howner with
    | none => exact .throw
    | some _ => exact hon.bind fun _ _ => hrest.bind fun _ _ => .pure

theorem sortKeysWith_follows (hlists : Fills strict lists) (hrule : RuleFollows strict lists rule)
    {scopes scopes' : Scopes} (h : Scope.AllErased lists scopes scopes') :
    ∀ keys : List (SortKeyOf Expr),
    Follows strict (sortKeysWith dialect rule scopes (Expr.eraseSortKeys lists keys))
      (sortKeysWith dialect rule scopes' keys)
  | [] => .pure
  | { expr, .. } :: rest =>
    (exprWith_follows hlists hrule h expr).bind fun _ _ =>
      (sortKeysWith_follows hlists hrule h rest).bind fun _ _ => .pure

theorem groupingWith_follows (hlists : Fills strict lists) (hrule : RuleFollows strict lists rule)
    {scopes scopes' : Scopes} (h : Scope.AllErased lists scopes scopes') :
    ∀ grouping : Option (List Expr),
    Follows strict (groupingWith dialect rule scopes (Expr.eraseGrouping lists grouping))
      (groupingWith dialect rule scopes' grouping)
  | none => .pure
  | some es => (exprsWith_follows hlists hrule h es).bind fun _ _ => .pure

theorem orderingWith_follows (hlists : Fills strict lists) (hrule : RuleFollows strict lists rule)
    {scopes scopes' : Scopes} (h : Scope.AllErased lists scopes scopes') :
    ∀ ordering : Option (List (SortKeyOf Expr)),
    Follows strict (orderingWith dialect rule scopes (Expr.eraseOrdering lists ordering))
      (orderingWith dialect rule scopes' ordering)
  | none => .pure
  | some keys => (sortKeysWith_follows hlists hrule h keys).bind fun _ _ => .pure

/-- A query follows the query without its data. -/
theorem selectWith_follows (hlists : Fills strict lists) (hrule : RuleFollows strict lists rule)
    {outer outer' : Scopes} (h : Scope.AllErased lists outer outer') (labelled : Bool) :
    ∀ s : SelectOf Expr,
    Follows strict (selectWith dialect rule outer labelled (Expr.eraseSelect lists s))
      (selectWith dialect rule outer' labelled s)
  | { record, selection, filter, joins, grouping, ordering, limit, locking, distinct, overrides,
      definitions } => by
    refine selectWith_follows_of_clauses h labelled fun {scopes scopes'} hinner => ?_
    exact {
      output := output_follows (Select.resultFields_erase lists _) (Select.record_erase lists _)
        (fun field => definitionWith_follows hlists hrule hinner field definitions)
        fun field => hrule _ hinner
      joins := joinsWith_follows hlists hrule hinner joins
      filter := optionalWith_follows hlists hrule hinner filter
      grouping := groupingWith_follows hlists hrule hinner grouping
      ordering := orderingWith_follows hlists hrule hinner ordering }

end

end

/-! ### Statements -/

variable {dialect : Dialect}

theorem overriddenColumn_follows (hlists : Fills strict lists) :
    RuleFollows strict lists (overriddenColumn dialect) := by
  intro scopes scopes' c h
  have hplain : Follows strict (plainColumn scopes c) (plainColumn scopes' c) :=
    plainColumn_follows c h
  have howner := h.owner c.record
  unfold overriddenColumn
  refine .ofExcept_bind _ fun field => ?_
  generalize Scope.owner? scopes c.record = o at howner
  generalize Scope.owner? scopes' c.record = o' at howner
  cases howner with
  | none => exact hplain
  | @some o o' hscope =>
      dsimp only
      rw [Scope.overrideOf_erased hscope c]
      cases o'.1.overrideOf? c with
      | none => exact hplain
      | some body =>
          exact (exprWith_follows hlists plainColumn_follows h body).bind fun _ _ => .pure

variable {scopes scopes' : Scopes}

theorem condition_follows (hlists : Fills strict lists) (h : Scope.AllErased lists scopes scopes')
    (filter : Option Expr) :
    Follows strict (condition dialect true scopes (Expr.eraseOptional lists filter))
      (condition dialect true scopes' filter) := by
  cases filter with
  | none => exact .pure
  | some e =>
      exact (exprWith_follows hlists (overriddenColumn_follows hlists) h e).bind fun _ _ => .pure

/-- In the scope of a change the places are still the same but for data. -/
theorem changeScope_bind_follows (h : Scope.AllErased lists scopes scopes') (record : RecordType)
    (qualified : Bool) {f g : Scope × Alias → Resolve Command}
    (hf : ∀ o o' : Scope × Alias, Scope.AllErased lists (o.1 :: scopes) (o'.1 :: scopes') →
      Follows strict (f o) (g o')) :
    Follows strict (changeScope record qualified >>= f) (changeScope record qualified >>= g) := by
  refine (changeScope_follows record qualified).bind_of changeScope_scope changeScope_scope
    fun o o' ⟨a, ho⟩ ⟨a', ho'⟩ => hf o o' (.cons ?_ h)
  rw [ho, ho']
  exact ⟨rfl, rfl, rfl⟩

theorem insert_follows (hlists : Fills strict lists) (h : Scope.AllErased lists scopes scopes')
    (i : Insert) :
    Follows strict (insert dialect true scopes { i with values := Expr.eraseFields lists i.values })
      (insert dialect true scopes' i) := by
  unfold insert
  dsimp only
  refine .ofExcept_bind _ fun table => ?_
  rw [Expr.isEmpty_eraseFields, Expr.map_expr_eraseFields, Expr.eraseFields_eq_map, List.mapM_map]
  cases i.values.isEmpty with
  | true => exact .pure
  | false =>
      refine (Follows.mapM fun v _ => .ofExcept _).bind fun columns columns' => ?_
      refine changeScope_bind_follows h i.record false fun o o' hinner => ?_
      exact (exprsWith_follows hlists (overriddenColumn_follows hlists) hinner _).bind
        fun _ _ => .pure

theorem update_follows (hlists : Fills strict lists) (h : Scope.AllErased lists scopes scopes')
    (u : Update) :
    Follows strict
      (update dialect true scopes { u with
        assignments := Expr.eraseFields lists u.assignments
        filter := Expr.eraseOptional lists u.filter })
      (update dialect true scopes' u) := by
  unfold update
  dsimp only
  refine .ofExcept_bind _ fun table => ?_
  rw [Expr.isEmpty_eraseFields, Expr.eraseFields_eq_map]
  cases u.assignments.isEmpty with
  | true => exact .fault_bind
  | false =>
      refine changeScope_bind_follows h u.record _ fun o o' hinner => ?_
      rw [List.mapM_map]
      refine (Follows.mapM fun v _ => ?_).bind fun _ _ =>
        (condition_follows hlists hinner u.filter).bind fun _ _ => .pure
      refine .ofExcept_bind _ fun column => ?_
      exact (exprWith_follows hlists (overriddenColumn_follows hlists) hinner v.expr).bind
        fun _ _ => .pure

theorem delete_follows (hlists : Fills strict lists) (h : Scope.AllErased lists scopes scopes')
    (d : Delete) :
    Follows strict
      (delete dialect true scopes { d with filter := Expr.eraseOptional lists d.filter })
      (delete dialect true scopes' d) := by
  unfold delete
  refine .ofExcept_bind _ fun table => ?_
  refine changeScope_bind_follows h d.record _ fun o o' hinner => ?_
  exact (condition_follows hlists hinner d.filter).bind fun _ _ => .pure

theorem createIndex_follows (i : CreateIndex) :
    Follows strict (createIndex dialect i) (createIndex dialect i) := by
  unfold createIndex
  refine .ofExcept_bind _ fun _ => .ofExcept_bind _ fun table => ?_
  cases i.fields.isEmpty with
  | true => exact .fault_bind
  | false => exact (Follows.mapM fun f _ => .ofExcept _).bind fun _ _ => .pure

theorem dropIndex_follows (i : DropIndex) :
    Follows strict (dropIndex dialect i) (dropIndex dialect i) := by
  unfold dropIndex
  refine .ofExcept_bind _ fun _ => ?_
  cases dialect.dropsIndexByTable with
  | true => exact .ofExcept_bind _ fun table => .pure
  | false => exact .pure

/-- A statement follows the statement without its data. -/
theorem statement_follows (hlists : Fills strict lists) (h : Scope.AllErased lists scopes scopes')
    (s : Statement) :
    Follows strict (statement dialect true scopes (s.erase lists))
      (statement dialect true scopes' s) := by
  cases s with
  | select s =>
      exact (selectWith_follows hlists (overriddenColumn_follows hlists) h true s).bind
        fun _ _ => .pure
  | insert i => exact insert_follows hlists h i
  | update u => exact update_follows hlists h u
  | delete d => exact delete_follows hlists h d
  | createIndex i => exact createIndex_follows i
  | dropIndex i => exact dropIndex_follows i

end Resolve

/-! ### Compiling -/

/-- A statement compiles if it compiles without its data; and if it fails without its data, it fails
with the same error, if the lists in the place of the empty ones are empty. -/
theorem compile_erase {strict : Prop} {lists : List Value → List Value}
    (hlists : Fills strict lists) (dialect : Dialect) (s : Statement) :
    ((∃ c, compile dialect (s.erase lists) = .ok c) → ∃ c, compile dialect s = .ok c) ∧
      (strict → ∀ e, compile dialect (s.erase lists) = .error e →
        compile dialect s = .error e) := by
  have hfollows : Resolve.Follows strict (Resolve.statement dialect true [] (s.erase lists))
      (Resolve.statement dialect true [] s) := Resolve.statement_follows hlists .nil s
  unfold compile Statement.resolve
  cases hx : Resolve.statement dialect true [] (s.erase lists) 0 with
  | ok command n =>
      obtain ⟨command', n', hy⟩ := hfollows.succeeds hx 0
      rw [hy]
      exact ⟨fun _ => ⟨_, rfl⟩, fun _ e h => by cases h⟩
  | error e n =>
      constructor
      · rintro ⟨c, h⟩
        cases h
      · intro hstrict e' h
        cases h
        obtain ⟨n', hy⟩ := hfollows.fails hstrict hx 0
        rw [hy]
        rfl

/-- Two statements that differ in their data only, with the same of their lists empty, both compile
or both fail with the same error.  Whichever of their lists are empty, both compile if their shape
does, which has no empty list. -/
theorem compile_data {s s' : Statement} (h : s.shape = s'.shape) (dialect : Dialect) :
    (s.outline = s'.outline →
      ((∃ c, compile dialect s = .ok c) ∧ ∃ c, compile dialect s' = .ok c) ∨
        ∃ e, compile dialect s = .error e ∧ compile dialect s' = .error e) ∧
    ((∃ c, compile dialect s.shape = .ok c) →
      (∃ c, compile dialect s = .ok c) ∧ ∃ c, compile dialect s' = .ok c) := by
  have houtline : Fills True fun values => if values.isEmpty then [] else [.null] := by
    refine ⟨fun {values} hnil => ?_, fun _ => rfl⟩
    cases values with
    | nil => rfl
    | cons v vs => cases hnil
  have hshape : Fills False fun _ => [.null] :=
    ⟨fun hnil => absurd hnil (List.cons_ne_nil _ _), False.elim⟩
  constructor
  · intro hsame
    obtain ⟨hok, hfails⟩ := compile_erase houtline dialect s
    obtain ⟨hok', hfails'⟩ := compile_erase houtline dialect s'
    change s.erase _ = s'.erase _ at hsame
    rw [← hsame] at hok' hfails'
    cases hcompiled : compile dialect (s.erase _) with
    | ok c => exact .inl ⟨hok ⟨c, hcompiled⟩, hok' ⟨c, hcompiled⟩⟩
    | error e => exact .inr ⟨e, hfails trivial e hcompiled, hfails' trivial e hcompiled⟩
  · intro hcompiles
    have hcompiles' : ∃ c, compile dialect s'.shape = .ok c := h ▸ hcompiles
    exact ⟨(compile_erase hshape dialect s).1 hcompiles,
      (compile_erase hshape dialect s').1 hcompiles'⟩

namespace Sample

/-- The orders of these items, where `field` is the field of an order for its item. -/
def ordersOf (field : String) (items : List Value) : Statement := .select {
  record := orders
  filter := some (.inValues false (.col orders field) items) }

/-- The orders of no item and those of two can be selected. -/
theorem ordersOf_compiles :
    (∃ c, compile .sqlite (ordersOf "item" []) = .ok c) ∧
      ∃ c, compile .sqlite (ordersOf "item" [.integer 1, .null]) = .ok c := by
  have hshape : (ordersOf "item" []).shape = (ordersOf "item" [.integer 1, .null]).shape := rfl
  exact (compile_data hshape .sqlite).2 ⟨_, rfl⟩

/-- A misspelled field is found out only when there is an item to ask for. -/
theorem ordersOf_misspelled :
    (ordersOf "items" []).shape = (ordersOf "items" [.integer 1]).shape ∧
      (∃ c, compile .sqlite (ordersOf "items" []) = .ok c) ∧
      compile .sqlite (ordersOf "items" [.integer 1]) = .error (.unknownField "Order" "items") :=
  ⟨rfl, ⟨_, rfl⟩, rfl⟩

end Sample

end RecordStore
