import Mathlib.Data.List.Forall2
import Mathlib.Data.Option.Basic
import RecordStore.Proofs.Sample
import RecordStore.Proofs.Sql.Bindings
import RecordStore.Proofs.Sql.Inversion
import RecordStore.Proofs.Sql.Listing

/-! # One statement in several dialects

A statement is portable if it has no test against a list of values, no search and no interval, at
any depth.  In any two dialects it compiles to statements that bind the same, or fails with the same
error (`compile_portable`).

Both compilations are followed step by step: `Alike` says that two steps of resolving return results
that bind the same and leave the same alias free, or fail alike.  What differs between the dialects
is whether the columns of a changed table are qualified, which binds nothing. -/

namespace RecordStore

/-! ### Portable statements -/

namespace Expr

mutual

/-- The expression has no list of values, no search and no interval, at any depth. -/
def isPortable : Expr → Bool
  | column _ | literal _ | bound _ | fieldValue .. | wildcard => true
  | interval .. | inValues .. | search .. => false
  | call _ args => portableAll args
  | binary _ left right => left.isPortable && right.isPortable
  | logical _ operands => portableAll operands
  | not operand => operand.isPortable
  | isNull _ operand => operand.isPortable
  | inExprs _ operand items => operand.isPortable && portableAll items
  | inSelect _ operand select => operand.isPortable && portableSelect select
  | caseWhen operand branches otherwise =>
    portableOptional operand && portableBranches branches && portableOptional otherwise
  | temporal _ operand => operand.isPortable
  | subquery select => portableSelect select
  | existsRow select => portableSelect select

/-- The expressions of a list are portable. -/
def portableAll : List Expr → Bool
  | [] => true
  | e :: es => e.isPortable && portableAll es

/-- An expression that may be missing is portable. -/
def portableOptional : Option Expr → Bool
  | none => true
  | some e => e.isPortable

/-- The branches of a case distinction are portable. -/
def portableBranches : List (Expr × Expr) → Bool
  | [] => true
  | (condition, result) :: rest =>
    condition.isPortable && result.isPortable && portableBranches rest

/-- The conditions of joins are portable. -/
def portableJoins : List (JoinOf Expr) → Bool
  | [] => true
  | { on, .. } :: rest => on.isPortable && portableJoins rest

/-- Sort keys are portable. -/
def portableSortKeys : List (SortKeyOf Expr) → Bool
  | [] => true
  | { expr, .. } :: rest => expr.isPortable && portableSortKeys rest

/-- Expressions for fields are portable. -/
def portableFields : List (FieldExprOf Expr) → Bool
  | [] => true
  | { expr, .. } :: rest => expr.isPortable && portableFields rest

/-- The groups of a query are portable. -/
def portableGrouping : Option (List Expr) → Bool
  | none => true
  | some es => portableAll es

/-- The order of a query is portable. -/
def portableOrdering : Option (List (SortKeyOf Expr)) → Bool
  | none => true
  | some keys => portableSortKeys keys

/-- All parts of a query are portable. -/
def portableSelect : SelectOf Expr → Bool
  | { joins, filter, grouping, ordering, overrides, definitions, .. } =>
    portableFields overrides && portableFields definitions && portableJoins joins &&
      portableOptional filter && portableGrouping grouping && portableOrdering ordering

end

end Expr

/-- A statement other than the removal of an index is portable if its expressions are. -/
def Statement.isPortable : Statement → Bool
  | select s => Expr.portableSelect s
  | insert i => Expr.portableFields i.values
  | update u => Expr.portableFields u.assignments && Expr.portableOptional u.filter
  | delete d => Expr.portableOptional d.filter
  | createIndex _ => true
  | dropIndex _ => false

/-! ### Steps that are alike -/

/-- The errors are the same, except that one names the first dialect where the other names the
second. -/
inductive StatementError.Alike (dialect dialect' : Dialect) : StatementError → StatementError → Prop
  | same (e : StatementError) : Alike dialect dialect' e e
  | unsupported (feature : Feature) :
      Alike dialect dialect' (.unsupported dialect feature) (.unsupported dialect' feature)

namespace Resolve

variable {β β' γ γ' : Type} (dialect dialect' : Dialect)

/-- Two outcomes of resolving: results as asked with the same alias free, or errors that are
alike. -/
inductive AlikeResults (post : β → γ → Prop) :
    EStateM.Result StatementError Alias β → EStateM.Result StatementError Alias γ → Prop
  | ok {b : β} {c : γ} (next : Alias) (h : post b c) : AlikeResults post (.ok b next) (.ok c next)
  | error {e e' : StatementError} (next next' : Alias) (h : e.Alike dialect dialect' e') :
      AlikeResults post (.error e next) (.error e' next')

/-- From the same free alias two steps, in one dialect and in the other, have outcomes that are
alike. -/
def Alike (post : β → γ → Prop) (x : Resolve β) (y : Resolve γ) : Prop :=
  ∀ next, AlikeResults dialect dialect' post (x next) (y next)

variable {dialect dialect'} {post : β → γ → Prop} {post' : β' → γ' → Prop}

namespace Alike

theorem pure {b : β} {c : γ} (h : post b c) :
    Alike dialect dialect' post (Pure.pure b) (Pure.pure c) := fun next => .ok next h

theorem throw {e e' : StatementError} (h : e.Alike dialect dialect' e') :
    Alike dialect dialect' post (MonadExcept.throw e) (MonadExcept.throw e') :=
  fun next => .error next next h

theorem fault (f : ClauseFault) :
    Alike dialect dialect' post (Resolve.fault f) (Resolve.fault f) := throw (.same _)

theorem bind {x : Resolve β} {y : Resolve γ} {f : β → Resolve β'} {g : γ → Resolve γ'}
    (hx : Alike dialect dialect' post x y)
    (hf : ∀ b c, post b c → Alike dialect dialect' post' (f b) (g c)) :
    Alike dialect dialect' post' (x >>= f) (y >>= g) := by
  intro next
  have hnext := hx next
  generalize hb : x next = result at hnext
  generalize hc : y next = result' at hnext
  cases hnext with
  | ok n h =>
      rw [bind_of_ok hb, bind_of_ok hc]
      exact hf _ _ h n
  | error n n' h =>
      rw [bind_of_error hb, bind_of_error hc]
      exact .error n n' h

/-- What would follow a fault does not matter. -/
theorem fault_bind (f : ClauseFault) {g : β → Resolve β'} {g' : γ → Resolve γ'} :
    Alike dialect dialect' post' (Resolve.fault f >>= g) (Resolve.fault f >>= g') :=
  fun next => .error next next (.same _)

/-- What does not depend on the dialect is the same in both. -/
theorem refl (x : Resolve β) : Alike dialect dialect' Eq x x := by
  intro next
  cases x next with
  | ok b n => exact .ok n rfl
  | error e n => exact .error n n (.same e)

/-- What was computed beforehand is the same in both dialects. -/
theorem same_bind (x : Resolve β) {f : β → Resolve β'} {g : β → Resolve γ'}
    (h : ∀ b, Alike dialect dialect' post' (f b) (g b)) :
    Alike dialect dialect' post' (x >>= f) (x >>= g) :=
  (refl x).bind fun b _ hbc => hbc ▸ h b

theorem mapM {f : β' → Resolve β} {g : β' → Resolve γ} {as : List β'}
    (h : ∀ a ∈ as, Alike dialect dialect' post (f a) (g a)) :
    Alike dialect dialect' (List.Forall₂ post) (as.mapM f) (as.mapM g) := by
  induction as with
  | nil => exact .pure .nil
  | cons a as ih =>
      rw [List.mapM_cons, List.mapM_cons]
      refine (h a List.mem_cons_self).bind fun b c hbc => ?_
      refine (ih fun a' ha' => h a' (List.mem_cons_of_mem a ha')).bind fun bs cs hbcs => ?_
      exact .pure (.cons hbc hbcs)

theorem getD {x? : Option (Resolve β)} {y? : Option (Resolve γ)} {x : Resolve β} {y : Resolve γ}
    (h? : Option.Rel (Alike dialect dialect' post) x? y?) (h : Alike dialect dialect' post x y) :
    Alike dialect dialect' post (x?.getD x) (y?.getD y) := by
  cases h? with
  | none => exact h
  | some h => exact h

end Alike

end Resolve

/-! ### Places that are alike -/

namespace Expr

theorem isPortable_of_mem {fields : List FieldExpr} (h : portableFields fields = true)
    {f : FieldExpr} (hf : f ∈ fields) : f.expr.isPortable = true := by
  induction fields with
  | nil => cases hf
  | cons f' fields ih =>
      obtain ⟨hfirst, hrest⟩ := Bool.and_eq_true_iff.mp h
      rcases List.mem_cons.mp hf with rfl | hf
      · exact hfirst
      · exact ih hrest hf

theorem portableAll_of_fields {fields : List FieldExpr} (h : portableFields fields = true) :
    portableAll (fields.map (·.expr)) = true := by
  induction fields with
  | nil => rfl
  | cons f fields ih =>
      obtain ⟨hfirst, hrest⟩ := Bool.and_eq_true_iff.mp h
      exact Bool.and_eq_true_iff.mpr ⟨hfirst, ih hrest⟩

end Expr

namespace Scope

/-- The scopes list the same and have the same portable overrides.  One may qualify columns and the
other not. -/
structure Alike (s s' : Scope) : Prop where
  entries : s'.entries = s.entries
  selected : s'.selected = s.selected
  overrides : s'.overrides = s.overrides
  portable : Expr.portableFields s.overrides = true

/-- Around both places the scopes are alike. -/
abbrev AllAlike : Scopes → Scopes → Prop := List.Forall₂ Alike

theorem Alike.overrideOf {s s' : Scope} (h : Alike s s') (c : ColumnRef) :
    s'.overrideOf? c = s.overrideOf? c := by
  unfold overrideOf?
  rw [h.selected, h.overrides]

theorem Alike.isPortable {s s' : Scope} (h : Alike s s') {c : ColumnRef} {body : Expr}
    (hbody : s.overrideOf? c = some body) : body.isPortable = true := by
  unfold overrideOf? at hbody
  split at hbody
  · obtain ⟨f, hfind, rfl⟩ := Option.map_eq_some_iff.mp hbody
    exact Expr.isPortable_of_mem h.portable (List.mem_of_find?_eq_some hfind)
  · cases hbody

variable {scopes scopes' : Scopes}

/-- A record type has the same alias in both places, or none. -/
theorem AllAlike.owner (h : AllAlike scopes scopes') (r : RecordType) :
    Option.Rel (fun o o' => Alike o.1 o'.1 ∧ o'.2 = o.2) (owner? scopes r) (owner? scopes' r) := by
  induction h with
  | nil => exact .none
  | @cons s s' outer outer' hs _ ih =>
      have halias : s'.aliasOf? r = s.aliasOf? r := by
        unfold aliasOf?
        rw [hs.entries]
      unfold owner?
      rw [halias]
      cases s.aliasOf? r with
      | none => exact ih
      | some a => exact .some ⟨hs, rfl⟩

theorem AllAlike.lists (h : AllAlike scopes scopes') (r : RecordType) :
    Scope.lists scopes' r = Scope.lists scopes r := by
  have howner := h.owner r
  rw [← isSome_owner, ← isSome_owner]
  generalize owner? scopes r = o at howner
  generalize owner? scopes' r = o' at howner
  cases howner <;> rfl

theorem AllAlike.scopeRecords (h : AllAlike scopes scopes') (s : Select) :
    s.scopeRecords scopes' = s.scopeRecords scopes :=
  s.scopeRecords_congr fun r _ => h.lists r

end Scope

namespace Resolve

variable {dialect dialect' : Dialect}

/-! ### Single parts -/

variable (dialect dialect') in
/-- What is resolved in both dialects binds the same. -/
abbrev Binds {β : Type} (f : Dialect → β → List Binding) (b c : β) : Prop :=
  f dialect' c = f dialect b

theorem literal_alike (v : Value) : Alike dialect dialect' (Binds dialect dialect' Term.bindings)
    (literal dialect v) (literal dialect' v) := by
  unfold literal
  split
  · exact .pure rfl
  · exact .throw (.unsupported .arrayLiteral)

variable (dialect dialect') in
/-- Two rules for fields are alike where the places are. -/
def RulesAlike (rule rule' : ColumnRule) : Prop :=
  ∀ ⦃scopes scopes'⦄ (c : ColumnRef), Scope.AllAlike scopes scopes' →
    Alike dialect dialect' (Binds dialect dialect' Term.bindings) (rule scopes c) (rule' scopes' c)

theorem plainColumn_alike : RulesAlike dialect dialect' plainColumn plainColumn := by
  intro scopes scopes' c h
  unfold plainColumn
  refine .same_bind _ fun field => ?_
  obtain ⟨name, column, kind⟩ := field
  cases kind with
  | computed definition required =>
      cases definition with
      | some sql => exact .pure rfl
      | none =>
          dsimp only
          split
          · exact .pure rfl
          · exact .fault _
  | stored | generated =>
      have howner := h.owner c.record
      dsimp only
      generalize Scope.owner? scopes c.record = o at howner
      generalize Scope.owner? scopes' c.record = o' at howner
      split
      · exact .fault_bind _
      · cases howner with
        | none => exact .throw (.same _)
        | some _ => exact .pure (by simp [Binds])

/-! ### The traversal -/

section

variable {rule rule' : ColumnRule}

/-- The clauses of a query are alike. -/
structure ClausesAlike (dialect dialect' : Dialect) (rule rule' : ColumnRule)
    (scopes scopes' : Scopes) (s : Select) : Prop where
  output : Alike dialect dialect' (Binds dialect dialect' resultsBindings)
    (output dialect rule scopes s) (output dialect' rule' scopes' s)
  joins : Alike dialect dialect' (Binds dialect dialect' joinsBindings)
    (joinsWith dialect rule scopes s.joins) (joinsWith dialect' rule' scopes' s.joins)
  filter : Alike dialect dialect' (Binds dialect dialect' optionalBindings)
    (optionalWith dialect rule scopes s.filter) (optionalWith dialect' rule' scopes' s.filter)
  grouping : Alike dialect dialect' (Binds dialect dialect' groupingBindings)
    (groupingWith dialect rule scopes s.grouping) (groupingWith dialect' rule' scopes' s.grouping)
  ordering : Alike dialect dialect' (Binds dialect dialect' orderingBindings)
    (orderingWith dialect rule scopes s.ordering) (orderingWith dialect' rule' scopes' s.ordering)

/-- A list of results is alike where the expressions of its fields are. -/
theorem output_alike {s : Select} {scopes scopes' : Scopes}
    (hdefined : ∀ field,
      Option.Rel (Alike dialect dialect' (Binds dialect dialect' Term.bindings))
        (definitionWith dialect rule scopes field s.definitions)
        (definitionWith dialect' rule' scopes' field s.definitions))
    (hread : ∀ field, Alike dialect dialect' (Binds dialect dialect' Term.bindings)
      (rule scopes ⟨s.record, field⟩) (rule' scopes' ⟨s.record, field⟩)) :
    Alike dialect dialect' (Binds dialect dialect' resultsBindings)
      (output dialect rule scopes s) (output dialect' rule' scopes' s) := by
  have hcolumn (field : String) : Alike dialect dialect'
      (fun c c' => c'.expr.bindings dialect' = c.expr.bindings dialect)
      (outputColumn rule scopes s.record
        (fun field => definitionWith dialect rule scopes field s.definitions) field)
      (outputColumn rule' scopes' s.record
        (fun field => definitionWith dialect' rule' scopes' field s.definitions) field) :=
    (Alike.getD (hdefined field) (hread field)).bind fun _ _ ht => .pure ht
  unfold output
  cases s.resultFields? with
  | none => exact .pure rfl
  | some fields =>
      refine (Alike.mapM fun field _ => hcolumn field).bind fun columns columns' hcolumns => ?_
      refine .pure ?_
      simpa [Binds, resultsBindings, outputBindings] using flatMap_eq_of_forall hcolumns

/-- A query is alike where its clauses are, inside it. -/
theorem selectWith_alike_of_clauses {s : Select} {outer outer' : Scopes}
    (h : Scope.AllAlike outer outer') (hoverrides : Expr.portableFields s.overrides = true)
    (labelled : Bool)
    (hclauses : ∀ {scopes scopes'}, Scope.AllAlike scopes scopes' →
      ClausesAlike dialect dialect' rule rule' scopes scopes' s) :
    Alike dialect dialect' (Binds dialect dialect' Query.bindings)
      (selectWith dialect rule outer labelled s) (selectWith dialect' rule' outer' labelled s) := by
  rw [selectWith_eq, selectWith_eq, h.lists, h.scopeRecords]
  cases Scope.lists outer s.record with
  | true => exact .fault_bind _
  | false =>
      simp only [Bool.false_eq_true, if_false]
      refine .same_bind _ fun entries => ?_
      have hscope : Scope.Alike ⟨entries, s.record, s.overrides, true⟩
          ⟨entries, s.record, s.overrides, true⟩ := ⟨rfl, rfl, rfl, hoverrides⟩
      have hinner := hclauses (.cons hscope h)
      refine hinner.output.bind fun columns columns' houtput => ?_
      cases (s.tableItems entries).isEmpty && !s.joins.isEmpty with
      | true => exact .fault_bind _
      | false =>
          simp only [Bool.false_eq_true, if_false]
          refine hinner.joins.bind fun joins joins' hjoins => ?_
          refine hinner.filter.bind fun filter filter' hfilter => ?_
          refine hinner.grouping.bind fun grouping grouping' hgrouping => ?_
          refine hinner.ordering.bind fun ordering ordering' hordering => ?_
          refine .same_bind _ fun limit => .pure ?_
          rw [Binds, Query.bindings_eq, Query.bindings_eq]
          dsimp only
          rw [houtput, hjoins, hfilter, hgrouping, hordering]

mutual

/-- A portable expression is alike in both dialects. -/
theorem exprWith_alike (hrule : RulesAlike dialect dialect' rule rule') {scopes scopes' : Scopes}
    (h : Scope.AllAlike scopes scopes') : ∀ e : Expr, e.isPortable = true →
    Alike dialect dialect' (Binds dialect dialect' Term.bindings) (exprWith dialect rule scopes e)
      (exprWith dialect' rule' scopes' e)
  | .column c, _ => hrule c h
  | .literal v, _ => literal_alike v
  | .bound _, _ | .fieldValue .., _ | .wildcard, _ => .pure rfl
  | .call _ args, hp => (exprsWith_alike hrule h args hp).bind fun _ _ hargs =>
    .pure (by simpa [Binds] using hargs)
  | .binary _ left right, hp => by
    obtain ⟨hl, hr⟩ := Bool.and_eq_true_iff.mp hp
    exact (exprWith_alike hrule h left hl).bind fun _ _ hleft =>
      (exprWith_alike hrule h right hr).bind fun _ _ hright =>
        .pure (by simp [Binds, hleft, hright])
  | .logical _ operands, hp => (exprsWith_alike hrule h operands hp).bind fun _ _ hts =>
    .pure (by simpa [Binds] using hts)
  | .not operand, hp => (exprWith_alike hrule h operand hp).bind fun _ _ ht =>
    .pure (by simpa [Binds] using ht)
  | .isNull _ operand, hp => (exprWith_alike hrule h operand hp).bind fun _ _ ht =>
    .pure (by simpa [Binds] using ht)
  | .inExprs negated operand items, hp => by
    obtain ⟨ho, hi⟩ := Bool.and_eq_true_iff.mp hp
    have hoperand := exprWith_alike hrule h operand ho
    have hitems := exprsWith_alike hrule h items hi
    rw [exprWith, exprWith]
    split
    · exact .pure rfl
    · exact hoperand.bind fun _ _ ht => hitems.bind fun _ _ hts =>
        .pure (by simp [Binds, ht, hts])
  | .inSelect _ operand select, hp => by
    obtain ⟨ho, hs⟩ := Bool.and_eq_true_iff.mp hp
    exact (exprWith_alike hrule h operand ho).bind fun _ _ ht =>
      (selectWith_alike hrule h false select hs).bind fun _ _ hq =>
        .pure (by simp [Binds, ht, hq])
  | .caseWhen operand branches otherwise, hp => by
    obtain ⟨hp, hr⟩ := Bool.and_eq_true_iff.mp hp
    obtain ⟨ho, hb⟩ := Bool.and_eq_true_iff.mp hp
    have hoperand := optionalWith_alike hrule h operand ho
    have hbranches := branchesWith_alike hrule h branches hb
    have hotherwise := optionalWith_alike hrule h otherwise hr
    rw [exprWith, exprWith]
    split
    · exact .fault _
    · exact hoperand.bind fun _ _ ht => hbranches.bind fun _ _ hts =>
        hotherwise.bind fun _ _ ht' => .pure (by simp [Binds, ht, hts, ht'])
  | .temporal _ operand, hp => (exprWith_alike hrule h operand hp).bind fun _ _ ht =>
    .pure (by simpa [Binds] using ht)
  | .subquery select, hp => (selectWith_alike hrule h false select hp).bind fun _ _ hq =>
    .pure (by simpa [Binds] using hq)
  | .existsRow select, hp => (selectWith_alike hrule h false select hp).bind fun _ _ hq =>
    .pure (by simpa [Binds] using hq)

theorem exprsWith_alike (hrule : RulesAlike dialect dialect' rule rule') {scopes scopes' : Scopes}
    (h : Scope.AllAlike scopes scopes') : ∀ es : List Expr, Expr.portableAll es = true →
    Alike dialect dialect' (Binds dialect dialect' termsBindings) (exprsWith dialect rule scopes es)
      (exprsWith dialect' rule' scopes' es)
  | [], _ => .pure rfl
  | e :: es, hp => by
    obtain ⟨he, hes⟩ := Bool.and_eq_true_iff.mp hp
    exact (exprWith_alike hrule h e he).bind fun _ _ ht =>
      (exprsWith_alike hrule h es hes).bind fun _ _ hts =>
        .pure (by simp_all [Binds, termsBindings])

theorem optionalWith_alike (hrule : RulesAlike dialect dialect' rule rule')
    {scopes scopes' : Scopes} (h : Scope.AllAlike scopes scopes') : ∀ e? : Option Expr,
    Expr.portableOptional e? = true →
    Alike dialect dialect' (Binds dialect dialect' optionalBindings)
      (optionalWith dialect rule scopes e?) (optionalWith dialect' rule' scopes' e?)
  | none, _ => .pure rfl
  | some e, hp => (exprWith_alike hrule h e hp).bind fun _ _ ht =>
    .pure (by simpa [Binds, optionalBindings] using ht)

theorem branchesWith_alike (hrule : RulesAlike dialect dialect' rule rule')
    {scopes scopes' : Scopes} (h : Scope.AllAlike scopes scopes') :
    ∀ branches : List (Expr × Expr), Expr.portableBranches branches = true →
    Alike dialect dialect' (Binds dialect dialect' branchesBindings)
      (branchesWith dialect rule scopes branches) (branchesWith dialect' rule' scopes' branches)
  | [], _ => .pure rfl
  | (condition, result) :: rest, hp => by
    obtain ⟨hp, ho⟩ := Bool.and_eq_true_iff.mp hp
    obtain ⟨hc, hr⟩ := Bool.and_eq_true_iff.mp hp
    exact (exprWith_alike hrule h condition hc).bind fun _ _ hcondition =>
      (exprWith_alike hrule h result hr).bind fun _ _ hresult =>
        (branchesWith_alike hrule h rest ho).bind fun _ _ hrest =>
          .pure (by simp_all [Binds, branchesBindings])

theorem definitionWith_alike (hrule : RulesAlike dialect dialect' rule rule')
    {scopes scopes' : Scopes} (h : Scope.AllAlike scopes scopes') (field : String) :
    ∀ definitions : List (FieldExprOf Expr), Expr.portableFields definitions = true →
    Option.Rel (Alike dialect dialect' (Binds dialect dialect' Term.bindings))
      (definitionWith dialect rule scopes field definitions)
      (definitionWith dialect' rule' scopes' field definitions)
  | [], _ => .none
  | { field := defined, expr } :: rest, hp => by
    obtain ⟨he, ho⟩ := Bool.and_eq_true_iff.mp hp
    have hexpr := exprWith_alike hrule h expr he
    have hrest := definitionWith_alike hrule h field rest ho
    rw [definitionWith, definitionWith]
    split
    · exact .some hexpr
    · exact hrest

theorem joinsWith_alike (hrule : RulesAlike dialect dialect' rule rule') {scopes scopes' : Scopes}
    (h : Scope.AllAlike scopes scopes') : ∀ joins : List (JoinOf Expr),
    Expr.portableJoins joins = true →
    Alike dialect dialect' (Binds dialect dialect' joinsBindings)
      (joinsWith dialect rule scopes joins) (joinsWith dialect' rule' scopes' joins)
  | [], _ => .pure rfl
  | { kind, record, on } :: rest, hp => by
    obtain ⟨hc, ho⟩ := Bool.and_eq_true_iff.mp hp
    have hon := exprWith_alike hrule h on hc
    have hrest := joinsWith_alike hrule h rest ho
    have howner := h.owner record
    rw [joinsWith, joinsWith]
    refine .same_bind _ fun table => ?_
    generalize Scope.owner? scopes record = o at howner
    generalize Scope.owner? scopes' record = o' at howner
    cases howner with
    | none => exact .throw (.same _)
    | some _ =>
        exact hon.bind fun _ _ ht => hrest.bind fun _ _ hts =>
          .pure (by simp_all [Binds, joinsBindings])

theorem sortKeysWith_alike (hrule : RulesAlike dialect dialect' rule rule')
    {scopes scopes' : Scopes} (h : Scope.AllAlike scopes scopes') :
    ∀ keys : List (SortKeyOf Expr), Expr.portableSortKeys keys = true →
    Alike dialect dialect' (Binds dialect dialect' sortKeysBindings)
      (sortKeysWith dialect rule scopes keys) (sortKeysWith dialect' rule' scopes' keys)
  | [], _ => .pure rfl
  | { expr, .. } :: rest, hp => by
    obtain ⟨he, ho⟩ := Bool.and_eq_true_iff.mp hp
    exact (exprWith_alike hrule h expr he).bind fun _ _ ht =>
      (sortKeysWith_alike hrule h rest ho).bind fun _ _ hts =>
        .pure (by simp_all [Binds, sortKeysBindings])

theorem groupingWith_alike (hrule : RulesAlike dialect dialect' rule rule')
    {scopes scopes' : Scopes} (h : Scope.AllAlike scopes scopes') :
    ∀ grouping : Option (List Expr), Expr.portableGrouping grouping = true →
    Alike dialect dialect' (Binds dialect dialect' groupingBindings)
      (groupingWith dialect rule scopes grouping) (groupingWith dialect' rule' scopes' grouping)
  | none, _ => .pure rfl
  | some es, hp => (exprsWith_alike hrule h es hp).bind fun _ _ hts =>
    .pure (by simpa [Binds, groupingBindings] using hts)

theorem orderingWith_alike (hrule : RulesAlike dialect dialect' rule rule')
    {scopes scopes' : Scopes} (h : Scope.AllAlike scopes scopes') :
    ∀ ordering : Option (List (SortKeyOf Expr)), Expr.portableOrdering ordering = true →
    Alike dialect dialect' (Binds dialect dialect' orderingBindings)
      (orderingWith dialect rule scopes ordering) (orderingWith dialect' rule' scopes' ordering)
  | none, _ => .pure rfl
  | some keys, hp => (sortKeysWith_alike hrule h keys hp).bind fun _ _ hts =>
    .pure (by simpa [Binds, orderingBindings] using hts)

/-- A portable query is alike in both dialects. -/
theorem selectWith_alike (hrule : RulesAlike dialect dialect' rule rule') {outer outer' : Scopes}
    (h : Scope.AllAlike outer outer') (labelled : Bool) : ∀ s : SelectOf Expr,
    Expr.portableSelect s = true →
    Alike dialect dialect' (Binds dialect dialect' Query.bindings)
      (selectWith dialect rule outer labelled s) (selectWith dialect' rule' outer' labelled s)
  | { record, selection, filter, joins, grouping, ordering, limit, locking, distinct, overrides,
      definitions }, hp => by
    obtain ⟨hp, hordered⟩ := Bool.and_eq_true_iff.mp hp
    obtain ⟨hp, hgrouped⟩ := Bool.and_eq_true_iff.mp hp
    obtain ⟨hp, hfiltered⟩ := Bool.and_eq_true_iff.mp hp
    obtain ⟨hp, hjoined⟩ := Bool.and_eq_true_iff.mp hp
    obtain ⟨hoverridden, hdefined⟩ := Bool.and_eq_true_iff.mp hp
    refine selectWith_alike_of_clauses h hoverridden labelled fun {scopes scopes'} hinner => ?_
    exact {
      output := output_alike
        (fun field => definitionWith_alike hrule hinner field definitions hdefined)
        fun field => hrule _ hinner
      joins := joinsWith_alike hrule hinner joins hjoined
      filter := optionalWith_alike hrule hinner filter hfiltered
      grouping := groupingWith_alike hrule hinner grouping hgrouped
      ordering := orderingWith_alike hrule hinner ordering hordered }

end

end

/-! ### Statements -/

variable (dialect dialect')

theorem overriddenColumn_alike : RulesAlike dialect dialect' (overriddenColumn dialect)
    (overriddenColumn dialect') := by
  intro scopes scopes' c h
  have hplain : Alike dialect dialect' (Binds dialect dialect' Term.bindings)
      (plainColumn scopes c) (plainColumn scopes' c) := plainColumn_alike c h
  have howner := h.owner c.record
  unfold overriddenColumn
  refine .same_bind _ fun field => ?_
  generalize Scope.owner? scopes c.record = o at howner
  generalize Scope.owner? scopes' c.record = o' at howner
  cases howner with
  | none => exact hplain
  | @some o o' hscope =>
      obtain ⟨hscope, halias⟩ := hscope
      dsimp only
      rw [hscope.overrideOf c]
      cases hbody : o.1.overrideOf? c with
      | none => exact hplain
      | some body =>
          exact (exprWith_alike plainColumn_alike h body (hscope.isPortable hbody)).bind
            fun _ _ ht => .pure (by simpa [Binds] using ht)

variable (overriding : Bool)

theorem columnRule_alike : RulesAlike dialect dialect' (columnRule dialect overriding)
    (columnRule dialect' overriding) := by
  cases overriding with
  | false => exact plainColumn_alike
  | true => exact overriddenColumn_alike dialect dialect'

variable {dialect dialect' overriding} {scopes scopes' : Scopes}

/-- The scope of a change may qualify columns in one dialect only. -/
theorem changeScope_alike (record : RecordType) (qualified qualified' : Bool) :
    Alike dialect dialect' (fun o o' => Scope.Alike o.1 o'.1 ∧ o'.2 = o.2)
      (changeScope record qualified) (changeScope record qualified') :=
  fun next => .ok (next + 1) ⟨⟨rfl, rfl, rfl, rfl⟩, rfl⟩

theorem condition_alike (h : Scope.AllAlike scopes scopes') {filter : Option Expr}
    (hp : Expr.portableOptional filter = true) :
    Alike dialect dialect' (Binds dialect dialect' optionalBindings)
      (condition dialect overriding scopes filter)
      (condition dialect' overriding scopes' filter) := by
  have hrule := columnRule_alike dialect dialect' overriding
  cases filter with
  | none => exact .pure rfl
  | some e =>
      exact (exprWith_alike hrule h e hp).bind fun _ _ ht =>
        .pure (by simpa [Binds, optionalBindings] using ht)

theorem insert_alike (h : Scope.AllAlike scopes scopes') {i : Insert}
    (hp : Expr.portableFields i.values = true) :
    Alike dialect dialect' (Binds dialect dialect' Command.bindings)
      (insert dialect overriding scopes i) (insert dialect' overriding scopes' i) := by
  have hrule := columnRule_alike dialect dialect' overriding
  unfold insert
  refine .same_bind _ fun table => ?_
  cases i.values.isEmpty with
  | true => exact .pure rfl
  | false =>
      refine .same_bind _ fun columns => ?_
      refine (changeScope_alike i.record false false).bind fun o o' ho => ?_
      refine (exprsWith_alike hrule (.cons ho.1 h) _ (Expr.portableAll_of_fields hp)).bind
        fun ts ts' hts => .pure ?_
      rw [Binds, Command.bindings_insert, Command.bindings_insert, hts]

theorem update_alike (h : Scope.AllAlike scopes scopes') {u : Update}
    (hp : (Expr.portableFields u.assignments && Expr.portableOptional u.filter) = true) :
    Alike dialect dialect' (Binds dialect dialect' Command.bindings)
      (update dialect overriding scopes u) (update dialect' overriding scopes' u) := by
  have hrule := columnRule_alike dialect dialect' overriding
  obtain ⟨hassigned, hfiltered⟩ := Bool.and_eq_true_iff.mp hp
  unfold update
  refine .same_bind _ fun table => ?_
  cases u.assignments.isEmpty with
  | true => exact .fault_bind _
  | false =>
      refine (changeScope_alike u.record _ _).bind fun o o' ho => ?_
      have hscopes : Scope.AllAlike (o.1 :: scopes) (o'.1 :: scopes') := .cons ho.1 h
      have hassignment (v : FieldExpr) (hv : v ∈ u.assignments) : Alike dialect dialect'
          (fun a a' => a'.2.bindings dialect' = a.2.bindings dialect)
          (assignment dialect overriding (o.1 :: scopes) u.record v)
          (assignment dialect' overriding (o'.1 :: scopes') u.record v) := by
        have hexpr := exprWith_alike hrule hscopes v.expr (Expr.isPortable_of_mem hassigned hv)
        exact .same_bind _ fun column => hexpr.bind fun _ _ ht => .pure ht
      refine (Alike.mapM hassignment).bind fun as as' has => ?_
      refine (condition_alike hscopes hfiltered).bind fun filter filter' hfilter => .pure ?_
      rw [Binds, Command.bindings_update, Command.bindings_update, hfilter,
        flatMap_eq_of_forall has]

theorem delete_alike (h : Scope.AllAlike scopes scopes') {d : Delete}
    (hp : Expr.portableOptional d.filter = true) :
    Alike dialect dialect' (Binds dialect dialect' Command.bindings)
      (delete dialect overriding scopes d) (delete dialect' overriding scopes' d) := by
  unfold delete
  refine .same_bind _ fun table => ?_
  refine (changeScope_alike d.record _ _).bind fun o o' ho => ?_
  refine (condition_alike (.cons ho.1 h) hp).bind fun filter filter' hfilter => .pure ?_
  rw [Binds, Command.bindings_delete, Command.bindings_delete, hfilter]

theorem createIndex_alike (i : CreateIndex) :
    Alike dialect dialect' (Binds dialect dialect' Command.bindings)
      (createIndex dialect i) (createIndex dialect' i) := by
  unfold createIndex
  refine .same_bind _ fun _ => .same_bind _ fun table => ?_
  cases i.fields.isEmpty with
  | true => exact .fault_bind _
  | false =>
      refine .same_bind _ fun columns => .pure ?_
      rw [Binds, Command.bindings_createIndex, Command.bindings_createIndex]

/-- A portable statement is alike in both dialects. -/
theorem statement_alike (h : Scope.AllAlike scopes scopes') {s : Statement}
    (hp : s.isPortable = true) : Alike dialect dialect' (Binds dialect dialect' Command.bindings)
      (statement dialect overriding scopes s) (statement dialect' overriding scopes' s) := by
  cases s with
  | select s =>
      have hselect := selectWith_alike (columnRule_alike dialect dialect' overriding) h true s hp
      exact hselect.bind fun q q' hq => .pure hq
  | insert i => exact insert_alike h hp
  | update u => exact update_alike h hp
  | delete d => exact delete_alike h hp
  | createIndex i => exact createIndex_alike i
  | dropIndex i => cases hp

end Resolve

/-- In any two dialects a portable statement compiles to statements with the same bindings, or fails
with the same error, which may name its dialect. -/
theorem compile_portable {s : Statement} (h : s.isPortable = true) (dialect dialect' : Dialect) :
    (∃ c c', compile dialect s = .ok c ∧ compile dialect' s = .ok c' ∧ c'.bindings = c.bindings) ∨
      ∃ e e', compile dialect s = .error e ∧ compile dialect' s = .error e' ∧
        e.Alike dialect dialect' e' := by
  have hresolve : Resolve.Alike dialect dialect' (Resolve.Binds dialect dialect' Command.bindings)
      (Resolve.statement dialect true [] s) (Resolve.statement dialect' true [] s) :=
    Resolve.statement_alike .nil h
  have hnext := hresolve 0
  unfold compile Statement.resolve
  generalize Resolve.statement dialect true [] s 0 = result at hnext
  generalize Resolve.statement dialect' true [] s 0 = result' at hnext
  cases hnext with
  | @ok command command' next hbinds =>
      refine .inl ⟨_, _, rfl, rfl, ?_⟩
      rw [Command.bindings_compiled, Command.bindings_compiled]
      exact hbinds
  | @error e e' next next' halike => exact .inr ⟨e, e', rfl, rfl, halike⟩

namespace Sample

/-- The renaming of one item. -/
def itemRenamed : Statement := .update {
  record := schema.type
  assignments := [⟨"name", .bound (.text "one")⟩]
  filter := some ((Expr.col schema.type "id").eqBound (.integer 1)) }

/-- Only one of these dialects gives the changed table an alias, but the same is bound in both. -/
theorem itemRenamed_portable : ∃ c c', compile .postgres itemRenamed = .ok c ∧
    compile .mysql itemRenamed = .ok c' ∧ c'.bindings = c.bindings := by
  have hpostgres : compile .postgres itemRenamed = .ok
      ⟨"UPDATE \"items\" t0 SET \"item_name\" = $1 WHERE t0.\"item_id\" = $2",
        [.value (.text "one"), .value (.integer 1)]⟩ := rfl
  refine (compile_portable (s := itemRenamed) rfl .postgres .mysql).resolve_right ?_
  rintro ⟨e, e', herror, -, -⟩
  rw [hpostgres] at herror
  cases herror

end Sample

end RecordStore
