import RecordStore.Proofs.Sql.FromClause
import RecordStore.Proofs.Sql.Parts
import RecordStore.Proofs.Sql.Resolves
import RecordStore.Proofs.Sql.Traversal

/-! # Putting parts together

What is said of the parts of every term, from the alias that is free before to the one that is free
afterwards, is an invariant of resolving as soon as it can be put together from left to right
(`Parts.Additive`). -/

namespace RecordStore

namespace Parts

/-- The parts of the clauses of a query. -/
def ofClauses (around : List Declaration) (c : Resolve.Clauses) : List Part :=
  partsResults around c.output ++ partsJoins around c.joins ++ partsOptional around c.filter ++
    partsGrouping around c.grouping ++ partsOrdering around c.ordering

/-- What is said of parts in these scopes and inside these declarations. -/
abbrev Property := Scopes → List Declaration → Alias → List Part → Alias → Prop

/-- What is said of parts can be put together from left to right.  It holds of a field that is read,
and of a query with its parts if it holds of the parts of its clauses inside. -/
structure Additive (P : Property) : Prop where
  nil : ∀ {scopes around next}, P scopes around next [] next
  append : ∀ {scopes around ps ps' first next last}, P scopes around first ps next →
    P scopes around next ps' last → P scopes around first (ps ++ ps') last
  column : ∀ {scopes around c qualifier name next},
    Resolve.Reads scopes c (.column c qualifier name) →
    P scopes around next [.column ⟨c, qualifier, around⟩] next
  query : ∀ {outer around labelled c first last} {s : Select},
    (s.query outer first labelled c).declaration = s.declaration outer first →
    c.joins.map (·.item) = s.joins.filterMap (Scope.joinItem? (s.innerScopes outer first)) →
    P (s.innerScopes outer first) (s.declaration outer first :: around)
      (first + (s.scopeRecords outer).length) (ofClauses (s.declaration outer first :: around) c)
      last →
    P outer around first (.query (s.query outer first labelled c) around ::
      ofClauses (s.declaration outer first :: around) c) last

/-- It holds of an overriding expression, too, if it holds of the parts of the expression. -/
structure Overriding (dialect : Dialect) (P : Property) : Prop extends Additive P where
  override : ∀ {scopes around c a body t first last},
    Resolve.exprWith dialect Resolve.plainColumn scopes body first = .ok t last →
    P scopes around first (t.parts around) last →
    P scopes around first (.override c a t :: t.parts around) last

/-- The parts of all terms and queries have the property. -/
def invariant (P : Property) : Resolve.Invariant where
  Terms scopes _ first t last := ∀ around, P scopes around first (t.parts around) last
  Queries scopes _ first q last := ∀ around, P scopes around first (partsQuery around q) last

section

open Resolve

variable {P : Property} (hP : Additive P) {scopes : Scopes} {first last : Alias}

/-- The joined tables of a query are those of its joins. -/
theorem joinedItems {js : List Join} {ts : List JoinedTable}
    (h : InTurn ((invariant P).Joins scopes) js first ts last) :
    ts.map (·.item) = js.filterMap (Scope.joinItem? scopes) := by
  induction h with
  | nil => rfl
  | cons head _ ih => rw [List.map_cons, ih, List.filterMap_cons_some head.2.1]

include hP

theorem all {es : List Expr} {ts : List Term}
    (h : InTurn ((invariant P).Terms scopes) es first ts last) (around : List Declaration) :
    P scopes around first (partsAll around ts) last := by
  induction h with
  | nil => exact hP.nil
  | cons head _ ih => exact hP.append (head around) ih

theorem optional {e? : Option Expr} {t? : Option Term}
    (h : IfAny ((invariant P).Terms scopes) e? first t? last) (around : List Declaration) :
    P scopes around first (partsOptional around t?) last := by
  cases h with
  | none => exact hP.nil
  | some h => exact h around

theorem branches {es : List (Expr × Expr)} {ts : List (Term × Term)}
    (h : InTurn ((invariant P).Branches scopes) es first ts last) (around : List Declaration) :
    P scopes around first (partsBranches around ts) last := by
  induction h with
  | nil => exact hP.nil
  | cons head _ ih =>
      obtain ⟨next, hcondition, hresult⟩ := head
      exact hP.append (hP.append (hcondition around) (hresult around)) ih

theorem chunks {operand : Expr} {pieces : List (List Value)} {chunks : List (Term × List Value)}
    (h : InTurn ((invariant P).Chunks scopes operand) pieces first chunks last)
    (around : List Declaration) : P scopes around first (partsChunks around chunks) last := by
  induction h with
  | nil => exact hP.nil
  | cons head _ ih => exact hP.append (head.2 around) ih

theorem results {s : Select} {fields? : Option (List String)}
    {columns? : Option (List (FieldExprOf Term))}
    (h : IfAny (InTurn ((invariant P).Columns scopes s)) fields? first columns? last)
    (around : List Declaration) : P scopes around first (partsResults around columns?) last := by
  cases h with
  | none => exact hP.nil
  | some h =>
      change P scopes around first (partsOutput around _) last
      induction h with
      | nil => exact hP.nil
      | cons head _ ih => exact hP.append (head.2 around) ih

theorem joins {js : List Join} {ts : List JoinedTable}
    (h : InTurn ((invariant P).Joins scopes) js first ts last) (around : List Declaration) :
    P scopes around first (partsJoins around ts) last := by
  induction h with
  | nil => exact hP.nil
  | cons head _ ih => exact hP.append (head.2.2 around) ih

theorem grouping {es? : Option (List Expr)} {ts? : Option (List Term)}
    (h : IfAny (InTurn ((invariant P).Terms scopes)) es? first ts? last)
    (around : List Declaration) : P scopes around first (partsGrouping around ts?) last := by
  cases h with
  | none => exact hP.nil
  | some h => exact all hP h around

theorem ordering {keys? : Option (List SortKey)} {ts? : Option (List (SortKeyOf Term))}
    (h : IfAny (InTurn ((invariant P).SortKeys scopes)) keys? first ts? last)
    (around : List Declaration) : P scopes around first (partsOrdering around ts?) last := by
  cases h with
  | none => exact hP.nil
  | some h =>
      change P scopes around first (partsSortKeys around _) last
      induction h with
      | nil => exact hP.nil
      | cons head _ ih => exact hP.append (head.2 around) ih

/-- The clauses of a query have the property if they obey the invariant. -/
theorem clauses {s : Select} {c : Resolve.Clauses}
    (h : (invariant P).Clauses scopes s first c last) (around : List Declaration) :
    P scopes around first (ofClauses around c) last := by
  cases h with
  | mk output joined filter grouped ordered =>
      have hjoined := hP.append (results hP output around) (joins hP joined around)
      have hfiltered := hP.append hjoined (optional hP filter around)
      exact hP.append (hP.append hfiltered (grouping hP grouped around))
        (ordering hP ordered around)

theorem congruence (scopes : Scopes) : (invariant P).Congruence scopes where
  literal _ := hP.nil
  bound _ := hP.nil
  fieldValue _ := hP.nil
  interval _ := hP.nil
  wildcard _ := hP.nil
  call h := all hP h
  binary h h' around := hP.append (h around) (h' around)
  logical h := all hP h
  not h := h
  isNull h := h
  inNoValues _ := hP.nil
  inNoExprs _ := hP.nil
  inArray _ h := h
  inChunks _ _ h := chunks hP h
  inTerms _ h h' around := hP.append (h around) (all hP h' around)
  inQuery h h' around := hP.append (h around) (h' around)
  caseWhen h h' h'' around :=
    hP.append (hP.append (optional hP h around) (branches hP h' around)) (optional hP h'' around)
  search _ h := all hP h
  temporal h := h
  subquery h := h
  existsRow h := h

/-- A query has the property if its clauses obey the invariant. -/
theorem of_clauses {s : Select} {outer : Scopes} {labelled : Bool} {c : Resolve.Clauses}
    (henter : s.Enterable outer first)
    (hc : (invariant P).Clauses (s.innerScopes outer first) s
      (first + (s.scopeRecords outer).length) c last) (around : List Declaration) :
    P outer around first (partsQuery around (s.query outer first labelled c)) last := by
  have hjoined : c.joins.map (·.item) =
      s.joins.filterMap (Scope.joinItem? (s.innerScopes outer first)) := by
    cases hc with
    | mk _ joined => exact joinedItems joined
  have hdeclared :=
    s.declaration_eq (s.query outer first labelled c) rfl rfl hjoined henter.joinable
  have hparts : partsQuery around (s.query outer first labelled c) =
      .query (s.query outer first labelled c) around ::
        ofClauses ((s.query outer first labelled c).declaration :: around) c := rfl
  rw [hparts, hdeclared]
  exact hP.query hdeclared hjoined (clauses hP hc _)

/-- Fields that are read as they are have their columns as their parts. -/
theorem lawful_plain : (invariant P).Lawful plainColumn where
  congruence := congruence hP
  column {scopes c first t last} h := by
    obtain ⟨hreads, rfl⟩ := plainColumn_eq_ok h
    intro around
    cases t with
    | column c' qualifier name =>
        obtain rfl : c' = c := by
          cases hreads
          rfl
        exact hP.column hreads
    | _ => cases hreads <;> exact hP.nil
  query := of_clauses hP

end

variable {P : Property} {dialect : Dialect}

theorem lawful_overridden (hP : Overriding dialect P) :
    (invariant P).Lawful (Resolve.overriddenColumn dialect) where
  congruence := congruence hP.toAdditive
  column {scopes c first t last} h := by
    rcases Resolve.overriddenColumn_eq_ok h with ⟨scope, a, body, t', -, -, -, ht, rfl⟩ | ⟨-, h⟩
    · intro around
      exact hP.override ht (Resolve.exprWith_keeps (lawful_plain hP.toAdditive) body ht around)
    · exact (lawful_plain hP.toAdditive).column h
  query := of_clauses hP.toAdditive

end Parts

end RecordStore
