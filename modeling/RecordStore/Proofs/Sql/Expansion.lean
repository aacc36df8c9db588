import RecordStore.Proofs.Sql.FromClause
import RecordStore.Proofs.Sql.Parallel
import RecordStore.Proofs.Sql.Resolves

/-! # Where overridden fields are expanded

The expression that overrides a field of a query is resolved anew at every place where the field is
mentioned, inside the queries around that place.  `Select.override_expanded` compares what comes of
it inside further queries with the list of results of the query itself.  A column keeps its alias
unless a query in between lists its record type, and takes the alias there otherwise
(`Scope.recaptured`).  The expression is refused inside them only for the sake of its own nested
queries, which may not select what is listed around them (`Select.FitsInside`). -/

namespace RecordStore

/-! ### Columns outside nested queries -/

mutual

/-- The columns of a term outside nested queries with their qualifiers, from left to right. -/
def Term.ownColumns : Term → List (ColumnRef × Option Alias)
  | .column source qualifier _ => [(source, qualifier)]
  | .definition .. | .missing _ | .literal _ | .param _ | .interval .. | .wildcard
  | .inNothing _ | .subquery _ | .existsRow _ => []
  | .override _ _ body => body.ownColumns
  | .call _ args => ownColumnsAll args
  | .binary _ left right => left.ownColumns ++ right.ownColumns
  | .logical _ operands => ownColumnsAll operands
  | .not operand => operand.ownColumns
  | .isNull _ operand => operand.ownColumns
  | .inChunks _ chunks => ownColumnsChunks chunks
  | .inArray _ operand _ => operand.ownColumns
  | .inTerms _ operand items => operand.ownColumns ++ ownColumnsAll items
  | .inQuery _ operand _ => operand.ownColumns
  | .caseWhen operand branches otherwise =>
    ownColumnsOptional operand ++ ownColumnsBranches branches ++ ownColumnsOptional otherwise
  | .search _ columns _ => ownColumnsAll columns
  | .temporal _ operand => operand.ownColumns

/-- The columns of a list of terms. -/
def ownColumnsAll : List Term → List (ColumnRef × Option Alias)
  | [] => []
  | t :: ts => t.ownColumns ++ ownColumnsAll ts

/-- The columns of a term that may be missing. -/
def ownColumnsOptional : Option Term → List (ColumnRef × Option Alias)
  | none => []
  | some t => t.ownColumns

/-- The columns of the branches of a case distinction. -/
def ownColumnsBranches : List (Term × Term) → List (ColumnRef × Option Alias)
  | [] => []
  | (condition, result) :: rest =>
    condition.ownColumns ++ result.ownColumns ++ ownColumnsBranches rest

/-- The columns of chunks of a list. -/
def ownColumnsChunks : List (Term × List Value) → List (ColumnRef × Option Alias)
  | [] => []
  | (operand, _) :: rest => operand.ownColumns ++ ownColumnsChunks rest

end

namespace Scope

/-- The qualifier of the columns of a record type in these scopes. -/
def qualifier? (scopes : Scopes) (r : RecordType) : Option Alias :=
  (owner? scopes r).bind fun (scope, a) => if scope.qualified then some a else none

/-- A column inside further scopes: if they list its record type, it is qualified as they say. -/
def recaptured (inner : Scopes) (column : ColumnRef × Option Alias) : ColumnRef × Option Alias :=
  if lists inner column.1.record then (column.1, qualifier? inner column.1.record) else column

/-- The second scopes are the first ones with inner scopes between the base and the rest. -/
structure Inserted (inner base scopes scopes' : Scopes) : Prop where
  place : (scopes = base ∧ scopes' = inner ++ base) ∨ base.length < scopes.length
  lists : ∀ r, lists scopes' r = (lists inner r || lists scopes r)

theorem Inserted.base (inner base : Scopes) : Inserted inner base base (inner ++ base) :=
  ⟨.inl ⟨rfl, rfl⟩, lists_append inner base⟩

variable {inner base scopes scopes' : Scopes}

theorem Inserted.push (h : Inserted inner base scopes scopes') (s : Select) (next next' : Alias) :
    Inserted inner base (s.innerScopes scopes next) (s.innerScopes scopes' next') where
  place := by
    refine .inr (Nat.lt_succ_of_le ?_)
    rcases h.place with ⟨rfl, -⟩ | hlt
    · exact Nat.le_refl _
    · exact Nat.le_of_lt hlt
  lists r := by
    rw [Select.lists_innerScopes, Select.lists_innerScopes, h.lists, Bool.or_left_comm]

/-- What has an owner has one in the second scopes, at the base the owner in between. -/
theorem Inserted.owner (h : Inserted inner base scopes scopes') {r : RecordType} {scope : Scope}
    {a : Alias} (howner : owner? scopes r = some (scope, a)) :
    ∃ scope' a', owner? scopes' r = some (scope', a') ∧ (scopes.length ≤ base.length →
      if Scope.lists inner r then owner? inner r = some (scope', a')
      else (scope', a') = (scope, a)) := by
  have hlisted : Scope.lists scopes' r = true := by
    rw [h.lists, ← isSome_owner scopes, howner, Option.isSome_some, Bool.or_true]
  obtain ⟨scope', a', howner'⟩ := exists_owner hlisted
  refine ⟨scope', a', howner', fun hle => ?_⟩
  obtain ⟨rfl, rfl⟩ := h.place.resolve_right (Nat.not_lt.mpr hle)
  rw [owner_append] at howner'
  split
  · next hinner => rwa [if_pos hinner] at howner'
  · next hinner =>
      rw [if_neg hinner, howner] at howner'
      exact (Option.some.inj howner').symm

end Scope

/-! ### Nested queries -/

/-- A nested query can be entered inside these scopes as it can without them. -/
structure Select.FitsInside (s : Select) (inner : Scopes) : Prop where
  unlisted : Scope.lists inner s.record = false
  /-- Nothing is joined, or there is a table to join to whatever the scopes list: the query's own
  one, if that is not joined itself, or those it has without the scopes. -/
  joinable : s.joins = [] ∨
    (s.record.isComputed = false ∧ s.joins.any (·.record.sameAs s.record) = false) ∨
    ∀ r ∈ s.mentions, Scope.lists inner r = false

namespace Select

variable {s : Select} {inner base outer outer' : Scopes} {next next' : Alias}

theorem record_mem_scopeRecords (s : Select) (outer : Scopes) :
    s.record ∈ s.scopeRecords outer := by
  unfold scopeRecords
  exact mem_foldl_addRecord _ (mem_foldl_addRecord _ (List.mem_singleton_self _))

theorem FitsInside.enterable (h : s.FitsInside inner)
    (hins : Scope.Inserted inner base outer outer') (henter : s.Enterable outer next) :
    s.Enterable outer' next' where
  unlisted := by
    rw [hins.lists, h.unlisted, henter.unlisted, Bool.or_false]
  joinable := by
    rcases h.joinable with hjoins | ⟨hstored, hunjoined⟩ | hunlisted
    · rw [hjoins, List.isEmpty_nil, Bool.not_true, Bool.and_false]
    · have hown : (s.tableItems (s.entries outer' next')).isEmpty = false := by
        rw [isEmpty_tableItems, entries_records, List.all_eq_false]
        refine ⟨s.record, s.record_mem_scopeRecords outer', ?_⟩
        rw [hstored, hunjoined]
        exact Bool.false_ne_true
      rw [hown, Bool.false_and]
    · have hrecords : s.scopeRecords outer' = s.scopeRecords outer := by
        refine s.scopeRecords_congr fun r hr => ?_
        rw [hins.lists, hunlisted r hr, Bool.false_or]
      have hjoinable := henter.joinable
      rw [isEmpty_tableItems, entries_records] at hjoinable ⊢
      rwa [hrecords]

end Select

namespace Resolve

variable {total : Prop} {inner base : Scopes}

/-! ### The correspondence -/

/-- Terms inside further scopes, where the queries in them do not matter unless they have to be
entered. -/
def insideOf (total : Prop) (inner base : Scopes) : Comparison where
  Free _ _ := True
  Labels _ _ := True
  Around := Scope.Inserted inner base
  Terms scopes t t' := scopes.length ≤ base.length →
    t'.ownColumns = t.ownColumns.map (Scope.recaptured inner)
  Queries _ _ _ := True
  Admits s := total → s.FitsInside inner

section

variable {scopes : Scopes}

theorem ownColumnsAll_of_forall {ts ts' : List Term}
    (h : List.Forall₂ ((insideOf total inner base).Terms scopes) ts ts')
    (hle : scopes.length ≤ base.length) :
    ownColumnsAll ts' = (ownColumnsAll ts).map (Scope.recaptured inner) := by
  induction h with
  | nil => rfl
  | cons h _ ih => rw [ownColumnsAll, ownColumnsAll, h hle, ih, List.map_append]

theorem ownColumnsOptional_of_rel {t? t?' : Option Term}
    (h : Option.Rel ((insideOf total inner base).Terms scopes) t? t?')
    (hle : scopes.length ≤ base.length) :
    ownColumnsOptional t?' = (ownColumnsOptional t?).map (Scope.recaptured inner) := by
  cases h with
  | none => rfl
  | some h => exact h hle

theorem ownColumnsBranches_of_forall {branches branches' : List (Term × Term)}
    (h : List.Forall₂ ((insideOf total inner base).Branches scopes) branches branches')
    (hle : scopes.length ≤ base.length) :
    ownColumnsBranches branches' = (ownColumnsBranches branches).map (Scope.recaptured inner) := by
  induction h with
  | nil => rfl
  | @cons b b' _ _ h _ ih =>
      obtain ⟨hcondition, hresult⟩ := h
      obtain ⟨condition, result⟩ := b
      obtain ⟨condition', result'⟩ := b'
      rw [ownColumnsBranches, ownColumnsBranches, hcondition hle, hresult hle, ih,
        List.map_append, List.map_append]

theorem ownColumnsChunks_of_forall {chunks chunks' : List (Term × List Value)}
    (h : List.Forall₂ ((insideOf total inner base).Chunks scopes) chunks chunks')
    (hle : scopes.length ≤ base.length) :
    ownColumnsChunks chunks' = (ownColumnsChunks chunks).map (Scope.recaptured inner) := by
  induction h with
  | nil => rfl
  | @cons c c' _ _ h _ ih =>
      obtain ⟨hoperand, -⟩ := h
      obtain ⟨operand, values⟩ := c
      obtain ⟨operand', values'⟩ := c'
      rw [ownColumnsChunks, ownColumnsChunks, hoperand hle, ih, List.map_append]

end

theorem insideOf_congruence (scopes : Scopes) : (insideOf total inner base).Congruence scopes where
  literal _ _ := rfl
  param _ _ := rfl
  interval _ _ _ := rfl
  wildcard _ := rfl
  inNothing _ _ := rfl
  call hargs hle := ownColumnsAll_of_forall hargs hle
  binary hleft hright hle := by
    rw [Term.ownColumns, Term.ownColumns, hleft hle, hright hle, List.map_append]
  logical hoperands hle := ownColumnsAll_of_forall hoperands hle
  not h := h
  isNull h := h
  inChunks hchunks hle := ownColumnsChunks_of_forall hchunks hle
  inArray h := h
  inTerms h hitems hle := by
    rw [Term.ownColumns, Term.ownColumns, h hle, ownColumnsAll_of_forall hitems hle,
      List.map_append]
  inQuery h _ := h
  caseWhen hoperand hbranches hotherwise hle := by
    rw [Term.ownColumns, Term.ownColumns, ownColumnsOptional_of_rel hoperand hle,
      ownColumnsBranches_of_forall hbranches hle, ownColumnsOptional_of_rel hotherwise hle,
      List.map_append, List.map_append]
  search hcolumns hle := ownColumnsAll_of_forall hcolumns hle
  temporal h := h
  subquery _ _ := rfl
  existsRow _ _ := rfl

/-- A field that is read as it is, where the scopes list its record type or in between. -/
theorem plainColumn_inside {scopes scopes' : Scopes}
    (h : Scope.Inserted inner base scopes scopes') (c : ColumnRef) :
    Parallel total (insideOf total inner base).Free ((insideOf total inner base).Terms scopes)
      (plainColumn scopes c) (plainColumn scopes' c) := by
  refine plainColumn_parallel (fun _ _ => rfl) (fun _ => rfl) fun {scope a} howner => ?_
  obtain ⟨scope', a', howner', hplace⟩ := h.owner howner
  refine ⟨scope', a', howner', fun name hle => ?_⟩
  have hplace := hplace hle
  rw [Term.ownColumns, Term.ownColumns, List.map_singleton]
  unfold Scope.recaptured Scope.qualifier?
  dsimp only
  cases hlisted : Scope.lists inner c.record with
  | true =>
      rw [if_pos hlisted] at hplace
      rw [if_pos rfl, hplace, Option.bind_some]
  | false =>
      rw [if_neg (ne_true_of_eq_false hlisted)] at hplace
      obtain ⟨rfl, rfl⟩ := Prod.mk.inj hplace
      rw [if_neg Bool.false_ne_true]

theorem insideOf_lawful (total : Prop) (inner base : Scopes) :
    (insideOf total inner base).Lawful total plainColumn plainColumn where
  congruence := insideOf_congruence
  column c h := plainColumn_inside h c
  owner h howner := by
    obtain ⟨scope', a', howner', -⟩ := h.owner howner
    exact ⟨scope', a', howner', trivial⟩
  enterable ht _ _ _ _ _ h hadmits _ henter := (hadmits ht).enterable h henter
  enter s h _ _ := ⟨h.push s _ _, trivial⟩
  query _ _ _ _ _ _ := trivial

end Resolve

/-! ### Overridden fields -/

namespace Select

variable {s : Select} {outer : Scopes} {first : Alias} {c : ColumnRef} {body : Expr}

/-- The record type of an overridden field is the one that the query selects. -/
theorem owner_of_override (h : (s.innerScope outer first).overrideOf? c = some body) :
    ∃ a, Scope.owner? (s.innerScopes outer first) c.record =
      some (s.innerScope outer first, a) := by
  have hsame : s.record.sameAs c.record = true := by
    unfold Scope.overrideOf? at h
    split at h
    · assumption
    · cases h
  obtain ⟨a, -, howner⟩ := s.owner_listed outer first
    (List.any_eq_true.mpr ⟨s.record, s.record_mem_scopeRecords outer, hsame⟩)
  exact ⟨a, howner⟩

end Select

/-- The expressions that an overridden field stands for inside further scopes and without them. -/
theorem Resolve.overriddenColumn_inside (dialect : Dialect) {inner base : Scopes} {c : ColumnRef}
    {scope : Scope} {a : Alias} {body : Expr}
    (howner : Scope.owner? base c.record = some (scope, a))
    (hinner : Scope.lists inner c.record = false) (hbody : scope.overrideOf? c = some body) :
    Parallel (∀ s ∈ body.queries, s.FitsInside inner) (fun _ _ => True)
      (fun t t' => ∃ e e' : Term, t = .override c a e ∧ t' = .override c a e' ∧
        e'.ownColumns = e.ownColumns.map (Scope.recaptured inner))
      (overriddenColumn dialect base c) (overriddenColumn dialect (inner ++ base) c) := by
  have howner' : Scope.owner? (inner ++ base) c.record = some (scope, a) := by
    rw [Scope.owner_append, hinner]
    exact howner
  have hexpr : Parallel (∀ s ∈ body.queries, s.FitsInside inner) (fun _ _ => True)
      ((insideOf (∀ s ∈ body.queries, s.FitsInside inner) inner base).Terms base)
      (exprWith dialect plainColumn base body)
      (exprWith dialect plainColumn (inner ++ base) body) :=
    exprWith_parallel (insideOf_lawful _ inner base) (Scope.Inserted.base inner base) body
      fun s hs ht => ht s hs
  rw [overriddenColumn_eq_override howner hbody, overriddenColumn_eq_override howner' hbody]
  exact .ofExcept_bind _ fun _ _ => hexpr.bind fun e e' he =>
    .pure ⟨e, e', rfl, rfl, he (Nat.le_refl _)⟩

/-- The expression that overrides a field of a query, inside further queries around the field that
do not list its record type.  If it resolves in the list of results of the query, it resolves inside
them too as long as its nested queries fit there.  Where it resolves in both places, its own columns
have the same aliases except those whose record types the queries in between list. -/
theorem Select.override_expanded (s : Select) (dialect : Dialect) (outer inner : Scopes)
    (first : Alias) (c : ColumnRef) (body : Expr)
    (hbody : (s.innerScope outer first).overrideOf? c = some body)
    (hinner : Scope.lists inner c.record = false) {next n : Alias} {t : Term}
    (h : Resolve.overriddenColumn dialect (s.innerScopes outer first) c next = .ok t n) :
    ∃ a e, t = .override c a e ∧
      ((∀ sel ∈ body.queries, sel.FitsInside inner) → ∀ next', ∃ t' n',
        Resolve.overriddenColumn dialect (inner ++ s.innerScopes outer first) c next' =
          .ok t' n') ∧
      ∀ next' t' n',
        Resolve.overriddenColumn dialect (inner ++ s.innerScopes outer first) c next' =
          .ok t' n' →
        ∃ e', t' = .override c a e' ∧
          e'.ownColumns = e.ownColumns.map (Scope.recaptured inner) := by
  obtain ⟨a, howner⟩ := owner_of_override hbody
  have hparallel := Resolve.overriddenColumn_inside dialect howner hinner hbody
  obtain ⟨e, rfl⟩ : ∃ e, t = .override c a e := by
    rw [Resolve.overriddenColumn_eq_override howner hbody] at h
    obtain ⟨_, _, -, hrest⟩ := bind_eq_ok.mp h
    obtain ⟨e, _, -, hpure⟩ := bind_eq_ok.mp hrest
    exact ⟨e, (pure_eq_ok.mp hpure).1.symm⟩
  refine ⟨a, e, rfl, fun hfits next' => hparallel.succeeds hfits trivial h, ?_⟩
  intro next' t' n' h'
  obtain ⟨-, e₁, e', heq, rfl, hcolumns⟩ := hparallel.agree trivial h h'
  obtain rfl : e = e₁ := by
    cases heq
    rfl
  exact ⟨e', rfl, hcolumns⟩

namespace Sample

/-- The number of items up to the one that is ordered. -/
def itemsUpToOrdered : Select where
  record := schema.type
  selection := .count
  filter := some (.binary .le (.col schema.type "id") (.col orders "item"))

/-- The tags of the item that is ordered. -/
def tagsOfOrdered : Select where
  record := tags
  filter := some (.binary .eq (.col tags "item") (.col orders "item"))

/-- Orders of tagged items, with a position in the place of the item. -/
def placedOrders : Select where
  record := orders
  overrides := [⟨"item", .binary .add (.col orders "id") (.subquery itemsUpToOrdered)⟩]
  filter := some (.existsRow tagsOfOrdered)

/-- Inside the query for tags the position is the one of the same order. -/
theorem placedOrders_expanded :
    Scope.lists [tagsOfOrdered.innerScope (placedOrders.innerScopes [] 0) 1] orders = false ∧
      itemsUpToOrdered.FitsInside [tagsOfOrdered.innerScope (placedOrders.innerScopes [] 0) 1] ∧
      ∃ e e' n n',
        Resolve.overriddenColumn .sqlite (placedOrders.innerScopes [] 0) ⟨orders, "item"⟩ 1 =
          .ok (.override ⟨orders, "item"⟩ 0 e) n ∧
        Resolve.overriddenColumn .sqlite
          (tagsOfOrdered.innerScopes (placedOrders.innerScopes [] 0) 1) ⟨orders, "item"⟩ 2 =
          .ok (.override ⟨orders, "item"⟩ 0 e') n' ∧
        e'.ownColumns = [(⟨orders, "id"⟩, some 0)] := by
  have hinner : Scope.lists [tagsOfOrdered.innerScope (placedOrders.innerScopes [] 0) 1] orders =
      false := by decide
  have hfits : itemsUpToOrdered.FitsInside
      [tagsOfOrdered.innerScope (placedOrders.innerScopes [] 0) 1] := ⟨by decide, .inl rfl⟩
  have hfield : Resolve.overriddenColumn .sqlite (placedOrders.innerScopes [] 0)
      ⟨orders, "item"⟩ 1 = .ok _ _ := rfl
  obtain ⟨a, e, he, hsucceeds, hagree⟩ :=
    placedOrders.override_expanded .sqlite [] _ 0 ⟨orders, "item"⟩ _ rfl hinner hfield
  obtain ⟨t', n', ht'⟩ := hsucceeds (List.forall_mem_singleton.mpr hfits) 2
  obtain ⟨e', rfl, hcolumns⟩ := hagree 2 t' n' ht'
  cases he
  exact ⟨hinner, hfits, _, e', _, n', hfield, ht', hcolumns⟩

/-- Items with the number of their orders for a name, those with an order of a larger number. -/
def countedItems : Select where
  record := schema.type
  overrides := [⟨"name", .subquery {
    record := orders
    selection := .count
    filter := some (.binary .eq (.col orders "item") (.col schema.type "id")) }⟩]
  filter := some (.existsRow {
    record := orders
    filter := some (.binary .gt (.col orders "id") (.col schema.type "name")) })

/-- Items with any order for a name, if the name is found among the orders of tagged items. -/
def orderedNames : Select where
  record := schema.type
  overrides := [⟨"name", .col orders "id"⟩]
  filter := some (.existsRow {
    record := tags
    joins := [⟨.inner, orders, .binary .eq (.col orders "item") (.col tags "item")⟩]
    filter := some (.eqBound (.col schema.type "name") (.integer 10)) })

/-- The count is refused in the condition, where orders are selected already.  The order is `t1` in
the list of results and `t3` in the condition, where another one is joined. -/
theorem expansions_differ :
    (∃ compiled, Select.compile .sqlite { countedItems with filter := none } = .ok compiled) ∧
    countedItems.compile .sqlite = .error (.invalidClause (.selectedTwice "Order")) ∧
    ∃ q : Query, (Statement.select orderedNames).resolve .sqlite = .ok (.query q) ∧
      (q.uses.filter (·.source = ⟨orders, "id"⟩)).map (·.qualifier) = [some 1, some 3] := by
  refine ⟨⟨_, rfl⟩, rfl, _, rfl, ?_⟩
  decide

end Sample

end RecordStore
