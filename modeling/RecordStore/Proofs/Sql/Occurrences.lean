import Mathlib.Data.List.Forall2
import Mathlib.Data.List.Induction
import RecordStore.Proofs.Sql.Listing
import RecordStore.Proofs.Sql.FromClause

/-! # Where an expression mentions record types

An expression is made of its operands, these of theirs, and so on; a position says which operand to
take at each step (`Expr.At`).  Positions are ordered as the text is, from left to right, and nested
queries have none.

Collecting the record types of an expression adds, in this order, the record type of each column
that introduces one: of a column whose record type is neither listed beforehand nor that of a column
further to the left (`Expr.collectRecords_reports`). -/

namespace RecordStore

namespace Expr

/-! ### Positions -/

/-- The expressions that an expression is made of, from left to right; a nested query is none. -/
def operands : Expr → List Expr
  | column _ | literal _ | bound _ | fieldValue .. | interval .. | wildcard | subquery _
  | existsRow _ => []
  | call _ args => args
  | binary _ left right => [left, right]
  | logical _ operands => operands
  | not operand | isNull _ operand | inValues _ operand _ | inSelect _ operand _
  | temporal _ operand => [operand]
  | inExprs _ operand items => operand :: items
  | caseWhen operand branches otherwise =>
    operand.toList ++ branches.flatMap (fun (condition, result) => [condition, result]) ++
      otherwise.toList
  | search _ columns _ => columns

/-- The expression that stands at a position of another one. -/
inductive At : Expr → List Nat → Expr → Prop where
  | here (e : Expr) : At e [] e
  | inside {e operand part : Expr} {i : Nat} {position : List Nat}
      (h : e.operands[i]? = some operand) (hpart : At operand position part) :
      At e (i :: position) part

/-- A column of the record type stands at the position. -/
def MentionsAt (e : Expr) (position : List Nat) (r : RecordType) : Prop :=
  ∃ field, e.At position (.col r field)

/-- The column at the position is the first one of a record type that is not listed yet. -/
def Introduces (e : Expr) (seen : List RecordType) (position : List Nat) : Prop :=
  ∃ r, e.MentionsAt position r ∧ seen.any (·.sameAs r) = false ∧
    ∀ position' < position, ∀ r', e.MentionsAt position' r' → r'.sameAs r = false

/-! ### Induction on operands -/

theorem sizeOf_lt_of_mem_branches {branches : List (Expr × Expr)} {e : Expr}
    (h : e ∈ branches.flatMap fun (condition, result) => [condition, result]) :
    sizeOf e < sizeOf branches := by
  obtain ⟨⟨condition, result⟩, hbranch, he⟩ := List.mem_flatMap.mp h
  have hlt := List.sizeOf_lt_of_mem hbranch
  have hpair : sizeOf e < sizeOf (condition, result) := by
    simp only [List.mem_cons, List.not_mem_nil, or_false] at he
    rw [Prod.mk.sizeOf_spec]
    rcases he with rfl | rfl <;> omega
  omega

theorem sizeOf_lt_of_mem_operands {e operand : Expr} (h : operand ∈ e.operands) :
    sizeOf operand < sizeOf e := by
  cases e with
  | column | literal | bound | fieldValue | interval | wildcard | subquery | existsRow => cases h
  | not | isNull | inValues | inSelect | temporal =>
      obtain rfl := List.mem_singleton.mp h
      simp only [Expr.not.sizeOf_spec, Expr.isNull.sizeOf_spec, Expr.inValues.sizeOf_spec,
        Expr.inSelect.sizeOf_spec, Expr.temporal.sizeOf_spec]
      omega
  | call _ es | logical _ es | search _ es _ =>
      have hlt : sizeOf operand < sizeOf es := List.sizeOf_lt_of_mem h
      simp
      omega
  | binary _ left right =>
      rw [Expr.binary.sizeOf_spec]
      rcases List.mem_pair.mp h with rfl | rfl <;> omega
  | inExprs _ e items =>
      rcases List.mem_cons.mp h with rfl | h
      · simp
        omega
      · have hlt := List.sizeOf_lt_of_mem h
        simp
        omega
  | caseWhen e? branches e?' =>
      rcases List.mem_append.mp h with h | h
      · rcases List.mem_append.mp h with h | h
        · obtain rfl := Option.mem_toList.mp h
          simp
          omega
        · have hlt := sizeOf_lt_of_mem_branches h
          simp
          omega
      · obtain rfl := Option.mem_toList.mp h
        simp
        omega

/-- What holds of an expression if it holds of its operands holds of every expression. -/
theorem induction_on_operands {P : Expr → Prop} (h : ∀ e, (∀ e' ∈ e.operands, P e') → P e)
    (e : Expr) : P e :=
  h e fun e' he' =>
    have := sizeOf_lt_of_mem_operands he'
    induction_on_operands h e'
termination_by sizeOf e

theorem mentionsAll_eq_flatMap (es : List Expr) : mentionsAll es = es.flatMap mentions := by
  induction es with
  | nil => rfl
  | cons e es ih => rw [mentionsAll, List.flatMap_cons, ih]

theorem mentionsOptional_eq_flatMap (e? : Option Expr) :
    mentionsOptional e? = e?.toList.flatMap mentions := by
  cases e? with
  | none => rfl
  | some e => exact (List.append_nil _).symm

theorem mentionsBranches_eq_flatMap (branches : List (Expr × Expr)) : mentionsBranches branches =
    (branches.flatMap fun (condition, result) => [condition, result]).flatMap mentions := by
  induction branches with
  | nil => rfl
  | cons branch rest ih =>
      rw [mentionsBranches, ih, List.flatMap_cons, List.flatMap_append]
      simp

/-- Apart from columns an expression mentions what its operands mention. -/
theorem mentions_eq_flatMap {e : Expr} (h : ∀ c, e ≠ .column c) :
    e.mentions = e.operands.flatMap mentions := by
  cases e with
  | column c => exact absurd rfl (h c)
  | literal | bound | fieldValue | interval | wildcard | subquery | existsRow => rfl
  | not | isNull | inValues | inSelect | temporal => exact (List.append_nil _).symm
  | call | logical | search => exact mentionsAll_eq_flatMap _
  | binary _ left right =>
      rw [mentions, operands, List.flatMap_cons, List.flatMap_singleton]
  | inExprs _ e items =>
      rw [mentions, operands, List.flatMap_cons, mentionsAll_eq_flatMap]
  | caseWhen e? branches e?' =>
      rw [mentions, operands, List.flatMap_append, List.flatMap_append, mentionsOptional_eq_flatMap,
        mentionsBranches_eq_flatMap, mentionsOptional_eq_flatMap]

/-! ### The places of columns -/

theorem mentionsAt_column {c : ColumnRef} {position : List Nat} {r : RecordType} :
    (column c).MentionsAt position r ↔ position = [] ∧ r = c.record := by
  constructor
  · rintro ⟨field, h⟩
    cases h with
    | here => exact ⟨rfl, rfl⟩
    | inside h => cases h
  · rintro ⟨rfl, rfl⟩
    exact ⟨c.field, .here _⟩

/-- Where a column stands in an expression that is none itself, it stands in an operand. -/
theorem mentionsAt_iff {e : Expr} (h : ∀ c, e ≠ .column c) {position : List Nat} {r : RecordType} :
    e.MentionsAt position r ↔ ∃ i operand rest, position = i :: rest ∧
      e.operands[i]? = some operand ∧ operand.MentionsAt rest r := by
  constructor
  · rintro ⟨field, hat⟩
    cases hat with
    | here => exact absurd rfl (h _)
    | inside hoperand hpart => exact ⟨_, _, _, rfl, hoperand, field, hpart⟩
  · rintro ⟨i, operand, rest, rfl, hoperand, field, hpart⟩
    exact ⟨field, .inside hoperand hpart⟩

/-- The places are in order, and they are those of the columns described, with their record
types. -/
structure ArePlaces (columnAt : List Nat → RecordType → Prop)
    (places : List (List Nat × RecordType)) : Prop where
  ordered : places.Pairwise fun p p' => p.1 < p'.1
  mem_iff : ∀ {position r}, (position, r) ∈ places ↔ columnAt position r

/-- The columns of a list of expressions, the first of which has this number. -/
def MentionsAmong (es : List Expr) (first : Nat) (position : List Nat) (r : RecordType) : Prop :=
  ∃ i e rest, position = (first + i) :: rest ∧ es[i]? = some e ∧ e.MentionsAt rest r

theorem mentionsAmong_cons {e : Expr} {es : List Expr} {first : Nat} {position : List Nat}
    {r : RecordType} : MentionsAmong (e :: es) first position r ↔
      (∃ rest, position = first :: rest ∧ e.MentionsAt rest r) ∨
        MentionsAmong es (first + 1) position r := by
  constructor
  · rintro ⟨i, e', rest, rfl, he', h⟩
    cases i with
    | zero =>
        obtain rfl : e = e' := Option.some.inj he'
        exact .inl ⟨rest, rfl, h⟩
    | succ i => exact .inr ⟨i, e', rest, by rw [Nat.add_right_comm]; rfl, he', h⟩
  · rintro (⟨rest, rfl, h⟩ | ⟨i, e', rest, rfl, he', h⟩)
    · exact ⟨0, e, rest, rfl, rfl, h⟩
    · exact ⟨i + 1, e', rest, by rw [Nat.add_right_comm]; rfl, he', h⟩

/-- The places of several expressions are put one after the other. -/
theorem exists_places_among (es : List Expr) (first : Nat)
    (h : ∀ e ∈ es, ∃ places, e.mentions = places.map (·.2) ∧ ArePlaces e.MentionsAt places) :
    ∃ places, es.flatMap mentions = places.map (·.2) ∧
      ArePlaces (MentionsAmong es first) places := by
  induction es generalizing first with
  | nil =>
      refine ⟨[], rfl, ⟨.nil, ?_⟩⟩
      refine ⟨nofun, ?_⟩
      rintro ⟨i, e, rest, -, he, -⟩
      cases he
  | cons e es ih =>
      obtain ⟨own, hown, hownPlaces⟩ := h e List.mem_cons_self
      obtain ⟨others, hothers, hotherPlaces⟩ :=
        ih (first + 1) fun e' he' => h e' (List.mem_cons_of_mem e he')
      refine ⟨own.map (fun p => (first :: p.1, p.2)) ++ others, ?_, ?_, ?_⟩
      · rw [List.flatMap_cons, hown, hothers, List.map_append, List.map_map]
        rfl
      · refine List.pairwise_append.mpr ⟨?_, hotherPlaces.ordered, ?_⟩
        · rw [List.pairwise_map]
          exact hownPlaces.ordered.imp fun hlt =>
            List.cons_lt_cons_iff.mpr (.inr ⟨rfl, hlt⟩)
        · intro p hp p' hp'
          obtain ⟨q, -, rfl⟩ := List.mem_map.mp hp
          obtain ⟨i, e', rest, hposition, -⟩ := hotherPlaces.mem_iff.mp hp'
          rw [hposition]
          exact List.cons_lt_cons_iff.mpr (.inl (by omega))
      · intro position r
        rw [List.mem_append, mentionsAmong_cons, hotherPlaces.mem_iff, List.mem_map]
        refine or_congr_left ?_
        constructor
        · rintro ⟨p, hp, heq⟩
          cases heq
          exact ⟨p.1, rfl, hownPlaces.mem_iff.mp hp⟩
        · rintro ⟨rest, rfl, hrest⟩
          exact ⟨(rest, r), hownPlaces.mem_iff.mpr hrest, rfl⟩

/-- The record types that an expression mentions are those of its columns, from left to right. -/
theorem exists_places (e : Expr) :
    ∃ places, e.mentions = places.map (·.2) ∧ ArePlaces e.MentionsAt places := by
  induction e using induction_on_operands with
  | h e ih =>
      by_cases hcolumn : ∃ c, e = .column c
      · obtain ⟨c, rfl⟩ := hcolumn
        refine ⟨[([], c.record)], rfl, List.pairwise_singleton _ _, ?_⟩
        intro position r
        rw [mentionsAt_column, List.mem_singleton, Prod.mk.injEq]
      · have hcolumn : ∀ c, e ≠ .column c := fun c heq => hcolumn ⟨c, heq⟩
        obtain ⟨places, hmentions, hplaces⟩ := exists_places_among e.operands 0 ih
        refine ⟨places, (mentions_eq_flatMap hcolumn).trans hmentions, hplaces.ordered, ?_⟩
        intro position r
        rw [hplaces.mem_iff, mentionsAt_iff hcolumn]
        unfold MentionsAmong
        simp only [Nat.zero_add]

end Expr

/-! ### Adding what is mentioned -/

/-- Adding the record types of places adds that of each place which is the first of a record type
that is not listed. -/
theorem exists_first_places {places : List (List Nat × RecordType)}
    (hordered : places.Pairwise fun p p' => p.1 < p'.1) (seen : List RecordType) :
    ∃ firsts : List (List Nat × RecordType), firsts.Sublist places ∧
      (places.map (·.2)).foldl addRecord seen = seen ++ firsts.map (·.2) ∧
      ∀ p ∈ places, p ∈ firsts ↔ seen.any (·.sameAs p.2) = false ∧
        ∀ p' ∈ places, p'.1 < p.1 → p'.2.sameAs p.2 = false := by
  induction places using List.reverseRecOn with
  | nil => exact ⟨[], .slnil, (List.append_nil seen).symm, fun p hp => by cases hp⟩
  | append_singleton places last ih =>
      obtain ⟨hordered, -, hlast⟩ := List.pairwise_append.mp hordered
      replace hlast (p) (hp : p ∈ places) : p.1 < last.1 := hlast p hp last List.mem_cons_self
      obtain ⟨firsts, hsublist, hfold, hfirst⟩ := ih hordered
      have hlisted : (seen ++ firsts.map (·.2)).any (·.sameAs last.2) = false ↔
          seen.any (·.sameAs last.2) = false ∧ ∀ p ∈ places, p.2.sameAs last.2 = false := by
        rw [← hfold, any_foldl_addRecord, Bool.or_eq_false_iff, List.any_map, List.any_eq_false]
        simp
      -- The last place comes before none of the others.
      have hothers {p} (hp : p ∈ places) : (∀ p' ∈ places ++ [last], p'.1 < p.1 →
          p'.2.sameAs p.2 = false) ↔ ∀ p' ∈ places, p'.1 < p.1 → p'.2.sameAs p.2 = false := by
        rw [List.forall_mem_append, List.forall_mem_singleton]
        exact and_iff_left fun hlt => absurd (hlast p hp) (List.lt_asymm hlt)
      have hlastFirst : (∀ p' ∈ places ++ [last], p'.1 < last.1 → p'.2.sameAs last.2 = false) ↔
          ∀ p ∈ places, p.2.sameAs last.2 = false := by
        rw [List.forall_mem_append, List.forall_mem_singleton]
        constructor
        · exact fun h p hp => h.1 p hp (hlast p hp)
        · exact fun h => ⟨fun p hp _ => h p hp, fun hlt => absurd hlt (List.lt_irrefl _)⟩
      have hnew : last ∉ places := fun hmem => List.lt_irrefl _ (hlast last hmem)
      rw [List.map_append, List.foldl_append, hfold]
      cases hseen : (seen ++ firsts.map (·.2)).any (·.sameAs last.2) with
      | true =>
          refine ⟨firsts, hsublist.trans (List.sublist_append_left _ _), if_pos hseen, ?_⟩
          intro p hp
          rcases List.mem_append.mp hp with hp | hp
          · rw [hothers hp, hfirst p hp]
          · obtain rfl := List.mem_singleton.mp hp
            rw [hlastFirst, ← hlisted, hseen]
            exact iff_of_false (fun hmem => hnew (hsublist.subset hmem)) nofun
      | false =>
          refine ⟨firsts ++ [last], hsublist.append_right _, ?_, ?_⟩
          · rw [List.map_append, ← List.append_assoc]
            exact if_neg (ne_true_of_eq_false hseen)
          · intro p hp
            rcases List.mem_append.mp hp with hp | hp
            · rw [hothers hp, ← hfirst p hp, List.mem_append, List.mem_singleton]
              exact or_iff_left fun heq => hnew (heq ▸ hp)
            · obtain rfl := List.mem_singleton.mp hp
              rw [hlastFirst, ← hlisted, hseen]
              exact iff_of_true (List.mem_append_right _ List.mem_cons_self) rfl

/-- Collecting the record types of an expression keeps those that are listed and adds, from left to
right, the record type of each column that introduces one.  No name is listed twice, and what is
listed afterwards was listed before or belongs to a column of the expression. -/
theorem Expr.collectRecords_reports (e : Expr) {seen : List RecordType}
    (hseen : seen.Pairwise fun r r' => r.sameAs r' = false) :
    ∃ (added : List RecordType) (positions : List (List Nat)),
      e.collectRecords seen = seen ++ added ∧
      (seen ++ added).Pairwise (fun r r' => r.sameAs r' = false) ∧
      positions.Pairwise (· < ·) ∧
      List.Forall₂ e.MentionsAt positions added ∧
      (∀ position, position ∈ positions ↔ e.Introduces seen position) ∧
      ∀ r, (seen ++ added).any (·.sameAs r) = true ↔
        seen.any (·.sameAs r) = true ∨
          ∃ position r', e.MentionsAt position r' ∧ r'.sameAs r = true := by
  obtain ⟨places, hmentions, hplaces⟩ := e.exists_places
  obtain ⟨firsts, hsublist, hfold, hfirst⟩ := exists_first_places hplaces.ordered seen
  rw [← hmentions] at hfold
  have hmem {position r} (h : (position, r) ∈ firsts) : e.MentionsAt position r :=
    hplaces.mem_iff.mp (hsublist.subset h)
  refine ⟨firsts.map (·.2), firsts.map (·.1), (collectRecords_eq seen e).trans hfold, ?_, ?_, ?_,
    ?_, ?_⟩
  · exact hfold ▸ pairwise_foldl_addRecord e.mentions hseen
  · exact List.pairwise_map.mpr (hplaces.ordered.sublist hsublist)
  · rw [List.forall₂_map_left_iff, List.forall₂_map_right_iff, List.forall₂_same]
    exact fun p hp => hmem hp
  · intro position
    rw [List.mem_map]
    constructor
    · rintro ⟨⟨_, r⟩, hp, rfl⟩
      obtain ⟨hunlisted, hbefore⟩ := (hfirst _ (hsublist.subset hp)).mp hp
      exact ⟨r, hmem hp, hunlisted, fun position' hlt r' h =>
        hbefore (position', r') (hplaces.mem_iff.mpr h) hlt⟩
    · rintro ⟨r, h, hunlisted, hbefore⟩
      refine ⟨(position, r), (hfirst _ (hplaces.mem_iff.mpr h)).mpr ⟨hunlisted, ?_⟩, rfl⟩
      exact fun p hp hlt => hbefore p.1 hlt p.2 (hplaces.mem_iff.mp hp)
  · intro r
    rw [← hfold, any_foldl_addRecord, Bool.or_eq_true, hmentions, List.any_map]
    refine or_congr_right (List.any_eq_true.trans ?_)
    constructor
    · rintro ⟨p, hp, hsame⟩
      exact ⟨p.1, p.2, hplaces.mem_iff.mp hp, hsame⟩
    · rintro ⟨position, r', h, hsame⟩
      exact ⟨(position, r'), hplaces.mem_iff.mpr h, hsame⟩

namespace Sample

/-- Chooses between an item's tag, if an order of it is found, and its name. -/
def labelOfOrdered : Expr :=
  .caseWhen (some (.col schema.type "id"))
    [(.inSelect false (.col orders "item") { record := tags }, .col tags "label")]
    (some (.call "upper" [.col orders "id", .col schema.type "name"]))

theorem records_of_labelOfOrdered :
    labelOfOrdered.collectRecords [tags] = [tags, schema.type, orders] ∧
      ∃ position position' : List Nat, position < position' ∧
        labelOfOrdered.MentionsAt position schema.type ∧
        labelOfOrdered.MentionsAt position' orders ∧
        ∀ place, labelOfOrdered.Introduces [tags] place ↔ place = position ∨ place = position' := by
  have hrecords : labelOfOrdered.collectRecords [tags] = [tags, schema.type, orders] := by decide
  obtain ⟨added, positions, hadded, -, hordered, hat, hintroduces, -⟩ :=
    labelOfOrdered.collectRecords_reports (List.pairwise_singleton _ tags)
  obtain rfl : added = [schema.type, orders] :=
    List.append_cancel_left (hadded.symm.trans hrecords)
  obtain ⟨position, rest, hfirst, hrest, rfl⟩ := List.forall₂_cons_right_iff.mp hat
  obtain ⟨position', others, hsecond, hothers, rfl⟩ := List.forall₂_cons_right_iff.mp hrest
  obtain rfl := List.forall₂_nil_right_iff.mp hothers
  have hlt : position < position' := List.rel_of_pairwise_cons hordered List.mem_cons_self
  refine ⟨hrecords, position, position', hlt, hfirst, hsecond, fun place => ?_⟩
  rw [← hintroduces, List.mem_pair]

end Sample

end RecordStore
