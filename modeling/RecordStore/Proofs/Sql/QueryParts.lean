import Mathlib.Data.List.Nodup
import RecordStore.Proofs.Sample
import RecordStore.Select

/-! # Queries from their parts

A part takes a slot when a query may have it only once: a singular clause, or the override of a
field.  Parts build a query if and only if no slot is taken twice, and the query is determined by
which parts there are and by the order of the joins, of the overrides and of the definitions.
Otherwise the error is that of the first part whose slot is taken (`Select.ofParts_by_slots`). -/

namespace RecordStore

attribute [ext] SelectOf

namespace SelectPart

/-- What a query may be given only once. -/
inductive Slot where
  | clause (c : SingularClause)
  | override (field : String)
deriving DecidableEq

/-- The error of the second part with the slot. -/
def Slot.refusal : Slot → StatementError
  | .clause c => .invalidClause (.repeated c)
  | .override field => .invalidClause (.overriddenTwice field)

/-- The slot that a part takes. -/
def slot? : SelectPart → Option Slot
  | filter _ => some (.clause .filter)
  | grouping _ => some (.clause .grouping)
  | ordering _ => some (.clause .ordering)
  | limit _ => some (.clause .limit)
  | locking => some (.clause .locking)
  | distinct => some (.clause .distinct)
  | override o => some (.override o.field)
  | join _ | definition _ => none

/-- The join that a part is. -/
def join? : SelectPart → Option Join
  | join j => some j
  | _ => none

/-- The override that a part is. -/
def override? : SelectPart → Option FieldExpr
  | override o => some o
  | _ => none

/-- The definition that a part is. -/
def definition? : SelectPart → Option FieldExpr
  | definition d => some d
  | _ => none

/-- The slots that parts take, one after the other. -/
def slots (parts : List SelectPart) : List Slot := parts.filterMap slot?

variable {parts before : List SelectPart} {p : SelectPart} {slot : Slot}

theorem mem_slots : slot ∈ slots parts ↔ ∃ p ∈ parts, p.slot? = some slot := List.mem_filterMap

theorem slots_append_singleton (parts : List SelectPart) (p : SelectPart) :
    slots (parts ++ [p]) = slots parts ++ p.slot?.toList := by
  unfold slots
  rw [List.filterMap_append]
  cases p <;> rfl

/-- A part takes a slot that is free, or it takes none. -/
def IsFree (before : List SelectPart) (p : SelectPart) : Prop :=
  ∀ slot ∈ p.slot?, slot ∉ slots before

theorem not_isFree_iff :
    ¬ IsFree before p ↔ ∃ slot, p.slot? = some slot ∧ slot ∈ slots before := by
  simp [IsFree]

theorem nodup_slots_append_singleton :
    (slots (before ++ [p])).Nodup ↔ (slots before).Nodup ∧ IsFree before p := by
  rw [slots_append_singleton]
  unfold IsFree
  cases p.slot? with
  | none => simp
  | some slot => simp [List.nodup_append', List.disjoint_singleton]

end SelectPart

open SelectPart

namespace Select

variable {record : RecordType} {s s' : Select} {parts before : List SelectPart} {p : SelectPart}

/-- The query of a type that has these parts and nothing else. -/
structure Has (record : RecordType) (parts : List SelectPart) (s : Select) : Prop where
  record_eq : s.record = record
  selection_eq : s.selection = .fields
  filter_iff : ∀ condition, s.filter = some condition ↔ .filter condition ∈ parts
  grouping_iff : ∀ exprs, s.grouping = some exprs ↔ .grouping exprs ∈ parts
  ordering_iff : ∀ keys, s.ordering = some keys ↔ .ordering keys ∈ parts
  limit_iff : ∀ l, s.limit = some l ↔ .limit l ∈ parts
  locking_iff : s.locking = true ↔ .locking ∈ parts
  distinct_iff : s.distinct = true ↔ .distinct ∈ parts
  joins_eq : s.joins = parts.filterMap join?
  overrides_eq : s.overrides = parts.filterMap override?
  definitions_eq : s.definitions = parts.filterMap definition?

namespace Has

/-- The parts determine the query. -/
theorem unique (h : Has record parts s) (h' : Has record parts s') : s = s' := by
  refine SelectOf.ext (h.record_eq.trans h'.record_eq.symm)
    (h.selection_eq.trans h'.selection_eq.symm) ?filter (h.joins_eq.trans h'.joins_eq.symm)
    ?grouping ?ordering ?limit ?locking ?distinct (h.overrides_eq.trans h'.overrides_eq.symm)
    (h.definitions_eq.trans h'.definitions_eq.symm)
  case filter => exact Option.ext fun e => (h.filter_iff e).trans (h'.filter_iff e).symm
  case grouping => exact Option.ext fun es => (h.grouping_iff es).trans (h'.grouping_iff es).symm
  case ordering => exact Option.ext fun ks => (h.ordering_iff ks).trans (h'.ordering_iff ks).symm
  case limit => exact Option.ext fun l => (h.limit_iff l).trans (h'.limit_iff l).symm
  case locking => exact Bool.eq_iff_iff.mpr (h.locking_iff.trans h'.locking_iff.symm)
  case distinct => exact Bool.eq_iff_iff.mpr (h.distinct_iff.trans h'.distinct_iff.symm)

/-- Only the orders among the joins, the overrides and the definitions matter. -/
theorem of_perm {parts' : List SelectPart} (h : Has record parts s) (hperm : parts.Perm parts')
    (hjoins : parts.filterMap join? = parts'.filterMap join?)
    (hoverrides : parts.filterMap override? = parts'.filterMap override?)
    (hdefinitions : parts.filterMap definition? = parts'.filterMap definition?) :
    Has record parts' s where
  record_eq := h.record_eq
  selection_eq := h.selection_eq
  filter_iff condition := (h.filter_iff condition).trans hperm.mem_iff
  grouping_iff exprs := (h.grouping_iff exprs).trans hperm.mem_iff
  ordering_iff keys := (h.ordering_iff keys).trans hperm.mem_iff
  limit_iff l := (h.limit_iff l).trans hperm.mem_iff
  locking_iff := h.locking_iff.trans hperm.mem_iff
  distinct_iff := h.distinct_iff.trans hperm.mem_iff
  joins_eq := h.joins_eq.trans hjoins
  overrides_eq := h.overrides_eq.trans hoverrides
  definitions_eq := h.definitions_eq.trans hdefinitions

/-- The query without parts. -/
theorem nil (record : RecordType) : Has record [] { record } := by
  constructor <;> simp

end Has

/-! ### One more part -/

/-- The slot is taken in the query. -/
def hasTaken (s : Select) : Slot → Bool
  | .clause .filter => s.filter.isSome
  | .clause .grouping => s.grouping.isSome
  | .clause .ordering => s.ordering.isSome
  | .clause .limit => s.limit.isSome
  | .clause .locking => s.locking
  | .clause .distinct => s.distinct
  | .override field => s.overrides.any (·.field == field)

/-- A query with a part in its place, whatever has been there. -/
def put (s : Select) : SelectPart → Select
  | .filter condition => { s with filter := some condition }
  | .join j => { s with joins := s.joins ++ [j] }
  | .grouping exprs => { s with grouping := some exprs }
  | .ordering keys => { s with ordering := some keys }
  | .limit l => { s with limit := some l }
  | .locking => { s with locking := true }
  | .distinct => { s with distinct := true }
  | .override o => { s with overrides := s.overrides ++ [o] }
  | .definition d => { s with definitions := s.definitions ++ [d] }

/-- A part is put in its place unless its slot is taken. -/
theorem add_eq (s : Select) (p : SelectPart) :
    s.add p = match p.slot? with
      | some slot => if s.hasTaken slot then .error slot.refusal else .ok (s.put p)
      | none => .ok (s.put p) := by
  cases p <;> rfl

/-- The slots taken in a query are those of its parts. -/
theorem Has.hasTaken_iff (h : Has record parts s) (slot : Slot) :
    s.hasTaken slot = true ↔ slot ∈ slots parts := by
  rw [mem_slots]
  constructor
  · intro htaken
    cases slot with
    | override field =>
        obtain ⟨o, ho, hfield⟩ := List.any_eq_true.mp htaken
        rw [h.overrides_eq, List.mem_filterMap] at ho
        obtain ⟨p, hp, ho⟩ := ho
        cases p <;> cases ho
        exact ⟨_, hp, by rw [slot?, eq_of_beq hfield]⟩
    | clause c =>
        cases c with
        | filter =>
            obtain ⟨condition, hfilter⟩ := Option.isSome_iff_exists.mp htaken
            exact ⟨_, (h.filter_iff condition).mp hfilter, rfl⟩
        | grouping =>
            obtain ⟨exprs, hgrouping⟩ := Option.isSome_iff_exists.mp htaken
            exact ⟨_, (h.grouping_iff exprs).mp hgrouping, rfl⟩
        | ordering =>
            obtain ⟨keys, hordering⟩ := Option.isSome_iff_exists.mp htaken
            exact ⟨_, (h.ordering_iff keys).mp hordering, rfl⟩
        | limit =>
            obtain ⟨l, hlimit⟩ := Option.isSome_iff_exists.mp htaken
            exact ⟨_, (h.limit_iff l).mp hlimit, rfl⟩
        | locking => exact ⟨_, h.locking_iff.mp htaken, rfl⟩
        | distinct => exact ⟨_, h.distinct_iff.mp htaken, rfl⟩
  · rintro ⟨p, hp, hslot⟩
    cases p with
    | filter condition =>
        cases hslot
        exact Option.isSome_iff_exists.mpr ⟨condition, (h.filter_iff condition).mpr hp⟩
    | grouping exprs =>
        cases hslot
        exact Option.isSome_iff_exists.mpr ⟨exprs, (h.grouping_iff exprs).mpr hp⟩
    | ordering keys =>
        cases hslot
        exact Option.isSome_iff_exists.mpr ⟨keys, (h.ordering_iff keys).mpr hp⟩
    | limit l =>
        cases hslot
        exact Option.isSome_iff_exists.mpr ⟨l, (h.limit_iff l).mpr hp⟩
    | locking => cases hslot; exact h.locking_iff.mpr hp
    | distinct => cases hslot; exact h.distinct_iff.mpr hp
    | override o =>
        cases hslot
        have ho : o ∈ s.overrides := by
          rw [h.overrides_eq]
          exact List.mem_filterMap.mpr ⟨_, hp, rfl⟩
        exact List.any_eq_true.mpr ⟨o, ho, BEq.rfl⟩
    | join j => cases hslot
    | definition d => cases hslot

/-- A part whose slot is free leaves all other parts in their places. -/
theorem Has.put (h : Has record before s) (hfree : IsFree before p) :
    Has record (before ++ [p]) (s.put p) := by
  -- Nothing is in the place of a part yet whose slot is free.
  have hnone (p' : SelectPart) {slot : Slot} (hp : p.slot? = some slot)
      (hp' : p'.slot? = some slot) : p' ∉ before :=
    fun hmem => hfree slot hp (mem_slots.mpr ⟨p', hmem, hp'⟩)
  constructor
  case record_eq => cases p <;> exact h.record_eq
  case selection_eq => cases p <;> exact h.selection_eq
  case filter_iff =>
    intro condition
    cases p with
    | filter c => simp [Select.put, hnone (.filter condition) rfl rfl, eq_comm]
    | _ => simp [Select.put, h.filter_iff]
  case grouping_iff =>
    intro exprs
    cases p with
    | grouping es => simp [Select.put, hnone (.grouping exprs) rfl rfl, eq_comm]
    | _ => simp [Select.put, h.grouping_iff]
  case ordering_iff =>
    intro keys
    cases p with
    | ordering ks => simp [Select.put, hnone (.ordering keys) rfl rfl, eq_comm]
    | _ => simp [Select.put, h.ordering_iff]
  case limit_iff =>
    intro l
    cases p with
    | limit l' => simp [Select.put, hnone (.limit l) rfl rfl, eq_comm]
    | _ => simp [Select.put, h.limit_iff]
  case locking_iff => cases p <;> simp [Select.put, h.locking_iff]
  case distinct_iff => cases p <;> simp [Select.put, h.distinct_iff]
  case joins_eq => cases p <;> simp [Select.put, h.joins_eq, join?]
  case overrides_eq => cases p <;> simp [Select.put, h.overrides_eq, override?]
  case definitions_eq => cases p <;> simp [Select.put, h.definitions_eq, definition?]

/-- A part with a free slot is added to the parts. -/
theorem Has.add_of_isFree (h : Has record before s) (hfree : IsFree before p) :
    s.add p = .ok (s.put p) := by
  rw [add_eq]
  cases hslot : p.slot? with
  | none => rfl
  | some slot =>
      have htaken : s.hasTaken slot ≠ true := fun htaken =>
        hfree slot hslot ((h.hasTaken_iff slot).mp htaken)
      exact if_neg htaken

/-- A part with a slot that is taken is refused. -/
theorem Has.add_of_taken (h : Has record before s) {slot : Slot} (hslot : p.slot? = some slot)
    (htaken : slot ∈ slots before) : s.add p = .error slot.refusal := by
  rw [add_eq, hslot]
  exact if_pos ((h.hasTaken_iff slot).mpr htaken)

/-! ### All parts -/

/-- The first part whose slot is taken before it is refused with the error. -/
def RefusedAt (parts : List SelectPart) (e : StatementError) : Prop :=
  ∃ before p after slot, parts = before ++ p :: after ∧ (slots before).Nodup ∧
    p.slot? = some slot ∧ slot ∈ slots before ∧ e = slot.refusal

theorem RefusedAt.not_nodup {e : StatementError} (h : RefusedAt parts e) :
    ¬ (slots parts).Nodup := by
  obtain ⟨before, p, after, slot, rfl, -, hslot, htaken, -⟩ := h
  unfold slots at *
  rw [List.filterMap_append, List.filterMap_cons_some hslot]
  exact fun hnodup => (List.nodup_append.mp hnodup).2.2 slot htaken slot List.mem_cons_self rfl

/-- Parts are added until the first whose slot is taken. -/
theorem Has.foldlM_add (h : Has record before s) (hnodup : (slots before).Nodup)
    (parts : List SelectPart) :
    (∃ s', parts.foldlM add s = .ok s' ∧ Has record (before ++ parts) s' ∧
      (slots (before ++ parts)).Nodup) ∨
    ∃ e, parts.foldlM add s = .error e ∧ RefusedAt (before ++ parts) e := by
  induction parts generalizing before s with
  | nil =>
      rw [List.append_nil]
      exact .inl ⟨s, rfl, h, hnodup⟩
  | cons p parts ih =>
      by_cases hfree : IsFree before p
      · have hrest := ih (h.put hfree) (nodup_slots_append_singleton.mpr ⟨hnodup, hfree⟩)
        rw [List.append_assoc, List.singleton_append] at hrest
        rw [List.foldlM_cons, h.add_of_isFree hfree]
        exact hrest
      · obtain ⟨slot, hslot, htaken⟩ := not_isFree_iff.mp hfree
        rw [List.foldlM_cons, h.add_of_taken hslot htaken]
        exact .inr ⟨slot.refusal, rfl, before, p, parts, slot, rfl, hnodup, hslot, htaken, rfl⟩

/-- Parts build a query that has them, or one of them is refused. -/
theorem ofParts_cases (record : RecordType) (parts : List SelectPart) :
    (∃ s, ofParts record parts = .ok s ∧ Has record parts s ∧ (slots parts).Nodup) ∨
    ∃ e, ofParts record parts = .error e ∧ RefusedAt parts e :=
  (Has.nil record).foldlM_add List.nodup_nil parts

theorem ofParts_of_nodup (record : RecordType) (h : (slots parts).Nodup) :
    ∃ s, ofParts record parts = .ok s ∧ Has record parts s := by
  rcases ofParts_cases record parts with ⟨s, hs, hhas, -⟩ | ⟨e, -, hrefused⟩
  · exact ⟨s, hs, hhas⟩
  · exact (hrefused.not_nodup h).elim

theorem ofParts_eq_ok (h : ofParts record parts = .ok s) :
    Has record parts s ∧ (slots parts).Nodup := by
  rcases ofParts_cases record parts with ⟨s', hs', hhas, hnodup⟩ | ⟨e, he, -⟩
  · obtain rfl : s = s' := Except.ok.inj (h.symm.trans hs')
    exact ⟨hhas, hnodup⟩
  · cases h.symm.trans he

theorem ofParts_eq_error {e : StatementError} :
    ofParts record parts = .error e ↔ RefusedAt parts e := by
  constructor
  · intro h
    rcases ofParts_cases record parts with ⟨s, hs, -⟩ | ⟨e', he', hrefused⟩
    · cases h.symm.trans hs
    · obtain rfl : e = e' := Except.error.inj (h.symm.trans he')
      exact hrefused
  · rintro ⟨before, p, after, slot, rfl, hnodup, hslot, htaken, rfl⟩
    obtain ⟨s, hs, hhas⟩ := ofParts_of_nodup record hnodup
    unfold ofParts at *
    rw [List.foldlM_append, hs]
    change (p :: after).foldlM add s = _
    rw [List.foldlM_cons, hhas.add_of_taken hslot htaken]
    rfl

/-- Parts build a query if and only if each clause occurs at most once and each field is overridden
at most once.  The query has the parts in their places and depends on their order only among the
joins, among the overrides and among the definitions.  The error is that of the first part whose
clause or field has occurred. -/
theorem ofParts_by_slots (record : RecordType) (parts : List SelectPart) :
    ((∃ s, ofParts record parts = .ok s) ↔
      (∀ c, (slots parts).count (.clause c) ≤ 1) ∧
        ∀ field, (slots parts).count (.override field) ≤ 1) ∧
    (∀ s, ofParts record parts = .ok s → Has record parts s ∧
      ∀ parts', parts.Perm parts' →
        parts.filterMap join? = parts'.filterMap join? →
        parts.filterMap override? = parts'.filterMap override? →
        parts.filterMap definition? = parts'.filterMap definition? →
        ofParts record parts' = .ok s) ∧
    ∀ e, ofParts record parts = .error e ↔ RefusedAt parts e := by
  refine ⟨⟨?_, ?_⟩, ?_, fun _ => ofParts_eq_error⟩
  · rintro ⟨s, hs⟩
    have hcount := List.nodup_iff_count_le_one.mp (ofParts_eq_ok hs).2
    exact ⟨fun c => hcount _, fun field => hcount _⟩
  · rintro ⟨hclauses, hfields⟩
    have hnodup : (slots parts).Nodup := List.nodup_iff_count_le_one.mpr fun
      | .clause c => hclauses c
      | .override field => hfields field
    obtain ⟨s, hs, -⟩ := ofParts_of_nodup record hnodup
    exact ⟨s, hs⟩
  · intro s hs
    obtain ⟨hhas, hnodup⟩ := ofParts_eq_ok hs
    refine ⟨hhas, fun parts' hperm hjoins hoverrides hdefinitions => ?_⟩
    have hnodup' : (slots parts').Nodup := (hperm.filterMap slot?).nodup_iff.mp hnodup
    obtain ⟨s', hs', hhas'⟩ := ofParts_of_nodup record hnodup'
    rw [hs', (hhas.of_perm hperm hjoins hoverrides hdefinitions).unique hhas']

end Select

namespace Sample

/-- A condition between two overrides. -/
def itemParts : List SelectPart :=
  [.override ⟨"name", .literal (.text "hidden")⟩, .filter (.isNull true (.col schema.type "name")),
    .override ⟨"id", .literal (.integer 0)⟩]

/-- The query is the same whether its rows are locked first or last, and a field is not overridden
again. -/
theorem itemParts_placed : ∃ s,
    Select.ofParts schema.type (.locking :: itemParts) = .ok s ∧
    Select.ofParts schema.type (itemParts ++ [.locking]) = .ok s ∧
    s.locking = true ∧ s.overrides.map (·.field) = ["name", "id"] ∧
    Select.ofParts schema.type (itemParts ++ [.override ⟨"id", .wildcard⟩, .locking]) =
      .error (.invalidClause (.overriddenTwice "id")) := by
  have hplaced := Select.ofParts_by_slots schema.type (.locking :: itemParts)
  have hcount (slot : Slot) : (slots (.locking :: itemParts)).count slot ≤ 1 :=
    List.nodup_iff_count_le_one.mp (by decide) slot
  obtain ⟨s, hs⟩ := hplaced.1.mpr ⟨fun c => hcount _, fun field => hcount _⟩
  obtain ⟨hhas, hreordered⟩ := hplaced.2.1 s hs
  refine ⟨s, hs, hreordered _ (List.perm_append_singleton _ _).symm rfl rfl rfl,
    hhas.locking_iff.mpr List.mem_cons_self, by rw [hhas.overrides_eq]; rfl, ?_⟩
  have hrefused : Select.RefusedAt (itemParts ++ [.override ⟨"id", .wildcard⟩, .locking])
      (.invalidClause (.overriddenTwice "id")) :=
    ⟨itemParts, _, [.locking], .override "id", rfl, by decide, rfl, by decide, rfl⟩
  exact ((Select.ofParts_by_slots schema.type _).2.2 _).mpr hrefused

end Sample

end RecordStore
