import RecordStore.Proofs.Sql.FromClause

/-! # The record types of a statement

A query is listed twice: resolving it puts record types into its scope, and
`Statement.referencedRecords` reports record types without resolving it.  Both begin with the
selected record type and the joined ones and go on with what the query mentions.  The scope has also
what the conditions of the joins mention, which is not reported, and this is the only difference
between the two (`Select.scope_extends_referenced`). -/

namespace RecordStore

/-! ### Adding record types to a list -/

/-- What is listed is not added again. -/
theorem addRecord_of_any {seen : List RecordType} {r : RecordType}
    (h : seen.any (·.sameAs r) = true) : addRecord seen r = seen := if_pos h

/-- What is added to the additions is added to the sum. -/
theorem foldl_addRecord_addRecord (own seen : List RecordType) (r : RecordType) :
    (addRecord seen r).foldl addRecord own = addRecord (seen.foldl addRecord own) r := by
  cases hseen : seen.any (·.sameAs r) with
  | true =>
      have hlisted : (seen.foldl addRecord own).any (·.sameAs r) = true := by
        rw [any_foldl_addRecord, hseen, Bool.or_true]
      rw [addRecord_of_any hseen, addRecord_of_any hlisted]
  | false =>
      have hnew : addRecord seen r = seen ++ [r] := if_neg (ne_true_of_eq_false hseen)
      rw [hnew, List.foldl_append, List.foldl_cons, List.foldl_nil]

/-- Record types can be collected first and added afterwards. -/
theorem foldl_foldl_addRecord (own : List RecordType) (rs seen : List RecordType) :
    (rs.foldl addRecord seen).foldl addRecord own =
      rs.foldl addRecord (seen.foldl addRecord own) := by
  induction rs generalizing seen with
  | nil => rfl
  | cons r rs ih => rw [List.foldl_cons, ih, foldl_addRecord_addRecord, List.foldl_cons]

/-- A list stays as it is when nothing new is added, and only then. -/
theorem foldl_addRecord_eq_self_iff {rs seen : List RecordType} :
    rs.foldl addRecord seen = seen ↔ ∀ r ∈ rs, seen.any (·.sameAs r) = true := by
  constructor
  · intro h r hr
    rw [← h, any_foldl_addRecord, any_sameAs_of_mem hr, Bool.or_true]
  · intro h
    induction rs with
    | nil => rfl
    | cons r rs ih =>
        rw [List.foldl_cons, addRecord_of_any (h r List.mem_cons_self)]
        exact ih fun r' hr' => h r' (List.mem_cons_of_mem r hr')

/-! ### Queries -/

namespace Select

variable (s : Select)

/-- The record types that the conditions of the joins mention. -/
def joinMentions : List RecordType := Expr.mentionsAll (s.joins.map (·.on))

/-- Around a statement nothing is listed: its scope has what is reported and then what the
conditions of its joins mention. -/
theorem scopeRecords_eq_referenced :
    s.scopeRecords [] = s.joinMentions.foldl addRecord (Statement.select s).referencedRecords := by
  have hnothing (rs : List RecordType) : rs.filter (!Scope.lists [] ·) = rs :=
    List.filter_eq_self.mpr fun _ _ => rfl
  unfold scopeRecords
  dsimp only
  rw [hnothing, Expr.collectAll_eq, foldl_foldl_addRecord]
  rfl

/-- The scope of a query that compiles has the reported record types, in their order, followed by
those that only the condition of a join mentions.  So a record type is in the scope if it is
reported or a condition mentions it, and the two lists agree if and only if everything that a
condition mentions is reported. -/
theorem scope_extends_referenced {s : Select} {dialect : Dialect} {compiled : CompiledStatement}
    (h : s.compile dialect = .ok compiled) :
    ∃ q, (Statement.select s).resolve dialect = .ok (.query q) ∧
      compiled = (Command.query q).compiled dialect ∧
      let scope := q.scope.map (·.1)
      let reported := (Statement.select s).referencedRecords
      scope = s.joinMentions.foldl addRecord reported ∧
        (∀ r, scope.any (·.sameAs r) = true ↔
          reported.any (·.sameAs r) = true ∨ s.joinMentions.any (·.sameAs r) = true) ∧
        (scope = reported ↔ ∀ r ∈ s.joinMentions, reported.any (·.sameAs r) = true) := by
  obtain ⟨q, next, hselect, hresolve, hcompiled⟩ := resolve_of_compile h
  obtain ⟨-, -, columns, n₁, joins, n₂, filter, n₃, grouping, n₄, ordering, n₅, limit, -, -, -, -,
    -, -, hq⟩ := Resolve.selectWith_eq_ok.mp hselect
  have hscope : q.scope.map (·.1) =
      s.joinMentions.foldl addRecord (Statement.select s).referencedRecords := by
    rw [hq, ← scopeRecords_eq_referenced]
    exact s.entries_records [] 0
  refine ⟨q, hresolve, hcompiled, hscope, fun r => ?_, ?_⟩
  · rw [hscope, any_foldl_addRecord, Bool.or_eq_true]
  · rw [hscope]
    exact foldl_addRecord_eq_self_iff

end Select

namespace Sample

/-- All record types of the query are reported, since its condition mentions no other. -/
theorem taggedOrders_referenced :
    ∃ q, (Statement.select taggedOrders).resolve .sqlite = .ok (.query q) ∧
      q.scope.map (·.1) = (Statement.select taggedOrders).referencedRecords := by
  have hcompiles : ∃ compiled, taggedOrders.compile .sqlite = .ok compiled := ⟨_, rfl⟩
  obtain ⟨compiled, hcompiled⟩ := hcompiles
  obtain ⟨q, hresolve, -, -, -, hagree⟩ := Select.scope_extends_referenced hcompiled
  exact ⟨q, hresolve, hagree.mpr (by decide)⟩

/-- Items with their orders, where the condition of the join speaks of tags. -/
def ordersByTag : Select where
  record := schema.type
  joins := [⟨.inner, orders, .binary .eq (.col orders "item") (.col tags "item")⟩]

/-- The tags are read but not reported. -/
theorem ordersByTag_unreported :
    ∃ q, (Statement.select ordersByTag).resolve .sqlite = .ok (.query q) ∧
      q.scope.map (·.1) = [schema.type, orders, tags] ∧
      q.tables.map (·.record) = [schema.type, tags] ∧
      (Statement.select ordersByTag).referencedRecords = [schema.type, orders] := by
  refine ⟨_, rfl, ?_, ?_, ?_⟩ <;> rfl

end Sample

end RecordStore
