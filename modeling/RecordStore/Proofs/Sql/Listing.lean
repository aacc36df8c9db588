import RecordStore.Proofs.Sql.Inversion
import RecordStore.Proofs.Sql.Mentions

/-! # What the scopes of a query list

A query lists the record types it selects, joins and mentions, unless a query around it lists them
already.  So every record type that a query mentions is listed inside the query
(`Select.lists_innerScopes`), and everything that a query lists is one of its record types
(`Select.scopeRecords_subset`). -/

namespace RecordStore

/-! ### Lists without repetitions -/

theorem any_addRecord (seen : List RecordType) (r r' : RecordType) :
    (addRecord seen r).any (·.sameAs r') = (seen.any (·.sameAs r') || r.sameAs r') := by
  unfold addRecord
  cases hseen : seen.any (·.sameAs r) with
  | false => simp
  | true =>
      cases hsame : r.sameAs r' with
      | false => simp
      | true =>
          have hname : r.name = r'.name := beq_iff_eq.mp hsame
          unfold RecordType.sameAs at hseen ⊢
          rw [hname] at hseen
          simp [hseen]

theorem any_foldl_addRecord (rs seen : List RecordType) (r : RecordType) :
    (rs.foldl addRecord seen).any (·.sameAs r) =
      (seen.any (·.sameAs r) || rs.any (·.sameAs r)) := by
  induction rs generalizing seen with
  | nil => simp
  | cons r' rs ih => rw [List.foldl_cons, ih, any_addRecord, List.any_cons, Bool.or_assoc]

theorem addRecord_subset (seen : List RecordType) (r : RecordType) :
    addRecord seen r ⊆ seen ++ [r] := by
  unfold addRecord
  split
  · exact List.subset_append_left seen [r]
  · exact List.Subset.refl _

theorem foldl_addRecord_subset (rs seen : List RecordType) :
    rs.foldl addRecord seen ⊆ seen ++ rs := by
  induction rs generalizing seen with
  | nil => simp
  | cons r rs ih =>
      intro r' h
      rcases List.mem_append.mp (ih _ h) with h | h
      · rcases List.mem_append.mp (addRecord_subset seen r h) with h | h
        · exact List.mem_append_left _ h
        · exact List.mem_append_right _ (List.mem_singleton.mp h ▸ List.mem_cons_self)
      · exact List.mem_append_right _ (List.mem_cons_of_mem r h)

theorem mem_foldl_addRecord (rs : List RecordType) {seen : List RecordType} {r : RecordType}
    (h : r ∈ seen) : r ∈ rs.foldl addRecord seen := by
  induction rs generalizing seen with
  | nil => exact h
  | cons r' rs ih =>
      refine ih ?_
      unfold addRecord
      split
      · exact h
      · exact List.mem_append_left _ h

/-- Adding record types keeps the names apart. -/
theorem pairwise_foldl_addRecord (rs : List RecordType) {seen : List RecordType}
    (h : seen.Pairwise fun r r' => r.sameAs r' = false) :
    (rs.foldl addRecord seen).Pairwise fun r r' => r.sameAs r' = false := by
  induction rs generalizing seen with
  | nil => exact h
  | cons r rs ih =>
      refine ih ?_
      unfold addRecord
      split
      · exact h
      · next hnew =>
          refine List.pairwise_append.mpr ⟨h, List.pairwise_singleton _ r, ?_⟩
          intro r' hr' r'' hr''
          rw [List.mem_singleton.mp hr'']
          refine eq_false_of_ne_true fun hsame => ?_
          exact hnew (List.any_eq_true.mpr ⟨r', hr', hsame⟩)

/-- Of record types with different names those are added whose names are new. -/
theorem foldl_addRecord_of_pairwise (seen : List RecordType) {rs : List RecordType}
    (h : rs.Pairwise fun r r' => r.sameAs r' = false) :
    rs.foldl addRecord seen = seen ++ rs.filter fun r => !seen.any (·.sameAs r) := by
  induction h generalizing seen with
  | nil => simp
  | @cons r rs hr _ ih =>
      have hlater : rs.filter (fun r' => !(addRecord seen r).any (·.sameAs r')) =
          rs.filter fun r' => !seen.any (·.sameAs r') := by
        refine List.filter_congr fun r' hr' => ?_
        rw [any_addRecord, hr r' hr', Bool.or_false]
      rw [List.foldl_cons, ih, hlater, List.filter_cons]
      unfold addRecord
      cases seen.any (·.sameAs r) <;> simp

theorem any_sameAs_of_mem {rs : List RecordType} {r : RecordType} (h : r ∈ rs) :
    rs.any (·.sameAs r) = true :=
  List.any_eq_true.mpr ⟨r, h, beq_self_eq_true _⟩

/-! ### Scopes -/

namespace Scope

theorem lists_cons (s : Scope) (outer : Scopes) (r : RecordType) :
    lists (s :: outer) r = ((s.aliasOf? r).isSome || lists outer r) := rfl

theorem lists_append (inner outer : Scopes) (r : RecordType) :
    lists (inner ++ outer) r = (lists inner r || lists outer r) := by
  unfold lists
  rw [List.any_append]

/-- What inner scopes list belongs to them. -/
theorem owner_append (inner outer : Scopes) (r : RecordType) :
    owner? (inner ++ outer) r = if lists inner r then owner? inner r else owner? outer r := by
  induction inner with
  | nil => rfl
  | cons s inner ih =>
      rw [List.cons_append, owner?, owner?, lists_cons, ih]
      cases s.aliasOf? r <;> rfl

/-- A record type has an alias if it is an entry. -/
theorem isSome_aliasOf (s : Scope) (r : RecordType) :
    (s.aliasOf? r).isSome = (s.entries.map (·.1)).any (·.sameAs r) := by
  unfold aliasOf?
  rw [Option.isSome_map, List.isSome_find?, List.any_map]
  rfl

/-- Only the name of a record type decides whether it is listed. -/
theorem lists_congr (scopes : Scopes) {r r' : RecordType} (h : r.sameAs r' = true) :
    lists scopes r = lists scopes r' := by
  have hname : r.name = r'.name := beq_iff_eq.mp h
  unfold lists aliasOf? RecordType.sameAs
  rw [hname]

/-- What is listed has an owner, and nothing else has. -/
theorem isSome_owner (scopes : Scopes) (r : RecordType) :
    (owner? scopes r).isSome = lists scopes r := by
  induction scopes with
  | nil => rfl
  | cons s outer ih =>
      rw [lists_cons, owner?, ← ih]
      cases s.aliasOf? r <;> rfl

theorem exists_owner {scopes : Scopes} {r : RecordType} (h : lists scopes r = true) :
    ∃ scope a, owner? scopes r = some (scope, a) := by
  rw [← isSome_owner] at h
  obtain ⟨⟨scope, a⟩, howner⟩ := Option.isSome_iff_exists.mp h
  exact ⟨scope, a, howner⟩

/-- An alias belongs to an entry of the same name. -/
theorem entry_of_aliasOf {s : Scope} {r : RecordType} {a : Alias} (h : s.aliasOf? r = some a) :
    ∃ r', (r', a) ∈ s.entries ∧ r'.sameAs r = true := by
  unfold aliasOf? at h
  obtain ⟨⟨r', a'⟩, hfind, rfl⟩ := Option.map_eq_some_iff.mp h
  have hsame := List.find?_some hfind
  exact ⟨r', List.mem_of_find?_eq_some hfind, hsame⟩

/-- What has an entry has an alias. -/
theorem aliasOf_ne_none_of_entry {s : Scope} {r : RecordType} {a : Alias}
    (h : (r, a) ∈ s.entries) : s.aliasOf? r ≠ none := by
  unfold aliasOf?
  rw [ne_eq, Option.map_eq_none_iff, List.find?_eq_none]
  exact fun hnone => hnone _ h (beq_self_eq_true _)

/-- An override of a field is one of the scope's overrides. -/
theorem exists_override {s : Scope} {c : ColumnRef} {body : Expr}
    (h : s.overrideOf? c = some body) : ∃ o ∈ s.overrides, o.expr = body := by
  unfold overrideOf? at h
  split at h
  · obtain ⟨o, ho, hbody⟩ := Option.map_eq_some_iff.mp h
    exact ⟨o, List.mem_of_find?_eq_some ho, hbody⟩
  · cases h

end Scope

/-! ### Queries -/

namespace Select

variable (s : Select)

theorem collectAll_eq_mentions :
    Expr.collectAll s.referencedRecords (s.joins.map (·.on)) = s.mentions.foldl addRecord [] := by
  unfold referencedRecords mentions
  rw [Expr.collectAll_eq, Expr.collectAll_eq, Expr.collectAll_eq, Expr.collectOptional_eq,
    Expr.collectAll_eq, Expr.collectAll_eq]
  simp only [List.foldl_append]

variable (outer : Scopes) (next : Alias)

theorem entries_records : (s.entries outer next).map (·.1) = s.scopeRecords outer :=
  List.map_fst_zip (Nat.le_of_eq List.length_range'.symm)

theorem entries_labels : (s.entries outer next).map (·.2) =
    List.range' next (s.scopeRecords outer).length :=
  List.map_snd_zip (Nat.le_of_eq List.length_range')

/-- The tables of a query are those of its entries that no join brings in. -/
theorem mem_tableItems {entries : List (RecordType × Alias)} {item : TableItem} :
    item ∈ s.tableItems entries ↔ (item.record, item.label) ∈ entries ∧
      item.record.table = some item.table ∧
      s.joins.any (·.record.sameAs item.record) = false := by
  unfold tableItems
  rw [List.mem_filterMap]
  constructor
  · rintro ⟨⟨r, a⟩, hentry, hitem⟩
    dsimp only at hitem
    split at hitem
    · next table htable =>
        split at hitem
        · cases hitem
        · next hjoined =>
            cases hitem
            exact ⟨hentry, htable, eq_false_of_ne_true hjoined⟩
    · cases hitem
  · rintro ⟨hentry, htable, hjoined⟩
    refine ⟨_, hentry, ?_⟩
    dsimp only
    rw [htable, hjoined]
    rfl

/-- Whether a query reads a table without a join depends on the record types only. -/
theorem isEmpty_tableItems (entries : List (RecordType × Alias)) :
    (s.tableItems entries).isEmpty =
      (entries.map (·.1)).all fun r => r.isComputed || s.joins.any (·.record.sameAs r) := by
  induction entries with
  | nil => rfl
  | cons entry entries ih =>
      obtain ⟨r, a⟩ := entry
      rw [List.map_cons, List.all_cons, ← ih]
      unfold tableItems RecordType.isComputed
      rw [List.filterMap_cons]
      dsimp only
      cases r.table with
      | none => rfl
      | some table => cases s.joins.any (·.record.sameAs r) <;> rfl

theorem isSome_aliasOf (r : RecordType) :
    ((s.innerScope outer next).aliasOf? r).isSome = (s.scopeRecords outer).any (·.sameAs r) := by
  rw [Scope.isSome_aliasOf, ← s.entries_records outer next]
  rfl

/-- A query lists what it selects and joins, and what else it mentions that is not listed around
it. -/
theorem any_scopeRecords (r : RecordType) : (s.scopeRecords outer).any (·.sameAs r) =
    ((s.record :: s.joins.map (·.record)).any (·.sameAs r) ||
      (s.mentions.any (·.sameAs r) && !Scope.lists outer r)) := by
  have hnew : ((s.mentions.foldl addRecord []).filter (!Scope.lists outer ·)).any (·.sameAs r) =
      (s.mentions.any (·.sameAs r) && !Scope.lists outer r) := by
    have hmentioned : (s.mentions.foldl addRecord []).any (·.sameAs r) =
        s.mentions.any (·.sameAs r) := by
      rw [any_foldl_addRecord, List.any_nil, Bool.false_or]
    rw [← hmentioned, List.any_filter, Bool.eq_iff_iff, Bool.and_eq_true, List.any_eq_true,
      List.any_eq_true]
    constructor
    · rintro ⟨r', hr', h⟩
      obtain ⟨hunlisted, hsame⟩ := Bool.and_eq_true_iff.mp h
      rw [Scope.lists_congr outer hsame] at hunlisted
      exact ⟨⟨r', hr', hsame⟩, hunlisted⟩
    · rintro ⟨⟨r', hr', hsame⟩, hunlisted⟩
      rw [← Scope.lists_congr outer hsame] at hunlisted
      exact ⟨r', hr', Bool.and_eq_true_iff.mpr ⟨hunlisted, hsame⟩⟩
  unfold scopeRecords
  rw [any_foldl_addRecord, any_foldl_addRecord, collectAll_eq_mentions, hnew, ← List.any_append,
    List.singleton_append]

/-- The record types that a query selects or joins are listed inside it. -/
theorem scopeRecords_own {r : RecordType} (h : r ∈ s.record :: s.joins.map (·.record)) :
    (s.scopeRecords outer).any (·.sameAs r) = true := by
  rw [any_scopeRecords, any_sameAs_of_mem h, Bool.true_or]

/-- What a query lists belongs to its scope. -/
theorem owner_listed {r : RecordType} (h : (s.scopeRecords outer).any (·.sameAs r) = true) :
    ∃ a, (s.innerScope outer next).aliasOf? r = some a ∧
      Scope.owner? (s.innerScopes outer next) r = some (s.innerScope outer next, a) := by
  rw [← s.isSome_aliasOf outer next] at h
  obtain ⟨a, halias⟩ := Option.isSome_iff_exists.mp h
  refine ⟨a, halias, ?_⟩
  unfold innerScopes Scope.owner?
  rw [halias]

/-- Inside a query everything is listed that it selects, joins or mentions or that is listed
around. -/
theorem lists_innerScopes (r : RecordType) : Scope.lists (s.innerScopes outer next) r =
    ((s.record :: s.joins.map (·.record)).any (·.sameAs r) || s.mentions.any (·.sameAs r) ||
      Scope.lists outer r) := by
  unfold innerScopes
  rw [Scope.lists_cons, isSome_aliasOf, any_scopeRecords]
  cases Scope.lists outer r with
  | true => rw [Bool.or_true, Bool.or_true]
  | false => rw [Bool.not_false, Bool.and_true]

theorem lists_own {r : RecordType} (h : r ∈ s.record :: s.joins.map (·.record)) :
    Scope.lists (s.innerScopes outer next) r = true := by
  rw [lists_innerScopes, any_sameAs_of_mem h, Bool.true_or, Bool.true_or]

/-- The record types that a query mentions are listed inside it, by the query itself or around. -/
theorem lists_mentioned {r : RecordType} (h : r ∈ s.mentions) :
    Scope.lists (s.innerScopes outer next) r = true := by
  rw [lists_innerScopes, any_sameAs_of_mem h, Bool.or_true, Bool.true_or]

/-- What a query lists depends only on which of its mentions are listed around it. -/
theorem scopeRecords_congr {outer outer' : Scopes}
    (h : ∀ r ∈ s.mentions, Scope.lists outer' r = Scope.lists outer r) :
    s.scopeRecords outer' = s.scopeRecords outer := by
  unfold scopeRecords
  rw [collectAll_eq_mentions]
  dsimp only
  rw [List.filter_congr fun r hr => ?_]
  rw [h r (foldl_addRecord_subset s.mentions [] hr)]

/-- No two record types that a query lists have the same name. -/
theorem scopeRecords_apart :
    (s.scopeRecords outer).Pairwise fun r r' => r.sameAs r' = false := by
  unfold scopeRecords
  exact pairwise_foldl_addRecord _ (pairwise_foldl_addRecord _ (List.pairwise_singleton _ _))

/-- A record type is the first of its name where it is listed. -/
theorem findIdx_scopeRecords {i : Nat} {r : RecordType}
    (h : (s.scopeRecords outer)[i]? = some r) :
    (s.scopeRecords outer).findIdx? (·.sameAs r) = some i := by
  obtain ⟨hlt, rfl⟩ := List.getElem?_eq_some_iff.mp h
  refine List.findIdx?_eq_some_iff_getElem.mpr ⟨hlt, beq_self_eq_true _, fun j hj => ?_⟩
  have hapart := List.pairwise_iff_getElem.mp (s.scopeRecords_apart outer) j i
    (Nat.lt_trans hj hlt) hlt hj
  rw [hapart]
  exact Bool.false_ne_true

/-- A query lists only record types of its own. -/
theorem scopeRecords_subset : s.scopeRecords outer ⊆ s.records := by
  intro r h
  unfold scopeRecords at h
  rw [collectAll_eq_mentions] at h
  rcases List.mem_append.mp (foldl_addRecord_subset _ _ h) with h | h
  · exact s.own_subset (foldl_addRecord_subset _ _ h)
  · exact s.mentions_subset (foldl_addRecord_subset _ [] (List.mem_filter.mp h).1)

end Select

end RecordStore
