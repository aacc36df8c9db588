import RecordStore.Proofs.Sample
import RecordStore.Proofs.Sql.KeyQueries
import RecordStore.Proofs.Sql.Spelling

/-! # The shapes of one query

A query for records, its query for keys and, where rows are merged, its query for the number of rows
agree in everything but the list of results.  A list of results takes no alias and has no
placeholder, so that what follows it is printed in the same way after any other list
(`Select.shapes_agree`). -/

namespace RecordStore

open Lexeme

namespace RecordType

variable (dialect : Dialect) (r : RecordType) (a : Alias)

/-- The text of a field that is read as it is, from a table of this alias. -/
def fieldText (name : String) : String :=
  match r.field name with
  | .error _ => ""
  | .ok field =>
    match field.kind with
    | .stored | .generated => "t" ++ toString a ++ "." ++ dialect.quote field.column
    | .computed (some sql) _ => "(" ++ sql ++ ")"
    | .computed none _ => "NULL"

/-- The text of the result column of such a field. -/
def resultText (name : String) : String :=
  r.fieldText dialect a name ++ " AS " ++ dialect.quote name

/-- The text of a list of results of such fields. -/
def resultsText (fields : List String) : String :=
  ", ".intercalate (fields.map (r.resultText dialect a))

end RecordType

namespace Resolve

variable {dialect : Dialect} {scopes : Scopes} {r : RecordType} {owner : Scope × Alias}

/-- A field that is read as it is takes no alias and has no placeholder. -/
theorem plainColumn_spells (howner : Scope.owner? scopes r = some owner)
    (hqualified : owner.1.qualified = true) {name : String} {t : Term} {n n' : Alias}
    (h : plainColumn scopes ⟨r, name⟩ n = .ok t n') :
    n' = n ∧ Spells dialect (t.lexemes dialect) (r.fieldText dialect owner.2 name) := by
  unfold plainColumn at h
  obtain ⟨field, n₁, hfield, h⟩ := bind_eq_ok.mp h
  obtain ⟨hfound : r.field name = .ok field, rfl⟩ := ofExcept_eq_ok.mp hfield
  unfold RecordType.fieldText
  rw [hfound]
  obtain ⟨fieldName, column, kind⟩ := field
  cases kind with
  | computed definition required =>
      cases definition with
      | some sql =>
          cases h
          exact ⟨rfl, ["(", sql, ")"], rfl, by simp [String.join_cons, String.append_assoc]⟩
      | none =>
          dsimp only at h
          split at h <;> cases h
          exact ⟨rfl, ["NULL"], rfl, rfl⟩
  | stored | generated =>
      dsimp only at h
      rw [howner] at h
      split at h
      · cases h
      · cases h
        refine ⟨rfl, ["t" ++ toString owner.2, ".", dialect.quote column], ?_, ?_⟩
        · rw [hqualified]
          rfl
        · simp [String.join_cons, String.append_assoc]

variable {rule : ColumnRule} {s : Select}

/-- The columns of a list of results without definitions. -/
theorem outputColumns_spells (howner : Scope.owner? scopes r = some owner)
    (hqualified : owner.1.qualified = true)
    (hrule : ∀ c, rule scopes c = plainColumn scopes c) {fields : List String}
    {columns : List (FieldExprOf Term)} {n n' : Alias}
    (h : outputColumns rule scopes r (fun _ => none) fields n = .ok columns n') :
    n' = n ∧ List.Forall₂ (Spells dialect) (outputLexemes dialect true columns)
      (fields.map (r.resultText dialect owner.2)) := by
  unfold outputColumns at h
  induction fields generalizing columns n with
  | nil =>
      cases h
      exact ⟨rfl, .nil⟩
  | cons name fields ih =>
      obtain ⟨column, rest, n₁, hcolumn, hrest, rfl⟩ := mapM_cons_eq_ok.mp h
      obtain ⟨t, n₂, ht, hcolumn⟩ := bind_eq_ok.mp hcolumn
      obtain ⟨rfl, rfl⟩ := pure_eq_ok.mp hcolumn
      change rule scopes ⟨r, name⟩ n = .ok t n₂ at ht
      rw [hrule] at ht
      obtain ⟨rfl, hvalue⟩ := plainColumn_spells howner hqualified ht
      obtain ⟨rfl, hfields⟩ := ih hrest
      have hlabel : Spells dialect [space, word "AS", space] " AS " := ⟨[" ", "AS", " "], rfl, rfl⟩
      have hname : Spells dialect [identifier name] (dialect.quote name) :=
        ⟨[dialect.quote name], rfl, by simp [String.join_cons]⟩
      refine ⟨rfl, .cons ?_ hfields⟩
      have hcolumn := (hvalue.append hlabel).append hname
      rw [List.append_assoc] at hcolumn
      exact hcolumn

/-- The list of results of a query without definitions. -/
theorem output_spells (hnone : s.definitions = [])
    (howner : Scope.owner? scopes s.record = some owner) (hqualified : owner.1.qualified = true)
    (hrule : ∀ c, rule scopes c = plainColumn scopes c) {fields : List String}
    (hfields : s.resultFields? = some fields) {columns : Option (List (FieldExprOf Term))}
    {n n' : Alias} (h : output dialect rule scopes s n = .ok columns n') :
    n' = n ∧ ∃ cs, columns = some cs ∧
      Spells dialect (commaSeparated (outputLexemes dialect true cs))
        (s.record.resultsText dialect owner.2 fields) := by
  unfold output at h
  rw [hfields, hnone] at h
  obtain ⟨cs, n₁, hcolumns, h⟩ := bind_eq_ok.mp h
  obtain ⟨rfl, rfl⟩ := pure_eq_ok.mp h
  obtain ⟨rfl, hspells⟩ := outputColumns_spells howner hqualified hrule hcolumns
  exact ⟨rfl, cs, rfl, .commaSeparated hspells⟩

end Resolve

/-! ### Resolving the shapes -/

namespace Select

variable {dialect : Dialect} {s : Select} {next : Alias} {q : Query}

/-- A query for records without overrides, and its list of results. -/
theorem resolve_records (hfields : s.selection = .fields) (hno : s.usesOverrides = false)
    (h : Resolve.selectWith dialect (Resolve.overriddenColumn dialect) [] true s 0 = .ok q next) :
    q.counted = false ∧ q.labelled = true ∧ q.distinct = s.distinct ∧ q.locking = s.locking ∧
      ∃ columns, q.output = some columns ∧
        Resolve.output dialect (Resolve.overriddenColumn dialect) (s.innerScopes [] 0) s
          (0 + (s.scopeRecords []).length) = .ok (some columns) (0 + (s.scopeRecords []).length) ∧
        Spells dialect (commaSeparated (outputLexemes dialect true columns))
          (s.record.resultsText dialect 0 s.record.fieldNames) := by
  obtain ⟨hoverrides, hdefinitions⟩ := no_overrides hno
  have hrule := Resolve.overriddenColumn_of_no_overrides dialect 0 hoverrides
  have hcounts : s.countsAround = false := by
    unfold countsAround
    rw [hfields]
    rfl
  obtain ⟨-, -, columns, n₁, joins, n₂, filter, n₃, grouping, n₄, ordering, n₅, limit, houtput, -,
    -, -, -, -, rfl⟩ := Resolve.selectWith_eq_ok.mp h
  obtain ⟨rfl, columns, rfl, hspells⟩ := Resolve.output_spells hdefinitions (s.owner_record [] 0)
    rfl hrule (resultFields?_of_fields hfields) houtput
  exact ⟨hcounts, rfl, rfl, rfl, columns, rfl, houtput, hspells⟩

/-- A query that selects something else, or does not lock, resolves like the query if both lists of
results resolve and take no alias. -/
theorem resolve_selecting {rule : Resolve.ColumnRule}
    (h : Resolve.selectWith dialect rule [] true s 0 = .ok q next) {selection : Selection}
    {locking : Bool} {columns columns' : Option (List (FieldExprOf Term))}
    (houtput : Resolve.output dialect rule (s.innerScopes [] 0) s
      (0 + (s.scopeRecords []).length) = .ok columns (0 + (s.scopeRecords []).length))
    (houtput' : Resolve.output dialect rule (s.innerScopes [] 0) { s with selection, locking }
      (0 + (s.scopeRecords []).length) = .ok columns' (0 + (s.scopeRecords []).length)) :
    Resolve.selectWith dialect rule [] true { s with selection, locking } 0 =
      .ok { q with
        counted := countsAround { s with selection, locking }
        output := columns'
        locking } next := by
  obtain ⟨hlists, hjoin, columns, n₁, joins, n₂, filter, n₃, grouping, n₄, ordering, n₅, limit,
    hcolumns, hjoins, hfilter, hgrouping, hordering, hlimit, rfl⟩ := Resolve.selectWith_eq_ok.mp h
  rw [houtput] at hcolumns
  cases hcolumns
  exact Resolve.selectWith_eq_ok.mpr ⟨hlists, hjoin, columns', _, joins, n₂, filter, n₃, grouping,
    n₄, ordering, n₅, limit, houtput', hjoins, hfilter, hgrouping, hordering, hlimit, rfl⟩

/-- The query for the keys resolves like the query for the records, apart from the list of
results. -/
theorem resolve_keysOnly (hfields : s.selection = .fields) (hno : s.usesOverrides = false)
    (hkey : ∀ name ∈ s.record.primaryKey, name ∈ s.record.fieldNames)
    (h : Resolve.selectWith dialect (Resolve.overriddenColumn dialect) [] true s 0 = .ok q next) :
    ∃ keys, Resolve.selectWith dialect (Resolve.overriddenColumn dialect) [] true s.keysOnly 0 =
        .ok { q with output := some keys } next ∧
      Spells dialect (commaSeparated (outputLexemes dialect true keys))
        (s.record.resultsText dialect 0 s.record.primaryKey) := by
  obtain ⟨hoverrides, hdefinitions⟩ := no_overrides hno
  have hrule := Resolve.overriddenColumn_of_no_overrides dialect 0 hoverrides
  have howner := s.owner_record [] 0
  obtain ⟨hcounted, -, -, hlocking, columns, -, houtput, -⟩ := resolve_records hfields hno h
  have hread := Resolve.readable_of_output hdefinitions hrule (resultFields?_of_fields hfields)
    houtput
  obtain ⟨keyColumns, hkeys⟩ := Resolve.resolves_output dialect (s := s.keysOnly) hdefinitions
    howner hrule rfl fun name hname => hread name (hkey name hname)
  obtain ⟨-, keys, rfl, hspells⟩ := Resolve.output_spells (s := s.keysOnly) hdefinitions howner rfl
    hrule rfl (hkeys 0)
  refine ⟨keys, ?_, hspells⟩
  have hresolve : Resolve.selectWith dialect (Resolve.overriddenColumn dialect) [] true s.keysOnly
      0 = .ok { q with
        counted := false
        output := some keys
        locking := s.locking } next :=
    resolve_selecting h houtput (hkeys _)
  rwa [← hcounted, ← hlocking] at hresolve

/-- Without its lock a query for records resolves in the same way. -/
theorem resolve_unlocked {rule : Resolve.ColumnRule}
    (h : Resolve.selectWith dialect rule [] true s 0 = .ok q next) :
    Resolve.selectWith dialect rule [] true { s with locking := false } 0 =
      .ok { q with locking := false } next := by
  obtain ⟨hlists, hjoin, columns, n₁, joins, n₂, filter, n₃, grouping, n₄, ordering, n₅, limit,
    hcolumns, hjoins, hfilter, hgrouping, hordering, hlimit, rfl⟩ := Resolve.selectWith_eq_ok.mp h
  exact Resolve.selectWith_eq_ok.mpr ⟨hlists, hjoin, columns, n₁, joins, n₂, filter, n₃, grouping,
    n₄, ordering, n₅, limit, hcolumns, hjoins, hfilter, hgrouping, hordering, hlimit, rfl⟩

/-- Where rows are merged, the query for their number resolves like the query for the records
without its lock. -/
theorem resolve_count (hfields : s.selection = .fields) (hno : s.usesOverrides = false)
    (hmerges : s.mergesRows = true)
    (h : Resolve.selectWith dialect (Resolve.overriddenColumn dialect) [] true s 0 = .ok q next) :
    Resolve.selectWith dialect (Resolve.overriddenColumn dialect) [] true s.count 0 =
      .ok { q with
        counted := true
        locking := false } next := by
  obtain ⟨-, -, -, -, columns, hq, houtput, -⟩ := resolve_records hfields hno h
  have hcount : s.count = { s with selection := .count, locking := false } := by
    unfold count
    rw [hmerges]
    rfl
  have hresults : resultFields? { s with selection := .count, locking := false } =
      s.resultFields? := by
    rw [resultFields?_of_fields hfields]
    exact if_pos hmerges
  have houtput' : Resolve.output dialect (Resolve.overriddenColumn dialect) (s.innerScopes [] 0)
      { s with selection := .count, locking := false } = Resolve.output dialect
        (Resolve.overriddenColumn dialect) (s.innerScopes [] 0) s := by
    unfold Resolve.output
    rw [hresults]
  have hresolve := resolve_selecting h houtput ((congrFun houtput' _).trans houtput)
  have hcounts : countsAround { s with selection := .count, locking := false } = true := hmerges
  rw [hcounts, ← hq] at hresolve
  rw [hcount]
  exact hresolve

end Select

/-! ### Queries in print -/

namespace QueryOf

/-- What is printed before the list of results. -/
def head (q : Query) : List Lexeme :=
  word "SELECT" :: space :: (if q.distinct then [word "DISTINCT", space] else [])

/-- What is printed after the list of results. -/
def tail (dialect : Dialect) (q : Query) : List Lexeme :=
  fromLexemes q.tables (joinsLexemes dialect q.joins) ++
    optionalClause ["WHERE"] (q.filter.map (Term.lexemes dialect)) ++
    optionalClause ["GROUP", "BY"] ((q.grouping.map (termsLexemes dialect)).map commaSeparated) ++
    optionalClause ["ORDER", "BY"]
      ((q.ordering.map (sortKeysLexemes dialect)).map commaSeparated) ++
    ((q.limit.map Window.lexemes).getD []) ++
    (if q.locking && dialect.locksRows then space :: words ["FOR", "UPDATE"] else [])

variable {dialect : Dialect} {q : Query}

theorem head_spells (dialect : Dialect) (q : Query) :
    Spells dialect q.head ("SELECT " ++ if q.distinct then "DISTINCT " else "") := by
  unfold head
  cases q.distinct with
  | false => exact ⟨["SELECT", " "], rfl, rfl⟩
  | true => exact ⟨["SELECT", " ", "DISTINCT", " "], rfl, rfl⟩

/-- The list of results stands between the head and the rest of a query. -/
theorem lexemes_eq (hcounted : q.counted = false) {columns : List (FieldExprOf Term)}
    (houtput : q.output = some columns) : queryTerms dialect q =
      q.head ++ commaSeparated (outputLexemes dialect q.labelled columns) ++ q.tail dialect := by
  rw [queryTerms_eq]
  unfold queryLexemes head tail
  rw [hcounted, houtput]
  simp

/-- A lock adds text after a query, if it adds anything. -/
theorem lexemes_unlocked (dialect : Dialect) (hcounted : q.counted = false) :
    ∃ lock text, Spells dialect lock text ∧
      queryTerms dialect q = queryTerms dialect { q with locking := false } ++ lock := by
  rw [queryTerms_eq, queryTerms_eq]
  unfold queryLexemes
  dsimp only
  rw [hcounted]
  cases q.locking && dialect.locksRows with
  | false =>
      refine ⟨[], "", .nil dialect, ?_⟩
      simp
  | true =>
      have hlock : Spells dialect (space :: words ["FOR", "UPDATE"]) " FOR UPDATE" :=
        ⟨[" ", "FOR", " ", "UPDATE"], rfl, rfl⟩
      refine ⟨space :: words ["FOR", "UPDATE"], " FOR UPDATE", hlock, ?_⟩
      simp

/-- A lock binds nothing. -/
theorem bindings_unlocked (dialect : Dialect) (hcounted : q.counted = false) :
    (compiledLexemes dialect (queryTerms dialect { q with locking := false })).bindings =
      (compiledLexemes dialect (queryTerms dialect q)).bindings := by
  obtain ⟨lock, text, hlock, hlexemes⟩ := lexemes_unlocked dialect hcounted
  have hbetween := (Spells.nil dialect).compiledLexemes_between hlock
    (queryTerms dialect { q with locking := false })
  rw [List.nil_append, ← hlexemes] at hbetween
  rw [hbetween]
  rfl

/-- The number of rows is asked for around the query for the rows. -/
theorem compiledLexemes_counted (dialect : Dialect) (hcounted : q.counted = false) :
    compiledLexemes dialect (queryTerms dialect { q with counted := true }) =
      (compiledLexemes dialect (queryTerms dialect q)).between
        "SELECT COUNT(*) FROM (" ") sub" := by
  have hopen : Spells dialect (word "SELECT" :: space :: application "COUNT" [[symbol "*"]] ++
      [space, word "FROM", space, symbol "("]) "SELECT COUNT(*) FROM (" :=
    ⟨["SELECT", " ", "COUNT", "(", "*", ")", " ", "FROM", " ", "("], rfl, rfl⟩
  have hclose : Spells dialect [symbol ")", space, word "sub"] ") sub" :=
    ⟨[")", " ", "sub"], rfl, rfl⟩
  have hlexemes : queryTerms dialect { q with counted := true } =
      word "SELECT" :: space :: application "COUNT" [[symbol "*"]] ++
        [space, word "FROM", space, symbol "("] ++ queryTerms dialect q ++
        [symbol ")", space, word "sub"] := by
    rw [queryTerms_eq, queryTerms_eq]
    unfold queryLexemes parenthesized
    rw [hcounted]
    simp
  rw [hlexemes]
  exact hopen.compiledLexemes_between hclose _

end QueryOf

namespace Select

variable {dialect : Dialect} {s : Select}

/-- The text of a query up to the end of its list of results. -/
def headText (dialect : Dialect) (s : Select) (fields : List String) : String :=
  "SELECT " ++ (if s.distinct then "DISTINCT " else "") ++ s.record.resultsText dialect 0 fields

/-- A query compiles to what it resolves to. -/
theorem compile_of_resolve {q : Query} {next : Alias}
    (h : Resolve.selectWith dialect (Resolve.overriddenColumn dialect) [] true s 0 = .ok q next) :
    s.compile dialect = .ok (compiledLexemes dialect (queryTerms dialect q)) :=
  compile_eq_ok.mpr ⟨q, next, h, rfl⟩

/-- The text and the bindings of a query with a list of results. -/
theorem compiledLexemes_head {q : Query} (hcounted : q.counted = false)
    (hlabelled : q.labelled = true) (hdistinct : q.distinct = s.distinct)
    {columns : List (FieldExprOf Term)} (houtput : q.output = some columns) {fields : List String}
    (hcolumns : Spells dialect (commaSeparated (outputLexemes dialect true columns))
      (s.record.resultsText dialect 0 fields)) :
    compiledLexemes dialect (queryTerms dialect q) =
      ⟨s.headText dialect fields ++ (compiledLexemes dialect (q.tail dialect)).sql,
        (compiledLexemes dialect (q.tail dialect)).bindings⟩ := by
  have hhead := q.head_spells dialect
  rw [hdistinct] at hhead
  rw [QueryOf.lexemes_eq hcounted houtput, hlabelled]
  exact (hhead.append hcolumns).compiledLexemes_after _

/-- The shapes of a query without overrides agree.  Only the list of results tells the query for the
keys from the query for the records; and where rows are merged, their number is asked for around the
query for the records without its lock.  The bindings are the same. -/
theorem shapes_agree (hfields : s.selection = .fields) (hno : s.usesOverrides = false)
    (hkey : ∀ name ∈ s.record.primaryKey, name ∈ s.record.fieldNames)
    {compiled : CompiledStatement} (h : s.compile dialect = .ok compiled) :
    ∃ rest, compiled.sql = s.headText dialect s.record.fieldNames ++ rest ∧
      s.keysOnly.compile dialect =
        .ok ⟨s.headText dialect s.record.primaryKey ++ rest, compiled.bindings⟩ ∧
      (s.mergesRows = true → ∃ sql,
        compile dialect { s with locking := false } = .ok ⟨sql, compiled.bindings⟩ ∧
        s.count.compile dialect =
          .ok ⟨"SELECT COUNT(*) FROM (" ++ sql ++ ") sub", compiled.bindings⟩) := by
  obtain ⟨q, next, hselect, hcompiled⟩ := compile_eq_ok.mp h
  change compiledLexemes dialect (queryTerms dialect q) = compiled at hcompiled
  obtain ⟨hcounted, hlabelled, hdistinct, -, columns, houtput, -, hcolumns⟩ :=
    resolve_records hfields hno hselect
  have hprinted := compiledLexemes_head hcounted hlabelled hdistinct houtput hcolumns
  rw [hcompiled] at hprinted
  refine ⟨(compiledLexemes dialect (q.tail dialect)).sql, congrArg (·.sql) hprinted, ?_,
    fun hmerges => ?_⟩
  · obtain ⟨keys, hkeys, hspells⟩ := resolve_keysOnly hfields hno hkey hselect
    have hbindings : (compiledLexemes dialect (q.tail dialect)).bindings = compiled.bindings :=
      (congrArg (·.bindings) hprinted).symm
    have hprinted' := compiledLexemes_head (q := { q with output := some keys }) hcounted hlabelled
      hdistinct rfl hspells
    rw [compile_of_resolve hkeys, hprinted', ← hbindings]
    rfl
  · have hbindings := QueryOf.bindings_unlocked dialect hcounted
    rw [hcompiled] at hbindings
    refine ⟨(compiledLexemes dialect (queryTerms dialect { q with locking := false })).sql, ?_, ?_⟩
    · rw [compile_of_resolve (resolve_unlocked hselect), ← hbindings]
    · have hcount := QueryOf.compiledLexemes_counted (q := { q with locking := false }) dialect
        hcounted
      rw [compile_of_resolve (resolve_count hfields hno hmerges hselect), hcount, ← hbindings]
      rfl

end Select

namespace Sample

/-- The items of a name, to be locked, each only once. -/
def distinctItems : Select where
  record := schema.type
  filter := some ((Expr.col schema.type "name").eqBound (.text "one"))
  locking := true
  distinct := true

/-- What the query compiles to. -/
def distinctItemsCompiled : CompiledStatement where
  sql := "SELECT DISTINCT t0.\"item_id\" AS \"id\", t0.\"item_name\" AS \"name\" " ++
    "FROM \"items\" t0 WHERE t0.\"item_name\" = $1 FOR UPDATE"
  bindings := [.value (.text "one")]

/-- The number of distinct items is asked for around the query for them, and their keys by the same
clauses. -/
theorem distinctItems_shapes : ∃ rest,
    distinctItemsCompiled.sql =
      distinctItems.headText .postgres schema.type.fieldNames ++ rest ∧
    distinctItems.keysOnly.compile .postgres =
      .ok ⟨distinctItems.headText .postgres ["id"] ++ rest, [.value (.text "one")]⟩ ∧
    (distinctItems.mergesRows = true → ∃ sql,
      Select.compile .postgres { distinctItems with locking := false } =
        .ok ⟨sql, [.value (.text "one")]⟩ ∧
      distinctItems.count.compile .postgres =
        .ok ⟨"SELECT COUNT(*) FROM (" ++ sql ++ ") sub", [.value (.text "one")]⟩) := by
  have hkey : ∀ name ∈ schema.type.primaryKey, name ∈ schema.type.fieldNames := by decide
  have hcompile : distinctItems.compile .postgres = .ok distinctItemsCompiled := rfl
  exact Select.shapes_agree rfl rfl hkey hcompile

end Sample

end RecordStore
