import RecordStore.Proofs.Sql.FittingTerms
import RecordStore.Proofs.Sample

/-! # The columns of searches

Where searches are tests of patterns, a column is printed before `LIKE` as it is.  A column that is
a connective or a negation is loose there: `LIKE` takes its last operand only.  Every other column
is whole.  So a statement is read as it is meant if and only if no search in it has a loose column
and every function has the name of one (`Statement.search_columns_whole`). -/

namespace RecordStore

/-- The columns of a search. -/
def Term.searched : Term → List Term
  | .search _ columns _ => columns
  | _ => []

/-- The name of the function that a term calls. -/
def Term.function? : Term → Option String
  | .call function _ => some function
  | _ => none

/-- A term without empty lists stays whole if its function has the name of one and no column that
it searches is loose. -/
theorem Term.staysWhole_iff {t : Term} (h : t.isFilled = true) :
    t.staysWhole = true ↔ (∀ f ∈ t.function?, isFunctionName f = true) ∧
      ∀ column ∈ t.searched, column.isLoose = false := by
  cases t with
  | call function args => simp [staysWhole, function?, searched]
  | inChunks negated chunks =>
      have hwhole : (inChunks negated chunks).staysWhole = true := h
      simp [hwhole, function?, searched]
  | search mode columns query =>
      change (!columns.isEmpty) = true at h
      simp [staysWhole, function?, searched, h]
  | _ => simp [staysWhole, function?, searched]

section

variable {dialect : Dialect}

/-- A term is read as it is meant if and only if it stays whole with all terms inside it. -/
theorem Term.read_phrase (hdialect : dialect.searchesByPattern = true) (t : Term) :
    Phrase.read (Lexeme.terminals (t.lexemes dialect)) = some (t.phrase dialect) ↔
      StayWhole t.subterms := by
  rw [Phrase.read_eq_some_iff, t.fits_phrase]
  exact ⟨fun h => h.1, fun h => ⟨h, (t.terminals_phrase (h.printAsPhrases hdialect)).symm⟩⟩

/-- A query is read as it is meant if and only if all terms inside it stay whole. -/
theorem Query.read_phrases (hdialect : dialect.searchesByPattern = true) (q : Query) :
    Phrase.readAll (Lexeme.terminals (q.lexemes dialect)) = some (queryPhrases dialect q) ↔
      StayWhole (innerQuery q) := by
  rw [Phrase.readAll_eq_some_iff, fits_queryPhrases]
  exact ⟨fun h => h.1, fun h => ⟨h, (queryTerms_phrases q (h.printAsPhrases hdialect)).symm⟩⟩

end

/-- A command is read as it is meant: a query as a whole, and of a change each expression. -/
def Command.ReadsWhole (dialect : Dialect) : Command → Prop
  | query q =>
    Phrase.readAll (Lexeme.terminals (q.lexemes dialect)) = some (queryPhrases dialect q)
  | command => ∀ t ∈ command.operands,
    Phrase.read (Lexeme.terminals (t.lexemes dialect)) = some (t.phrase dialect)

/-- A command is read as it is meant if and only if all terms of it stay whole. -/
theorem Command.readsWhole_iff {dialect : Dialect} (hdialect : dialect.searchesByPattern = true)
    (command : Command) : command.ReadsWhole dialect ↔ StayWhole command.subterms := by
  have hoperands (ts : List Term) :
      (∀ t ∈ ts, Phrase.read (Lexeme.terminals (t.lexemes dialect)) = some (t.phrase dialect)) ↔
        StayWhole (innerAll ts) := by
    rw [← fits_phrases dialect, phrases_eq_map, List.forall_mem_map]
    exact forall₂_congr fun t _ => (t.read_phrase hdialect).trans (t.fits_phrase dialect).symm
  cases command with
  | query q => exact Query.read_phrases hdialect q
  | insert | update | delete | createIndex | dropIndex => exact hoperands _

/-- A statement that compiles is read as it is meant if and only if no search in it has a loose
column, and every function in it the name of one. -/
theorem Statement.search_columns_whole {s : Statement} {dialect : Dialect}
    {compiled : CompiledStatement} (hdialect : dialect.searchesByPattern = true)
    (h : compile dialect s = .ok compiled) :
    ∃ command, s.resolve dialect = .ok command ∧ compiled = command.compiled dialect ∧
      (command.ReadsWhole dialect ↔ ∀ t ∈ command.subterms,
        (∀ f ∈ t.function?, isFunctionName f = true) ∧
          ∀ column ∈ t.searched, column.isLoose = false) := by
  obtain ⟨command, hresolve, hcompiled⟩ := resolve_of_compile h
  have hfilled := filled_of_resolve hresolve
  have hwhole : StayWhole command.subterms ↔ ∀ t ∈ command.subterms,
      (∀ f ∈ t.function?, isFunctionName f = true) ∧
        ∀ column ∈ t.searched, column.isLoose = false :=
    forall₂_congr fun t ht => Term.staysWhole_iff (hfilled t ht)
  refine ⟨command, hresolve, hcompiled, Iff.trans ?_ hwhole⟩
  exact command.readsWhole_iff hdialect

namespace Sample

/-- Items whose name or number is found, and then those with the most points. -/
def foundItems : Select where
  record := schema.type
  filter := some (.logical .and [
    .search .matches [.col schema.type "name",
      .binary .concat (.call "LOWER" [.col schema.type "name"]) (.col schema.type "id")] "pen",
    .not (.isNull false (.col schema.type "name"))])
  ordering := some [⟨.search .rank [.logical .and [.col schema.type "name"],
    .caseWhen none [(.logical .or [], .col schema.type "id")] none] "pen", true⟩]

theorem foundItems_whole : Dialect.sqlite.searchesByPattern = true ∧ ∃ compiled command,
    compile .sqlite (.select foundItems) = .ok compiled ∧
      (Statement.select foundItems).resolve .sqlite = .ok command ∧
      command.subterms.flatMap (fun t => t.searched.map Term.isLoose) =
        [false, false, false, false] ∧
      command.ReadsWhole .sqlite := by
  have hcompile : compile .sqlite (.select foundItems) = .ok _ := rfl
  obtain ⟨command, hcommand, -, hwhole⟩ := Statement.search_columns_whole rfl hcompile
  cases hcommand
  refine ⟨rfl, _, _, hcompile, rfl, rfl, hwhole.mpr ?_⟩
  decide

/-- Items without a name or with their number for a name: the search is in either of the two. -/
def foundAlternatives : Select where
  record := schema.type
  selection := .count
  filter := some (.search .matches [.logical .or [.isNull false (.col schema.type "name"),
    .binary .eq (.col schema.type "name") (.col schema.type "id")]] "pen")

/-- The search is read as an alternative to the first test, with the second test for its column. -/
theorem foundAlternatives_split :
    let unnamed : Phrase := .operation (.is false) (.qualified "t0" "item_name") .null
    let numbered : Phrase :=
      .operation (.binary .eq) (.qualified "t0" "item_name") (.qualified "t0" "item_id")
    foundAlternatives.compile .sqlite = .ok ⟨"SELECT COUNT(*) FROM \"items\" t0 " ++
      "WHERE t0.\"item_name\" IS NULL OR t0.\"item_name\" = t0.\"item_id\" " ++
      "LIKE ? ESCAPE '\\'", [.value (.text "%pen%")]⟩ ∧
    ∃ q t, (Statement.select foundAlternatives).resolve .sqlite = .ok (.query q) ∧
      q.filter = some t ∧
      t.phrase .sqlite = .containsTest "pen" (.operation (.logical .or) unnamed numbered) ∧
      Phrase.read (Lexeme.terminals (t.lexemes .sqlite)) =
        some (.operation (.logical .or) unnamed (.containsTest "pen" numbered)) ∧
      ¬ (Command.query q).ReadsWhole .sqlite := by
  refine ⟨rfl, _, _, rfl, rfl, rfl, Phrase.read_eq_some_iff.mpr ⟨by decide, rfl⟩, ?_⟩
  rw [Command.readsWhole_iff rfl]
  decide

end Sample

end RecordStore
