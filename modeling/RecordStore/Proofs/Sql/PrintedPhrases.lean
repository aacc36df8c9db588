import RecordStore.Proofs.Sql.TermPhrases
import RecordStore.Proofs.Sql.Terminals

/-! # Phrases in print

The terminals of a printed term that is all written as phrases are those of the phrase that it is
meant to be read as (`Term.terminals_phrase`), and those of a printed query the terminals of its
phrases (`queryTerms_phrases`).  One lemma for each piece that the printer writes leads up to this;
for the terms themselves there is one case per constructor. -/

namespace RecordStore

open Lexeme
open Phrase (grouped chained listed)

/-! ### Terminals of phrases -/

namespace Phrase

theorem terminalsAll_append (ps ps' : List Phrase) :
    terminalsAll (ps ++ ps') = terminalsAll ps ++ terminalsAll ps' := by
  induction ps with
  | nil => rfl
  | cons a ps ih => rw [List.cons_append, terminalsAll, terminalsAll, ih, List.append_assoc]

theorem terminalsAll_singleton (a : Phrase) : terminalsAll [a] = a.terminals := by
  rw [terminalsAll, terminalsAll, List.append_nil]

theorem map_terminalsAll_singletons (ps : List Phrase) :
    (ps.map ([·])).map terminalsAll = ps.map terminals := by
  rw [List.map_map]
  exact List.map_congr_left fun a _ => terminalsAll_singleton a

theorem map?_terminalsAll_singletons (a? : Option Phrase) :
    (a?.map ([·])).map terminalsAll = a?.map terminals := by
  cases a? with
  | none => rfl
  | some a => exact congrArg some (terminalsAll_singleton a)

theorem terminalsAll_listed (item : List Phrase) (items : List (List Phrase)) :
    terminalsAll (listed (item :: items)) =
      terminalsAll item ++ items.flatMap fun item' => .comma :: terminalsAll item' := by
  unfold listed
  induction items generalizing item with
  | nil => rw [List.intercalate_singleton, List.flatMap_nil, List.append_nil]
  | cons item' items ih =>
      rw [List.intercalate_cons_cons, terminalsAll_append, terminalsAll_append, ih,
        List.flatMap_cons, List.append_assoc]
      rfl

theorem terminals_foldl (c : Connector) (a : Phrase) (rest : List Phrase) :
    (rest.foldl (operation c) a).terminals =
      a.terminals ++ rest.flatMap fun b => c.terminals ++ b.terminals := by
  induction rest generalizing a with
  | nil => rw [List.foldl_nil, List.flatMap_nil, List.append_nil]
  | cons b rest ih =>
      rw [List.foldl_cons, ih, terminals, List.flatMap_cons, List.append_assoc, List.append_assoc]

end Phrase

section

variable {ls : List Lexeme} {items : List (List Lexeme)} {a : Phrase} {ps : List Phrase}

theorem terminals_grouped_phrase (needed : Bool) (h : terminals ls = a.terminals) :
    terminals (Lexeme.grouped needed ls) = (grouped needed a).terminals := by
  rw [terminals_grouped, h]
  cases needed with
  | false => rfl
  | true =>
      change _ = .opening :: (Phrase.terminalsAll [a] ++ [.closing])
      rw [Phrase.terminalsAll_singleton]
      rfl

/-- Lists between commas. -/
theorem terminals_listed {items' : List (List Phrase)}
    (h : items.map terminals = items'.map Phrase.terminalsAll) :
    terminals (commaSeparated items) = Phrase.terminalsAll (listed items') := by
  match items, items', h with
  | [], [], _ => rfl
  | ls :: items, ps :: items', h =>
    rw [List.map_cons, List.map_cons, List.cons.injEq] at h
    have hrest := congrArg (List.flatMap fun ts => Terminal.comma :: ts) h.2
    rw [List.flatMap_map, List.flatMap_map] at hrest
    rw [terminals_commaSeparated, Phrase.terminalsAll_listed, h.1, hrest]

/-- Single phrases between commas. -/
theorem terminals_listed_singletons (h : items.map terminals = ps.map Phrase.terminals) :
    terminals (commaSeparated items) = Phrase.terminalsAll (listed (ps.map ([·]))) := by
  refine terminals_listed ?_
  rw [h, Phrase.map_terminalsAll_singletons]

/-- Operands with a connector between them. -/
theorem terminals_chained {c : Connector} {sep : List Lexeme} (hsep : terminals sep = c.terminals)
    (hne : ps ≠ []) (h : items.map terminals = ps.map Phrase.terminals) :
    terminals (sep.intercalate items) = (chained c ps).terminals := by
  match items, ps, hne, h with
  | _, [], hne, _ => exact absurd rfl hne
  | ls :: items, a :: ps, _, h =>
    rw [List.map_cons, List.map_cons, List.cons.injEq] at h
    have hrest := congrArg (List.flatMap fun ts => c.terminals ++ ts) h.2
    rw [List.flatMap_map, List.flatMap_map] at hrest
    rw [terminals_intercalate, hsep, h.1, hrest]
    exact (Phrase.terminals_foldl c a ps).symm

/-! ### Terminals of pieces -/

theorem terminals_column (qualifier : Option Alias) (name : String) :
    terminals (columnLexemes qualifier name) = (Phrase.column qualifier name).terminals := by
  cases qualifier <;> rfl

theorem terminals_unit (op : LogicalOp) : terminals op.unit = (Phrase.unit op).terminals := by
  cases op <;> rfl

theorem terminals_is (negated : Bool) :
    terminals (space :: words (if negated then ["IS", "NOT", "NULL"] else ["IS", "NULL"])) =
      (Connector.is negated).terminals ++ Phrase.null.terminals := by
  cases negated <;> rfl

theorem terminals_application {function : String} (hname : Keyword.ofWord? function = none)
    (h : terminals (commaSeparated items) = Phrase.terminalsAll ps) :
    terminals (application function items) = (Phrase.bracketed (some function) ps).terminals := by
  have hword : Terminal.ofWord function = .name function := by
    unfold Terminal.ofWord
    rw [hname]
  have hcons : terminals (word function :: parenthesized (commaSeparated items)) =
      Terminal.ofWord function :: terminals (parenthesized (commaSeparated items)) := rfl
  rw [application, hcons, hword, terminals_parenthesized, h, Phrase.terminals]

theorem terminals_parenthesized_phrases (h : terminals ls = Phrase.terminalsAll ps) :
    terminals (parenthesized ls) = (Phrase.bracketed none ps).terminals := by
  rw [terminals_parenthesized, h, Phrase.terminals]

/-- A piece of text and an operand. -/
theorem terminals_pair (s : String) (h : terminals ls = a.terminals) :
    terminals (commaSeparated [[textLiteral s], ls]) =
      Phrase.terminalsAll (listed [[Phrase.text s], [a]]) := by
  refine terminals_listed ?_
  rw [List.map_cons, List.map_cons, List.map_nil, h, List.map_cons, List.map_cons, List.map_nil,
    Phrase.terminalsAll_singleton a]
  rfl

theorem terminals_formattedNumber (format : String) (h : terminals ls = a.terminals) :
    terminals (formattedNumber format ls) = (Phrase.formattedNumber format a).terminals := by
  have hcontents : terminals (application "strftime" [[textLiteral format], ls] ++
      space :: words ["AS", "INTEGER"]) = Phrase.terminalsAll
        [.bracketed (some "strftime") (listed [[Phrase.text format], [a]]), .word "AS",
          .word "INTEGER"] := by
    rw [terminals_append, terminals_application rfl (terminals_pair format h)]
    rfl
  have hcast (ls : List Lexeme) : terminals (word "CAST" :: ls) =
      .name "CAST" :: terminals ls := rfl
  rw [formattedNumber, hcast, terminals_parenthesized, hcontents]
  rfl

theorem terminals_extracted {field : String} (hname : Keyword.ofWord? field = none)
    (h : terminals ls = a.terminals) :
    terminals (extracted field ls) = (Phrase.extracted field a).terminals := by
  have hwords : terminals (words [field, "FROM"] ++ space :: ls) =
      Phrase.terminalsAll [.word field, .word "FROM", a] := by
    have hword : Terminal.ofWord field = .name field := by
      unfold Terminal.ofWord
      rw [hname]
    have hcons : terminals (words [field, "FROM"] ++ space :: ls) =
        Terminal.ofWord field :: .name "FROM" :: terminals ls := rfl
    rw [hcons, hword, h, ← Phrase.terminalsAll_singleton]
    rfl
  have hextract (ls : List Lexeme) : terminals (word "EXTRACT" :: ls) =
      .name "EXTRACT" :: terminals ls := rfl
  rw [extracted, hextract, terminals_parenthesized, hwords]
  rfl

theorem terminals_temporal {dialect : Dialect} (hdialect : dialect.searchesByPattern = true)
    (op : TemporalOp) (h : terminals ls = a.terminals) :
    terminals (op.lexemes dialect ls) = (Phrase.temporal dialect a op).terminals := by
  cases dialect with
  | postgres | mysql => cases hdialect
  | sqlite =>
      cases op with
      | part unit => exact terminals_formattedNumber _ h
      | start unit => exact terminals_application rfl (terminals_pair _ h)
      | epoch => exact terminals_formattedNumber _ h
  | generic =>
      cases op with
      | part unit => exact terminals_extracted (by cases unit <;> rfl) h
      | start unit => exact terminals_application rfl (terminals_pair _ h)
      | epoch => exact terminals_extracted rfl h

/-! ### Searches -/

theorem terminals_containsTest (query : String) (h : terminals ls = a.terminals) :
    terminals (containsTest query ls) = (Phrase.containsTest query a).terminals := by
  rw [containsTest, terminals_append, h, Phrase.containsTest, Phrase.terminals]
  rfl

theorem terminals_containsScore (query : String) (h : terminals ls = a.terminals) :
    terminals (containsScore query ls) = (Phrase.containsScore query a).terminals := by
  have hwhen (ls : List Lexeme) : terminals (words ["CASE", "WHEN"] ++ space :: ls) =
      .keyword .caseWord :: .keyword .whenWord :: terminals ls := rfl
  have hcontents : (Phrase.containsScore query a).terminals =
      .keyword .caseWord :: .keyword .whenWord :: ((Phrase.containsTest query a).terminals ++
        [.keyword .thenWord, .literal (.integer 1), .keyword .elseWord, .literal (.integer 0)] ++
          [.keyword .endWord]) := rfl
  rw [containsScore, List.append_assoc, List.cons_append, hwhen, terminals_append,
    terminals_containsTest query h, hcontents, List.append_assoc]
  rfl

/-- What stands for each column is printed as what stands for its phrase. -/
theorem map_terminals {f : List Lexeme → List Lexeme} {g : Phrase → Phrase}
    (hfg : ∀ ls a, terminals ls = Phrase.terminals a → terminals (f ls) = (g a).terminals)
    (h : items.map terminals = ps.map Phrase.terminals) :
    (items.map f).map terminals = (ps.map g).map Phrase.terminals := by
  induction items generalizing ps with
  | nil =>
      rw [List.map_nil] at h
      rw [List.map_eq_nil_iff.mp h.symm]
      rfl
  | cons ls items ih =>
      cases ps with
      | nil => cases h
      | cons a ps =>
          rw [List.map_cons, List.map_cons, List.cons.injEq] at h
          rw [List.map_cons, List.map_cons, List.map_cons, List.map_cons, hfg ls a h.1, ih h.2]

theorem terminals_search {dialect : Dialect} (hdialect : dialect.searchesByPattern = true)
    (mode : SearchMode) (query : String) (hne : ps ≠ [])
    (h : items.map terminals = ps.map Phrase.terminals) :
    terminals (searchLexemes dialect mode query items) =
      (Phrase.search mode query ps).terminals := by
  have hmatches : terminals (wordSeparated "OR" (items.map (containsTest query))) =
      (Phrase.search .matches query ps).terminals :=
    terminals_chained rfl (by simpa using hne)
      (map_terminals (fun _ _ => terminals_containsTest query) h)
  have hsum : terminals ([space, symbol "+", space].intercalate
      (items.map (containsScore query))) =
        (chained (.binary .add) (ps.map (Phrase.containsScore query))).terminals :=
    terminals_chained rfl (by simpa using hne)
      (map_terminals (fun _ _ => terminals_containsScore query) h)
  have hrank : terminals (parenthesized ([space, symbol "+", space].intercalate
      (items.map (containsScore query)))) = (Phrase.search .rank query ps).terminals := by
    refine terminals_parenthesized_phrases ?_
    rw [hsum, Phrase.terminalsAll_singleton]
  cases dialect with
  | postgres | mysql => cases hdialect
  | generic | sqlite =>
      cases mode with
      | «matches» => exact hmatches
      | rank => exact hrank

/-! ### Clauses -/

theorem terminals_clause {keywords : List String} {content : Option (List Lexeme)}
    {contents : Option (List Phrase)}
    (hkeywords : terminals (words keywords) = Phrase.terminalsAll (keywords.map Phrase.word))
    (h : content.map terminals = contents.map Phrase.terminalsAll) :
    terminals (optionalClause keywords content) =
      Phrase.terminalsAll (Phrase.clause keywords contents) := by
  match content, contents, h with
  | none, none, _ => rfl
  | some ls, some ps, h =>
    have hspace (ls : List Lexeme) : terminals (space :: ls) = terminals ls := rfl
    rw [optionalClause, clause, List.cons_append, hspace, terminals_append, hkeywords, hspace,
      Option.some.inj h, Phrase.clause, Phrase.terminalsAll_append]

theorem terminals_table (t : TableItem) :
    terminals t.lexemes = Phrase.terminalsAll (Phrase.table t) := rfl

theorem terminals_sources (tables : List TableItem) {joins : List (List Lexeme)}
    {joins' : List Phrase}
    (h : tables.isEmpty = false → terminals joins.flatten = Phrase.terminalsAll joins') :
    terminals (fromLexemes tables joins) = Phrase.terminalsAll (Phrase.sources tables joins') := by
  have htables : terminals (commaSeparated (tables.map TableItem.lexemes)) =
      Phrase.terminalsAll (listed (tables.map Phrase.table)) := by
    refine terminals_listed ?_
    rw [List.map_map, List.map_map]
    exact List.map_congr_left fun t _ => terminals_table t
  have hfrom (ls : List Lexeme) : terminals (clause ["FROM"] ls) =
      .name "FROM" :: terminals ls := rfl
  unfold fromLexemes Phrase.sources
  cases hempty : tables.isEmpty with
  | true => rfl
  | false =>
      rw [if_neg Bool.false_ne_true, if_neg Bool.false_ne_true, terminals_append, hfrom, htables,
        h hempty, Phrase.terminalsAll_append]
      rfl

theorem terminals_window (limit : Option Window) :
    terminals ((limit.map Window.lexemes).getD []) =
      Phrase.terminalsAll ((limit.map Phrase.window).getD []) := by
  cases limit with
  | none => rfl
  | some w =>
      obtain ⟨count, offset⟩ := w
      cases offset <;> rfl

theorem terminals_commaSeparated_map {items? : Option (List (List Lexeme))}
    {items?' : Option (List (List Phrase))}
    (h : items?.map (List.map terminals) = items?'.map (List.map Phrase.terminalsAll)) :
    (items?.map commaSeparated).map terminals = (items?'.map listed).map Phrase.terminalsAll := by
  match items?, items?', h with
  | none, none, _ => rfl
  | some items, some items', h => exact congrArg some (terminals_listed (Option.some.inj h))

/-- A query from its pieces. -/
theorem terminals_query (dialect : Dialect) (counted distinct locking : Bool)
    {output grouping ordering : Option (List (List Lexeme))} {sources : List Lexeme}
    {filter : Option (List Lexeme)} {limit : Option Window}
    {output' grouping' ordering' : Option (List (List Phrase))} {sources' : List Phrase}
    {filter' : Option (List Phrase)}
    (houtput : output.map (List.map terminals) = output'.map (List.map Phrase.terminalsAll))
    (hsources : terminals sources = Phrase.terminalsAll sources')
    (hfilter : filter.map terminals = filter'.map Phrase.terminalsAll)
    (hgrouping : grouping.map (List.map terminals) = grouping'.map (List.map Phrase.terminalsAll))
    (hordering : ordering.map (List.map terminals) = ordering'.map (List.map Phrase.terminalsAll)) :
    terminals (queryLexemes dialect counted distinct locking output sources filter grouping ordering
      limit) = Phrase.terminalsAll (Phrase.query dialect counted distinct locking output' sources'
        filter' grouping' ordering' limit) := by
  have hselect : terminals (word "SELECT" :: space :: (if distinct then [word "DISTINCT", space]
      else [])) = Phrase.terminalsAll
        (.word "SELECT" :: (if distinct then [.word "DISTINCT"] else [])) := by
    cases distinct <;> rfl
  have hcount : terminals (application "COUNT" [[symbol "*"]]) =
      Phrase.terminalsAll [Phrase.rowCount] := rfl
  have hwhere : terminals (optionalClause ["WHERE"] filter) =
      Phrase.terminalsAll (Phrase.clause ["WHERE"] filter') := terminals_clause rfl hfilter
  have hgroup : terminals (optionalClause ["GROUP", "BY"] (grouping.map commaSeparated)) =
      Phrase.terminalsAll (Phrase.clause ["GROUP", "BY"] (grouping'.map listed)) :=
    terminals_clause rfl (terminals_commaSeparated_map hgrouping)
  have horder : terminals (optionalClause ["ORDER", "BY"] (ordering.map commaSeparated)) =
      Phrase.terminalsAll (Phrase.clause ["ORDER", "BY"] (ordering'.map listed)) :=
    terminals_clause rfl (terminals_commaSeparated_map hordering)
  have hlock : terminals (if locking && dialect.locksRows then space :: words ["FOR", "UPDATE"]
      else []) = Phrase.terminalsAll (if locking && dialect.locksRows then
        [.word "FOR", .word "UPDATE"] else []) := by
    cases locking && dialect.locksRows <;> rfl
  have hrows : terminals (queryLexemes dialect false distinct locking output sources filter grouping
      ordering limit) = Phrase.terminalsAll (Phrase.query dialect false distinct locking output'
        sources' filter' grouping' ordering' limit) := by
    unfold queryLexemes Phrase.query
    match output, output', houtput with
    | none, none, _ =>
      simp only [Bool.false_eq_true, if_false, terminals_append, Phrase.terminalsAll_append,
        hselect, hcount, hsources, hwhere, hgroup, horder, hlock, terminals_window, Option.map_none,
        Option.getD_none]
    | some _, some _, houtput =>
      simp only [Bool.false_eq_true, if_false, terminals_append, Phrase.terminalsAll_append,
        hselect, terminals_listed (Option.some.inj houtput), hsources, hwhere, hgroup, horder,
        hlock, terminals_window, Option.map_some, Option.getD_some]
  cases counted with
  | false => exact hrows
  | true =>
      have hsub := terminals_parenthesized_phrases hrows
      have hrest : terminals (queryLexemes dialect true distinct locking output sources filter
          grouping ordering limit) = [.name "SELECT", .name "COUNT", .opening, .operator .mul,
            .closing, .name "FROM"] ++ terminals (parenthesized (queryLexemes dialect false distinct
              locking output sources filter grouping ordering limit) ++ [space, word "sub"]) := rfl
      rw [hrest, terminals_append, hsub]
      rfl

end

/-! ### Terms -/

theorem phrases_ne_nil (dialect : Dialect) {ts : List Term} (h : ts ≠ []) :
    phrases dialect ts ≠ [] := by
  cases ts with
  | nil => exact absurd rfl h
  | cons t ts => nofun

theorem chunkPhrases_ne_nil (dialect : Dialect) (negated : Bool) {chunks : List (Term × List Value)}
    (h : chunks ≠ []) : chunkPhrases dialect negated chunks ≠ [] := by
  cases chunks with
  | nil => exact absurd rfl h
  | cons chunk chunks => nofun

theorem length_chunksLexemes (dialect : Dialect) (negated : Bool)
    (chunks : List (Term × List Value)) :
    (chunksLexemes dialect negated chunks).length = chunks.length := by
  induction chunks with
  | nil => rfl
  | cons chunk chunks ih => rw [chunksLexemes, List.length_cons, List.length_cons, ih]

section

variable {ls ls' : List Lexeme} {a b : Phrase}

/-- An operation from its operands and what stands between them. -/
theorem terminals_operation {c : Connector} {between : List Lexeme}
    (hc : terminals between = c.terminals) (h : terminals ls = a.terminals)
    (h' : terminals ls' = b.terminals) :
    terminals (ls ++ (between ++ ls')) = (Phrase.operation c a b).terminals := by
  rw [terminals_append, terminals_append, h, hc, h', Phrase.terminals]

theorem terminals_membership_phrase (negated : Bool) {ps : List Phrase}
    (h : terminals ls = a.terminals) (h' : terminals ls' = Phrase.terminalsAll ps) :
    terminals (membership negated ls ls') =
      (Phrase.operation (.member negated) a (.bracketed none ps)).terminals := by
  rw [terminals_membership, h, h', Phrase.terminals, Phrase.terminals]
  rfl

theorem terminals_valueLexemes (values : List Value) : terminals (valueLexemes values) =
    Phrase.terminalsAll (listed (values.map fun v => [.leaf (.param (.value v))])) := by
  refine terminals_listed ?_
  rw [List.map_map, List.map_map]
  rfl

/-- A case distinction from its pieces. -/
theorem terminals_distinction {operand otherwise : Option (List Lexeme)}
    {operand' otherwise' : Option Phrase} {ps : List Phrase}
    (hoperand : operand.map terminals = operand'.map Phrase.terminals)
    (hbranches : terminals ls = Phrase.terminalsAll ps)
    (hotherwise : otherwise.map terminals = otherwise'.map Phrase.terminals) :
    terminals (word "CASE" :: (operand.map ([space] ++ ·)).getD [] ++ ls ++
      (otherwise.map ([space, word "ELSE", space] ++ ·)).getD [] ++ [space, word "END"]) =
        (Phrase.distinction (operand'.toList ++ ps ++
          (otherwise'.map fun a => [.mark .elseWord, a]).getD [])).terminals := by
  have hcase (ls : List Lexeme) : terminals (word "CASE" :: ls) =
      .keyword .caseWord :: terminals ls := rfl
  have hfirst : terminals ((operand.map ([space] ++ ·)).getD []) =
      Phrase.terminalsAll operand'.toList := by
    match operand, operand', hoperand with
    | none, none, _ => rfl
    | some _, some a, h => exact (Option.some.inj h).trans (Phrase.terminalsAll_singleton a).symm
  have hlast : terminals ((otherwise.map ([space, word "ELSE", space] ++ ·)).getD []) =
      Phrase.terminalsAll ((otherwise'.map fun a => [.mark .elseWord, a]).getD []) := by
    match otherwise, otherwise', hotherwise with
    | none, none, _ => rfl
    | some _, some a, h =>
      refine congrArg (Terminal.keyword .elseWord :: ·) ?_
      exact (Option.some.inj h).trans (Phrase.terminalsAll_singleton a).symm
  rw [List.cons_append, List.cons_append, List.cons_append, hcase, terminals_append,
    terminals_append, terminals_append, hfirst, hbranches, hlast, Phrase.terminals,
    Phrase.terminalsAll_append, Phrase.terminalsAll_append]
  rfl

end

section

variable {dialect : Dialect}

mutual

/-- A term that is all written as phrases is printed as the phrase that it is meant to be read
as. -/
theorem Term.terminals_phrase :
    ∀ t : Term, PrintAsPhrases dialect t.subterms →
      terminals (t.lexemes dialect) = (t.phrase dialect).terminals
  | .column _ qualifier name, _ => terminals_column qualifier name
  | .definition .., _ | .missing _, _ | .literal _, _ | .param _, _ | .wildcard, _
  | .inNothing _, _ => rfl
  | .interval .., h => by
    obtain ⟨⟨-, hdialect⟩, -⟩ := List.forall_mem_cons.mp h
    cases dialect with
    | postgres | mysql => cases hdialect
    | generic | sqlite => rfl
  | .override _ _ body, h =>
    terminals_grouped_phrase _ (body.terminals_phrase (List.forall_mem_cons.mp h).2)
  | .call function args, h => by
    obtain ⟨⟨hname, -⟩, hargs⟩ := List.forall_mem_cons.mp h
    simp only [Term.staysWhole, isFunctionName, Bool.and_eq_true, Option.isNone_iff_eq_none]
      at hname
    exact terminals_application hname.1
      (terminals_listed_singletons (termsLexemes_phrases args hargs))
  | .binary op left right, h => by
    obtain ⟨hleft, hright⟩ := List.forall_mem_append.mp (List.forall_mem_cons.mp h).2
    have hop : terminals (space :: op.lexemes) = (Connector.binary op).terminals :=
      terminals_operator op
    rw [Term.lexemes, List.append_assoc]
    exact terminals_operation hop
      (terminals_grouped_phrase _ (left.terminals_phrase hleft))
      (terminals_grouped_phrase _ (right.terminals_phrase hright))
  | .logical op [], _ => terminals_unit op
  | .logical _ [operand], h =>
    operand.terminals_phrase (List.forall_mem_append.mp (List.forall_mem_cons.mp h).2).1
  | .logical op (first :: second :: rest), h => by
    obtain ⟨hfirst, hmore⟩ := List.forall_mem_append.mp (List.forall_mem_cons.mp h).2
    obtain ⟨hsecond, hrest⟩ := List.forall_mem_append.mp hmore
    have hsep : terminals [space, word op.keyword, space] = (Connector.logical op).terminals := by
      cases op <;> rfl
    refine terminals_chained hsep (List.cons_ne_nil _ _) ?_
    rw [List.map_cons, List.map_cons,
      terminals_grouped_phrase _ (first.terminals_phrase hfirst),
      terminals_grouped_phrase _ (second.terminals_phrase hsecond),
      operandsLexemes_phrases rest hrest]
    rfl
  | .not operand, h => by
    have hoperand := terminals_grouped_phrase operand.isComposite
      (operand.terminals_phrase (List.forall_mem_cons.mp h).2)
    exact congrArg (Terminal.keyword .notWord :: ·) hoperand
  | .isNull negated operand, h => by
    have hoperand := terminals_grouped_phrase operand.isComposite
      (operand.terminals_phrase (List.forall_mem_cons.mp h).2)
    rw [Term.lexemes, terminals_append, terminals_is, hoperand]
    rfl
  | .inChunks negated chunks, h => by
    obtain ⟨⟨hwhole, -⟩, hchunks⟩ := List.forall_mem_cons.mp h
    have hne : chunks ≠ [] := by
      rintro rfl
      cases hwhole
    rw [Term.lexemes, chunkLexemes, length_chunksLexemes]
    refine terminals_grouped_phrase _ (terminals_chained ?_ (chunkPhrases_ne_nil _ _ hne)
      (chunksLexemes_phrases negated chunks hchunks))
    cases negated <;> rfl
  | .inArray negated operand values, h => by
    have hoperand := terminals_grouped_phrase operand.isComposite
      (operand.terminals_phrase (List.forall_mem_cons.mp h).2)
    rw [Term.lexemes, terminals_append, terminals_append, hoperand, List.append_assoc]
    cases negated <;> rfl
  | .inTerms negated operand items, h => by
    obtain ⟨hoperand, hitems⟩ := List.forall_mem_append.mp (List.forall_mem_cons.mp h).2
    exact terminals_membership_phrase negated
      (terminals_grouped_phrase _ (operand.terminals_phrase hoperand))
      (terminals_listed_singletons (termsLexemes_phrases items hitems))
  | .inQuery negated operand query, h => by
    obtain ⟨hoperand, hquery⟩ := List.forall_mem_append.mp (List.forall_mem_cons.mp h).2
    exact terminals_membership_phrase negated
      (terminals_grouped_phrase _ (operand.terminals_phrase hoperand))
      (queryTerms_phrases query hquery)
  | .caseWhen operand branches otherwise, h => by
    obtain ⟨hmost, hotherwise⟩ := List.forall_mem_append.mp (List.forall_mem_cons.mp h).2
    obtain ⟨hoperand, hbranches⟩ := List.forall_mem_append.mp hmost
    have hfirst := optional_phrases operand hoperand
    have hlast := optional_phrases otherwise hotherwise
    rw [Term.lexemes_caseWhen]
    exact terminals_distinction hfirst (branchesLexemes_phrases branches hbranches) hlast
  | .search mode columns query, h => by
    obtain ⟨⟨hwhole, hdialect⟩, hcolumns⟩ := List.forall_mem_cons.mp h
    have hne : columns ≠ [] := by
      rintro rfl
      cases hwhole
    exact terminals_search hdialect mode query (phrases_ne_nil dialect hne)
      (termsLexemes_phrases columns hcolumns)
  | .temporal op operand, h =>
    have hparts := List.forall_mem_cons.mp h
    terminals_temporal hparts.1.2 op (operand.terminals_phrase hparts.2)
  | .subquery query, h =>
    terminals_parenthesized_phrases
      (queryTerms_phrases query (List.forall_mem_cons.mp h).2)
  | .existsRow query, h => by
    have hquery := terminals_parenthesized_phrases
      (queryTerms_phrases query (List.forall_mem_cons.mp h).2)
    exact congrArg (Terminal.name "EXISTS" :: ·) hquery

theorem termsLexemes_phrases :
    ∀ ts : List Term, PrintAsPhrases dialect (innerAll ts) →
      (termsLexemes dialect ts).map terminals = (phrases dialect ts).map Phrase.terminals
  | [], _ => rfl
  | t :: ts, h => by
    obtain ⟨ht, hts⟩ := List.forall_mem_append.mp h
    rw [termsLexemes, List.map_cons, t.terminals_phrase ht,
      termsLexemes_phrases ts hts]
    rfl

theorem operandsLexemes_phrases :
    ∀ ts : List Term, PrintAsPhrases dialect (innerAll ts) →
      (operandsLexemes dialect ts).map terminals = (operandPhrases dialect ts).map Phrase.terminals
  | [], _ => rfl
  | t :: ts, h => by
    obtain ⟨ht, hts⟩ := List.forall_mem_append.mp h
    rw [operandsLexemes, List.map_cons,
      terminals_grouped_phrase _ (t.terminals_phrase ht),
      operandsLexemes_phrases ts hts]
    rfl

theorem optional_phrases :
    ∀ t? : Option Term, PrintAsPhrases dialect (innerOptional t?) →
      (t?.map (Term.lexemes dialect)).map terminals =
        (optionalPhrase dialect t?).map Phrase.terminals
  | none, _ => rfl
  | some t, h => congrArg some (t.terminals_phrase h)

theorem chunksLexemes_phrases (negated : Bool) :
    ∀ chunks : List (Term × List Value), PrintAsPhrases dialect (innerChunks chunks) →
      (chunksLexemes dialect negated chunks).map terminals =
        (chunkPhrases dialect negated chunks).map Phrase.terminals
  | [], _ => rfl
  | (operand, values) :: rest, h => by
    obtain ⟨hoperand, hrest⟩ := List.forall_mem_append.mp h
    rw [chunksLexemes, List.map_cons, terminals_membership_phrase negated
      (terminals_grouped_phrase _ (operand.terminals_phrase hoperand))
      (terminals_valueLexemes values), chunksLexemes_phrases negated rest hrest]
    rfl

theorem branchesLexemes_phrases :
    ∀ branches : List (Term × Term), PrintAsPhrases dialect (innerBranches branches) →
      terminals (branchesLexemes dialect branches) =
        Phrase.terminalsAll (branchPhrases dialect branches)
  | [], _ => rfl
  | (condition, result) :: rest, h => by
    obtain ⟨hbranch, hrest⟩ := List.forall_mem_append.mp h
    obtain ⟨hcondition, hresult⟩ := List.forall_mem_append.mp hbranch
    have hwhen (ls : List Lexeme) : terminals (space :: word "WHEN" :: space :: ls) =
        .keyword .whenWord :: terminals ls := rfl
    have hthen (ls : List Lexeme) : terminals (space :: word "THEN" :: space :: ls) =
        .keyword .thenWord :: terminals ls := rfl
    rw [branchesLexemes, terminals_append, terminals_append, hwhen, hthen,
      condition.terminals_phrase hcondition, result.terminals_phrase hresult,
      branchesLexemes_phrases rest hrest, branchPhrases, Phrase.terminalsAll_append]
    simp only [Phrase.terminalsAll, List.append_nil, List.append_assoc]
    rfl

theorem outputLexemes_phrases (labelled : Bool) :
    ∀ columns : List (FieldExprOf Term), PrintAsPhrases dialect (innerOutput columns) →
      (outputLexemes dialect labelled columns).map terminals =
        (outputPhrases dialect labelled columns).map Phrase.terminalsAll
  | [], _ => rfl
  | { field, expr } :: rest, h => by
    obtain ⟨hexpr, hrest⟩ := List.forall_mem_append.mp h
    have hlabel : terminals (if labelled then [space, word "AS", space, identifier field] else []) =
        Phrase.terminalsAll (if labelled then [.word "AS", .leaf (.identifier field)] else []) := by
      cases labelled <;> rfl
    rw [outputLexemes, List.map_cons, terminals_append, expr.terminals_phrase hexpr,
      hlabel, outputLexemes_phrases labelled rest hrest]
    rfl

theorem joinsLexemes_phrases :
    ∀ joins : List (JoinedTableOf Term), PrintAsPhrases dialect (innerJoins joins) →
      terminals (joinsLexemes dialect joins).flatten =
        Phrase.terminalsAll (joinPhrases dialect joins)
  | [], _ => rfl
  | { kind, item, on } :: rest, h => by
    obtain ⟨hcondition, hrest⟩ := List.forall_mem_append.mp h
    have hkind : terminals kind.lexemes = Phrase.terminalsAll (Phrase.join kind) := by
      cases kind <;> rfl
    have hspace (ls : List Lexeme) : terminals (space :: ls) = terminals ls := rfl
    have hon (ls : List Lexeme) : terminals (space :: word "ON" :: space :: ls) =
        .name "ON" :: terminals ls := rfl
    rw [joinsLexemes, List.flatten_cons, terminals_append, terminals_append, terminals_append,
      hspace, hkind, hspace, terminals_table, hon, on.terminals_phrase hcondition,
      joinsLexemes_phrases rest hrest, joinPhrases, Phrase.terminalsAll_append,
      Phrase.terminalsAll_append, Phrase.terminalsAll_append,
      ← Phrase.terminalsAll_singleton (on.phrase dialect)]
    rfl

theorem sortKeysLexemes_phrases :
    ∀ keys : List (SortKeyOf Term), PrintAsPhrases dialect (innerSortKeys keys) →
      (sortKeysLexemes dialect keys).map terminals =
        (sortKeyPhrases dialect keys).map Phrase.terminalsAll
  | [], _ => rfl
  | { expr, descending } :: rest, h => by
    obtain ⟨hexpr, hrest⟩ := List.forall_mem_append.mp h
    have hdirection : terminals [space, word (if descending then "DESC" else "ASC")] =
        Phrase.terminalsAll [.word (if descending then "DESC" else "ASC")] := by
      cases descending <;> rfl
    rw [sortKeysLexemes, List.map_cons, terminals_append, expr.terminals_phrase hexpr,
      hdirection, sortKeysLexemes_phrases rest hrest]
    rfl

theorem results_phrases (labelled : Bool) :
    ∀ columns? : Option (List (FieldExprOf Term)), PrintAsPhrases dialect (innerResults columns?) →
      (columns?.map (outputLexemes dialect labelled)).map (List.map terminals) =
        (resultPhrases dialect labelled columns?).map (List.map Phrase.terminalsAll)
  | none, _ => rfl
  | some columns, h => congrArg some (outputLexemes_phrases labelled columns h)

theorem grouping_phrases :
    ∀ ts? : Option (List Term), PrintAsPhrases dialect (innerGrouping ts?) →
      (ts?.map (termsLexemes dialect)).map (List.map terminals) =
        (groupingPhrases dialect ts?).map (List.map Phrase.terminalsAll)
  | none, _ => rfl
  | some ts, h => by
    rw [Option.map_some, Option.map_some, termsLexemes_phrases ts h]
    exact congrArg some (Phrase.map_terminalsAll_singletons _).symm

theorem ordering_phrases :
    ∀ keys? : Option (List (SortKeyOf Term)), PrintAsPhrases dialect (innerOrdering keys?) →
      (keys?.map (sortKeysLexemes dialect)).map (List.map terminals) =
        (orderingPhrases dialect keys?).map (List.map Phrase.terminalsAll)
  | none, _ => rfl
  | some keys, h => congrArg some (sortKeysLexemes_phrases keys h)

/-- A query that is all written as phrases is printed as the contents that it is meant to be read
as. -/
theorem queryTerms_phrases :
    ∀ q : QueryOf Term, PrintAsPhrases dialect (innerQuery q) →
      terminals (queryTerms dialect q) = Phrase.terminalsAll (queryPhrases dialect q)
  | { counted, labelled, distinct, output, tables, joins, filter, grouping, ordering, limit,
      locking, .. }, h => by
    obtain ⟨hmost, hordering⟩ := List.forall_mem_append.mp h
    obtain ⟨hmost, hgrouping⟩ := List.forall_mem_append.mp hmost
    obtain ⟨hmost, hfilter⟩ := List.forall_mem_append.mp hmost
    obtain ⟨houtput, hjoins⟩ := List.forall_mem_append.mp hmost
    have hordered := ordering_phrases ordering hordering
    have hgrouped := grouping_phrases grouping hgrouping
    have hfiltered := optional_phrases filter hfilter
    have hresults := results_phrases labelled output houtput
    have hsources := terminals_sources tables fun hempty =>
      joinsLexemes_phrases joins (by simpa [hempty] using hjoins)
    rw [queryTerms_eq]
    refine terminals_query dialect counted distinct locking hresults hsources ?_ hgrouped hordered
    exact hfiltered.trans (Phrase.map?_terminalsAll_singletons _).symm

end

end

end RecordStore
