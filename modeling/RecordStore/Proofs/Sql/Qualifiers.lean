import RecordStore.Proofs.Sql.Parts
import RecordStore.Sql.Printer

/-! # Aliases in print

In print a qualifier is the alias of a table with a dot after it; where no dot comes after it the
alias is introduced.  Printing brings in no other qualifiers than those of the columns of a query,
and the aliases that it introduces are those of its tables as long as no join is without a table to
join against (`queryTerms_printed`). -/

namespace RecordStore

namespace Lexeme

/-- The aliases in front of a dot. -/
def qualifiers : List Lexeme → List Alias
  | [] => []
  | tableAlias a :: rest =>
    if rest.head? = some (symbol ".") then a :: qualifiers rest else qualifiers rest
  | _ :: rest => qualifiers rest

/-- The aliases with no dot after them. -/
def introduced : List Lexeme → List Alias
  | [] => []
  | tableAlias a :: rest =>
    if rest.head? = some (symbol ".") then introduced rest else a :: introduced rest
  | _ :: rest => introduced rest

/-- The lexeme is neither an alias nor a dot. -/
def isPlain : Lexeme → Bool
  | tableAlias _ => false
  | symbol s => s != "."
  | _ => true

theorem aliases_cons_plain {l : Lexeme} (h : l.isPlain = true) (ls : List Lexeme) :
    qualifiers (l :: ls) = qualifiers ls ∧ introduced (l :: ls) = introduced ls := by
  cases l with
  | tableAlias a => cases h
  | space | word | symbol | identifier | literal | definition | param => exact ⟨rfl, rfl⟩

/-- Lexemes that do not begin with a dot have their aliases to themselves. -/
theorem aliases_append {ls' : List Lexeme} (h : ls'.head? ≠ some (symbol "."))
    (ls : List Lexeme) : qualifiers (ls ++ ls') = qualifiers ls ++ qualifiers ls' ∧
      introduced (ls ++ ls') = introduced ls ++ introduced ls' := by
  induction ls with
  | nil => exact ⟨rfl, rfl⟩
  | cons l ls ih =>
      cases l with
      | tableAlias a =>
          have hhead : (ls ++ ls').head? = some (symbol ".") ↔ ls.head? = some (symbol ".") := by
            cases ls with
            | nil => exact iff_of_false h (by simp)
            | cons l ls => exact Iff.rfl
          rw [List.cons_append, qualifiers, qualifiers, introduced, introduced, ih.1, ih.2]
          simp only [hhead]
          constructor <;> split <;> rfl
      | space | word | symbol | identifier | literal | definition | param => exact ih

/-- What is expected of lexemes. -/
@[ext]
structure Marks where
  qualifiers : List Alias
  introduced : List Alias
  /-- No join is left out of print. -/
  complete : Prop

namespace Marks

instance : Append Marks where
  append m m' := ⟨m.qualifiers ++ m'.qualifiers, m.introduced ++ m'.introduced,
    m.complete ∧ m'.complete⟩

/-- The qualifiers of columns and the aliases that parts introduce. -/
def of (us : List ColumnUse) (ps : List Part) : Marks :=
  ⟨us.filterMap (·.qualifier), ps.flatMap Part.aliases, ∀ p ∈ ps, p.Joinable⟩

/-- Nothing is expected. -/
def empty : Marks := of [] []

/-- Only aliases of tables are expected. -/
def labels (as : List Alias) : Marks := ⟨[], as, True⟩

theorem labels_nil : labels [] = empty :=
  Marks.ext rfl rfl (propext (iff_of_true trivial fun _ h => by cases h))

theorem labels_cons (a : Alias) (as : List Alias) : labels (a :: as) = labels [a] ++ labels as :=
  Marks.ext rfl rfl (true_and True).symm

theorem append_empty (m : Marks) : m ++ empty = m :=
  Marks.ext (List.append_nil m.qualifiers) (List.append_nil m.introduced)
    (propext (and_iff_left fun _ h => by cases h))

theorem empty_append (m : Marks) : empty ++ m = m :=
  Marks.ext rfl rfl (propext (and_iff_right fun _ h => by cases h))

theorem append_assoc (m m' m'' : Marks) : m ++ m' ++ m'' = m ++ (m' ++ m'') :=
  Marks.ext (List.append_assoc ..) (List.append_assoc ..) (propext and_assoc)

theorem of_append (us us' : List ColumnUse) (ps ps' : List Part) :
    of (us ++ us') (ps ++ ps') = of us ps ++ of us' ps' :=
  Marks.ext List.filterMap_append List.flatMap_append (propext List.forall_mem_append)

/-- The joins of a query have the columns of their conditions, and they introduce the aliases of
their tables first. -/
def joins (around : List Declaration) (joins : List JoinedTable) : Marks :=
  .labels (joins.map (·.item.label)) ++ .of (usesJoins around joins) (partsJoins around joins)

theorem of_query (around : List Declaration) (q : Query) :
    of (usesQuery around q) (partsQuery around q) = of [] [.query q around] ++
      (of (usesColumns (q.declaration :: around) q.output)
          (partsResults (q.declaration :: around) q.output) ++
        of (usesJoins (q.declaration :: around) q.joins)
          (partsJoins (q.declaration :: around) q.joins) ++
        of (usesOptional (q.declaration :: around) q.filter)
          (partsOptional (q.declaration :: around) q.filter) ++
        of (usesGrouping (q.declaration :: around) q.grouping)
          (partsGrouping (q.declaration :: around) q.grouping) ++
        of (usesOrdering (q.declaration :: around) q.ordering)
          (partsOrdering (q.declaration :: around) q.ordering)) := by
  simp only [← of_append]
  cases q
  rfl

end Marks

/-- Printed lexemes do not begin with a dot.  They have only these qualifiers, and they introduce
these aliases unless a join is left out. -/
structure Printed (ls : List Lexeme) (m : Marks) : Prop where
  undotted : ls.head? ≠ some (symbol ".")
  sublist : (qualifiers ls).Sublist m.qualifiers
  perm : m.complete → (introduced ls).Perm m.introduced

namespace Printed

variable {ls ls' : List Lexeme} {m m' : Marks}

theorem nil : Printed [] .empty := ⟨by simp, .refl _, fun _ => .refl _⟩

theorem append (h : Printed ls m) (h' : Printed ls' m') : Printed (ls ++ ls') (m ++ m') where
  undotted := by
    cases ls with
    | nil => exact h'.undotted
    | cons l ls => exact h.undotted
  sublist := by
    rw [(aliases_append h'.undotted ls).1]
    exact h.sublist.append h'.sublist
  perm := by
    rintro ⟨hm, hm'⟩
    rw [(aliases_append h'.undotted ls).2]
    exact (h.perm hm).append (h'.perm hm')

theorem cons {l : Lexeme} (hl : l.isPlain = true) (h : Printed ls m) : Printed (l :: ls) m where
  undotted := by
    intro hdot
    obtain rfl := Option.some.inj hdot
    cases hl
  sublist := by
    rw [(aliases_cons_plain hl ls).1]
    exact h.sublist
  perm hm := by
    rw [(aliases_cons_plain hl ls).2]
    exact h.perm hm

theorem plain (h : ls.all isPlain = true) : Printed ls .empty := by
  induction ls with
  | nil => exact nil
  | cons l ls ih =>
      rw [List.all_cons, Bool.and_eq_true] at h
      exact cons h.1 (ih h.2)

/-- Plain lexemes on either side change nothing. -/
theorem before (ls : List Lexeme) (h : ls.all isPlain = true) (h' : Printed ls' m) :
    Printed (ls ++ ls') m := by
  have happend := (plain h).append h'
  rwa [Marks.empty_append] at happend

theorem after (h : Printed ls m) (h' : ls'.all isPlain = true) : Printed (ls ++ ls') m := by
  have happend := h.append (plain h')
  rwa [Marks.append_empty] at happend

theorem mono (h : Printed ls m) (hqualifiers : m.qualifiers.Sublist m'.qualifiers)
    (hcomplete : m'.complete → m.complete ∧ m.introduced.Perm m'.introduced) : Printed ls m' where
  undotted := h.undotted
  sublist := h.sublist.trans hqualifiers
  perm hm' := (h.perm (hcomplete hm').1).trans (hcomplete hm').2

/-- A query comes first among its parts, though it introduces its aliases after its results. -/
theorem own_first {own : Marks} (hown : own.qualifiers = [])
    (h : Printed ls (m ++ (own ++ m'))) : Printed ls (own ++ (m ++ m')) := by
  refine h.mono ?_ ?_
  · change (m.qualifiers ++ (own.qualifiers ++ m'.qualifiers)).Sublist
      (own.qualifiers ++ (m.qualifiers ++ m'.qualifiers))
    rw [hown]
    exact .refl _
  · rintro ⟨ho, hm, hm'⟩
    exact ⟨⟨hm, ho, hm'⟩, List.perm_append_comm_assoc _ _ _⟩

theorem parenthesized (h : Printed ls m) : Printed (Lexeme.parenthesized ls) m :=
  cons rfl (after h rfl)

theorem grouped (needed : Bool) (h : Printed ls m) : Printed (Lexeme.grouped needed ls) m := by
  cases needed with
  | false => exact h
  | true => exact h.parenthesized

end Printed

/-- Lists of printed lexemes that together have these aliases. -/
inductive PrintedAll : List (List Lexeme) → Marks → Prop where
  | nil : PrintedAll [] .empty
  | cons {ls : List Lexeme} {items : List (List Lexeme)} {m m' : Marks}
      (head : Printed ls m) (tail : PrintedAll items m') : PrintedAll (ls :: items) (m ++ m')

namespace PrintedAll

variable {items : List (List Lexeme)} {m : Marks}

theorem singleton {ls : List Lexeme} (h : Printed ls m) : PrintedAll [ls] m := by
  have hcons := cons h nil
  rwa [Marks.append_empty] at hcons

theorem cons_plain {ls : List Lexeme} (h : ls.all isPlain = true) (tail : PrintedAll items m) :
    PrintedAll (ls :: items) m := by
  have hcons := cons (.plain h) tail
  rwa [Marks.empty_append] at hcons

/-- With plain lexemes between them. -/
theorem intercalate {sep : List Lexeme} (hsep : sep.all isPlain = true) (h : PrintedAll items m) :
    Printed (sep.intercalate items) m := by
  induction h with
  | nil => exact .nil
  | @cons ls items m m' head tail ih =>
      cases items with
      | nil =>
          cases tail
          rw [List.intercalate_singleton, Marks.append_empty]
          exact head
      | cons ls' items =>
          rw [List.intercalate_cons_cons]
          exact (head.after hsep).append ih

theorem flatten (h : PrintedAll items m) : Printed items.flatten m := by
  induction h with
  | nil => exact .nil
  | cons head _ ih => exact head.append ih

theorem map {f : List Lexeme → List Lexeme}
    (hf : ∀ (ls : List Lexeme) (m : Marks), Printed ls m → Printed (f ls) m)
    (h : PrintedAll items m) : PrintedAll (items.map f) m := by
  induction h with
  | nil => exact .nil
  | cons head _ ih => exact .cons (hf _ _ head) ih

theorem commaSeparated (h : PrintedAll items m) : Printed (Lexeme.commaSeparated items) m :=
  h.intercalate rfl

theorem wordSeparated (w : String) (h : PrintedAll items m) :
    Printed (Lexeme.wordSeparated w items) m :=
  h.intercalate rfl

theorem application (function : String) (h : PrintedAll items m) :
    Printed (Lexeme.application function items) m :=
  .cons rfl h.commaSeparated.parenthesized

end PrintedAll

end Lexeme

open Lexeme

/-! ### Pieces of expressions -/

variable {ls ls' : List Lexeme} {m m' : Marks} {dialect : Dialect}

theorem columnLexemes_printed (around : List Declaration) (source : ColumnRef)
    (qualifier : Option Alias) (name : String) :
    Printed (columnLexemes qualifier name)
      (Marks.of [⟨source, qualifier, around⟩] [.column ⟨source, qualifier, around⟩]) := by
  cases qualifier with
  | none => exact ⟨by simp [columnLexemes], .refl _, fun _ => .refl _⟩
  | some a => exact ⟨by simp [columnLexemes], .refl _, fun _ => .refl _⟩

theorem membership_printed (negated : Bool) (h : Printed ls m) (h' : Printed ls' m') :
    Printed (membership negated ls ls') (m ++ m') := by
  have hwords : (space :: inWords negated).all isPlain = true := by cases negated <;> rfl
  exact (h.after hwords).append (.cons rfl h'.parenthesized)

theorem valueLexemes_printed (values : List Value) : Printed (valueLexemes values) .empty := by
  have hall : PrintedAll (values.map fun v => [Lexeme.param (.value v)]) .empty := by
    induction values with
    | nil => exact .nil
    | cons v values ih => exact .cons_plain rfl ih
  exact hall.commaSeparated

theorem extracted_printed (field : String) (h : Printed ls m) :
    Printed (extracted field ls) m :=
  .cons rfl (Printed.before (words [field, "FROM"]) rfl (.cons rfl h)).parenthesized

theorem formattedNumber_printed (format : String) (h : Printed ls m) :
    Printed (formattedNumber format ls) m := by
  have hcall : Printed (application "strftime" [[textLiteral format], ls]) m :=
    PrintedAll.application _ (.cons_plain rfl (.singleton h))
  exact .cons rfl (hcall.after rfl).parenthesized

theorem temporal_printed (dialect : Dialect) (op : TemporalOp) (h : Printed ls m) :
    Printed (op.lexemes dialect ls) m := by
  have hall := PrintedAll.singleton h
  cases op with
  | part unit =>
      cases dialect with
      | sqlite => exact formattedNumber_printed _ h
      | generic | postgres | mysql => exact extracted_printed _ h
  | start unit =>
      cases dialect with
      | sqlite | generic | postgres => exact PrintedAll.application _ (.cons_plain rfl hall)
      | mysql =>
          have hformat : [textLiteral (unit.startFormat "%i" "%s")].all isPlain = true := rfl
          have hargs := PrintedAll.cons h (.cons_plain hformat .nil)
          rw [Marks.append_empty] at hargs
          exact hargs.application _
  | epoch =>
      cases dialect with
      | sqlite => exact formattedNumber_printed _ h
      | mysql => exact hall.application _
      | generic | postgres => exact extracted_printed _ h

theorem containsTest_printed (query : String) (h : Printed ls m) :
    Printed (containsTest query ls) m :=
  h.after rfl

theorem containsScore_printed (query : String) (h : Printed ls m) :
    Printed (containsScore query ls) m := by
  have htest := Printed.before (words ["CASE", "WHEN"]) rfl
    (.cons (l := space) rfl (containsTest_printed query h))
  exact htest.after rfl

theorem searchDocument_printed {columns : List (List Lexeme)} (h : PrintedAll columns m) :
    Printed (searchDocument columns) m :=
  PrintedAll.application _ (.singleton (PrintedAll.application _ (.cons_plain rfl h)))

theorem searchLexemes_printed (dialect : Dialect) (mode : SearchMode) (query : String)
    {columns : List (List Lexeme)} (h : PrintedAll columns m) :
    Printed (searchLexemes dialect mode query columns) m := by
  have hdocument := searchDocument_printed h
  have htests := h.map fun _ _ => containsTest_printed query
  have hscores := h.map fun _ _ => containsScore_printed query
  cases dialect with
  | postgres =>
      cases mode with
      | «matches» => exact hdocument.after rfl
      | rank =>
          have hquery : (searchQuery query).all isPlain = true := rfl
          have hrank := PrintedAll.cons hdocument (.cons_plain hquery .nil)
          rw [Marks.append_empty] at hrank
          exact hrank.application _
  | mysql => exact (Printed.cons rfl (.cons rfl h.commaSeparated.parenthesized)).after rfl
  | generic | sqlite =>
      cases mode with
      | «matches» => exact htests.wordSeparated _
      | rank => exact (hscores.intercalate rfl).parenthesized

/-! ### Pieces of queries -/

theorem optionalClause_printed (keywords : List String)
    (hwords : (words keywords).all isPlain = true) {content? : Option (List Lexeme)}
    (h : Printed (content?.getD []) m) : Printed (optionalClause keywords content?) m := by
  cases content? with
  | none => exact h
  | some content => exact Printed.before (space :: words keywords) hwords (.cons rfl h)

theorem separated_printed {items? : Option (List (List Lexeme))}
    (h : PrintedAll (items?.getD []) m) : Printed ((items?.map commaSeparated).getD []) m := by
  cases items? with
  | none => exact h.commaSeparated
  | some items => exact h.commaSeparated

theorem tables_printed (tables : List TableItem) :
    PrintedAll (tables.map TableItem.lexemes) (.labels (tables.map (·.label))) := by
  induction tables with
  | nil =>
      rw [List.map_nil, List.map_nil, Marks.labels_nil]
      exact .nil
  | cons t tables ih =>
      have hitem : Printed t.lexemes (.labels [t.label]) :=
        ⟨by simp [TableItem.lexemes], .refl _, fun _ => .refl _⟩
      rw [List.map_cons, List.map_cons, Marks.labels_cons]
      exact .cons hitem ih

/-- What comes after `FROM` introduces the aliases of the query first. -/
theorem fromLexemes_printed (q : Query) (outer around : List Declaration)
    (h : Printed (joinsLexemes dialect q.joins).flatten (.joins around q.joins)) :
    Printed (fromLexemes q.tables (joinsLexemes dialect q.joins))
      (.of [] [.query q outer] ++ .of (usesJoins around q.joins) (partsJoins around q.joins)) := by
  unfold fromLexemes
  split
  · next hempty =>
      refine ⟨by simp, List.nil_sublist _, fun hm => ?_⟩
      have htables : q.tables = [] := List.isEmpty_iff.mp hempty
      have hjoins : q.joins = [] := hm.1 _ (List.mem_singleton_self _) htables
      have haliases : q.aliases = [] := by
        unfold Query.aliases Query.declaration
        rw [hempty]
        rfl
      change [].Perm ((q.aliases ++ []) ++ (partsJoins around q.joins).flatMap Part.aliases)
      rw [haliases, hjoins]
      exact .refl _
  · next hne =>
      have hclause : Printed (clause ["FROM"] (commaSeparated (q.tables.map TableItem.lexemes)))
          (.labels (q.tables.map (·.label))) :=
        Printed.before [space, word "FROM"] rfl (.cons rfl (tables_printed q.tables).commaSeparated)
      have haliases : q.aliases = q.tables.map (·.label) ++ q.joins.map (·.item.label) := by
        unfold Query.aliases Query.declaration
        rw [if_neg hne, List.map_append, List.map_map]
        rfl
      refine (hclause.append h).mono (.refl _) fun hm => ⟨⟨trivial, trivial, hm.2⟩, ?_⟩
      change List.Perm _ ((q.aliases ++ []) ++ (partsJoins around q.joins).flatMap Part.aliases)
      rw [haliases, List.append_nil, List.append_assoc]
      exact .refl _

/-- A query has the aliases of its pieces, those that it introduces itself first. -/
theorem queryLexemes_printed {counted distinct locking : Bool}
    {output : Option (List (List Lexeme))} {sources : List Lexeme} {filter : Option (List Lexeme)}
    {grouping ordering : Option (List (List Lexeme))} {limit : Option Window}
    {own m₁ m₂ m₃ m₄ m₅ : Marks} (hown : own.qualifiers = [])
    (houtput : PrintedAll (output.getD []) m₁) (hsources : Printed sources (own ++ m₂))
    (hfilter : Printed (filter.getD []) m₃) (hgrouping : PrintedAll (grouping.getD []) m₄)
    (hordering : PrintedAll (ordering.getD []) m₅) :
    Printed (queryLexemes dialect counted distinct locking output sources filter grouping ordering
      limit) (own ++ (m₁ ++ m₂ ++ m₃ ++ m₄ ++ m₅)) := by
  have hrows : Printed (queryLexemes dialect false distinct locking output sources filter grouping
      ordering limit) (own ++ (m₁ ++ m₂ ++ m₃ ++ m₄ ++ m₅)) := by
    have hselect : (word "SELECT" :: space :: if distinct then [word "DISTINCT", space] else []).all
        isPlain = true := by cases distinct <;> rfl
    have hlimit : ((limit.map Window.lexemes).getD []).all isPlain = true := by
      obtain _ | ⟨count, _ | offset⟩ := limit <;> rfl
    have hlock : (if locking && dialect.locksRows then space :: words ["FOR", "UPDATE"] else []).all
        isPlain = true := by split <;> rfl
    have hwhere := optionalClause_printed ["WHERE"] rfl hfilter
    have hgroups := optionalClause_printed ["GROUP", "BY"] rfl
      (separated_printed hgrouping)
    have horder := optionalClause_printed ["ORDER", "BY"] rfl
      (separated_printed hordering)
    unfold queryLexemes
    dsimp only
    rw [if_neg Bool.false_ne_true, ← Marks.append_assoc, ← Marks.append_assoc, ← Marks.append_assoc]
    refine (((((((Printed.before _ hselect ?_).append hsources).own_first hown).append
      hwhere).append hgroups).append horder).after hlimit).after hlock
    cases output with
    | none => exact houtput.flatten.after rfl
    | some columns => exact houtput.commaSeparated
  cases counted with
  | false => exact hrows
  | true =>
      exact (Printed.before (word "SELECT" :: space :: application "COUNT" [[symbol "*"]]) rfl
        (.before [space, word "FROM", space] rfl hrows.parenthesized)).after rfl

/-! ### Terms and queries -/

theorem prefixed_printed (pre : List Lexeme) (hpre : pre.all isPlain = true)
    {ls? : Option (List Lexeme)} (h : Printed (ls?.getD []) m) :
    Printed ((ls?.map (pre ++ ·)).getD []) m := by
  cases ls? with
  | none => exact h
  | some ls => exact .before pre hpre h

section

variable (dialect : Dialect)

mutual

/-- Printing a term brings in no other qualifiers than those of its columns, and introduces the
aliases of the queries in it. -/
theorem Term.printed (around : List Declaration) : ∀ t : Term,
    Printed (t.lexemes dialect) (Marks.of (t.uses around) (t.parts around))
  | .column source qualifier name => columnLexemes_printed around source qualifier name
  | .definition .. | .missing _ | .literal _ | .param _ | .wildcard | .inNothing _ => .plain rfl
  | .override _ _ body =>
    ((body.printed around).grouped _).mono (.refl _) fun hm =>
      ⟨(List.forall_mem_cons.mp hm).2, .refl _⟩
  | .interval amount unit => by
    cases dialect <;> exact .plain rfl
  | .call function args => (termsLexemes_printed around args).application function
  | .binary op left right => by
    have hop : (space :: op.lexemes).all isPlain = true := by cases op <;> rfl
    rw [Term.lexemes, Term.uses, Term.parts, Marks.of_append]
    exact (((left.printed around).grouped _).after hop).append
      (.cons rfl ((right.printed around).grouped _))
  | .logical op [] => .plain (by cases op <;> rfl)
  | .logical _ [operand] => by
    have h := operand.printed around
    rw [Term.lexemes, Term.uses, Term.parts, usesAll, usesAll, partsAll, partsAll, List.append_nil,
      List.append_nil]
    exact h
  | .logical op (first :: second :: rest) => by
    have hfirst := first.printed around
    have hsecond := second.printed around
    have hrest := operandsLexemes_printed around rest
    rw [Term.lexemes, Term.uses, Term.parts, usesAll, usesAll, partsAll, partsAll, Marks.of_append,
      Marks.of_append]
    exact PrintedAll.wordSeparated _ (.cons (hfirst.grouped _) (.cons (hsecond.grouped _) hrest))
  | .not operand => .cons rfl (.cons rfl ((operand.printed around).grouped _))
  | .isNull negated operand =>
    ((operand.printed around).grouped _).after (by cases negated <;> rfl)
  | .inChunks negated chunks => by
    have h := chunksLexemes_printed around negated chunks
    rw [Term.lexemes, Term.uses, Term.parts]
    exact (h.wordSeparated _).grouped _
  | .inArray negated operand values => by
    have h := operand.printed around
    rw [Term.lexemes, Term.uses, Term.parts]
    exact ((h.grouped _).after (by cases negated <;> rfl)).after rfl
  | .inTerms negated operand items => by
    have h := operand.printed around
    have hitems := termsLexemes_printed around items
    rw [Term.lexemes, Term.uses, Term.parts, Marks.of_append]
    exact membership_printed negated (h.grouped _) hitems.commaSeparated
  | .inQuery negated operand query => by
    have h := operand.printed around
    have hquery := queryTerms_printed around query
    rw [Term.lexemes, Term.uses, Term.parts, Marks.of_append]
    exact membership_printed negated (h.grouped _) hquery
  | .caseWhen operand branches otherwise => by
    have hoperand := prefixed_printed [space] rfl (optional_printed around operand)
    have hbranches := branchesLexemes_printed around branches
    have hotherwise := prefixed_printed [space, word "ELSE", space] rfl
      (optional_printed around otherwise)
    rw [Term.lexemes_caseWhen, Term.uses, Term.parts, Marks.of_append, Marks.of_append]
    exact (((Printed.cons rfl hoperand).append hbranches).append hotherwise).after rfl
  | .search mode columns query =>
    searchLexemes_printed dialect mode query (termsLexemes_printed around columns)
  | .temporal op operand => temporal_printed dialect op (operand.printed around)
  | .subquery query => (queryTerms_printed around query).parenthesized
  | .existsRow query => .cons rfl (.cons rfl (queryTerms_printed around query).parenthesized)

theorem termsLexemes_printed (around : List Declaration) : ∀ ts : List Term,
    PrintedAll (termsLexemes dialect ts) (Marks.of (usesAll around ts) (partsAll around ts))
  | [] => .nil
  | t :: ts => by
    rw [usesAll, partsAll, Marks.of_append]
    exact .cons (t.printed around) (termsLexemes_printed around ts)

theorem operandsLexemes_printed (around : List Declaration) : ∀ ts : List Term,
    PrintedAll (operandsLexemes dialect ts) (Marks.of (usesAll around ts) (partsAll around ts))
  | [] => .nil
  | t :: ts => by
    rw [usesAll, partsAll, Marks.of_append]
    exact .cons ((t.printed around).grouped _) (operandsLexemes_printed around ts)

theorem chunksLexemes_printed (around : List Declaration) (negated : Bool) :
    ∀ chunks : List (Term × List Value),
    PrintedAll (chunksLexemes dialect negated chunks)
      (Marks.of (usesChunks around chunks) (partsChunks around chunks))
  | [] => .nil
  | (operand, values) :: rest => by
    have h := membership_printed negated ((operand.printed around).grouped operand.isComposite)
      (valueLexemes_printed values)
    rw [Marks.append_empty] at h
    rw [usesChunks, partsChunks, Marks.of_append]
    exact .cons h (chunksLexemes_printed around negated rest)

theorem optional_printed (around : List Declaration) : ∀ t? : Option Term,
    Printed ((t?.map (Term.lexemes dialect)).getD [])
      (Marks.of (usesOptional around t?) (partsOptional around t?))
  | none => .nil
  | some t => t.printed around

theorem branchesLexemes_printed (around : List Declaration) : ∀ branches : List (Term × Term),
    Printed (branchesLexemes dialect branches)
      (Marks.of (usesBranches around branches) (partsBranches around branches))
  | [] => .nil
  | (condition, result) :: rest => by
    have hcondition := Printed.before [space, word "WHEN", space] rfl
      (condition.printed around)
    have hresult := Printed.before [space, word "THEN", space] rfl (result.printed around)
    rw [branchesLexemes, usesBranches, partsBranches, Marks.of_append, Marks.of_append]
    exact (hcondition.append hresult).append (branchesLexemes_printed around rest)

theorem outputLexemes_printed (around : List Declaration) (labelled : Bool) :
    ∀ columns : List (FieldExprOf Term), PrintedAll (outputLexemes dialect labelled columns)
      (Marks.of (usesOutput around columns) (partsOutput around columns))
  | [] => .nil
  | { field, expr } :: rest => by
    rw [usesOutput, partsOutput, Marks.of_append]
    exact .cons ((expr.printed around).after (by cases labelled <;> rfl))
      (outputLexemes_printed around labelled rest)

theorem columns_printed (around : List Declaration) (labelled : Bool) :
    ∀ columns? : Option (List (FieldExprOf Term)),
    PrintedAll ((columns?.map (outputLexemes dialect labelled)).getD [])
      (Marks.of (usesColumns around columns?) (partsResults around columns?))
  | none => .nil
  | some columns => outputLexemes_printed around labelled columns

theorem joinsLexemes_printed (around : List Declaration) : ∀ joins : List (JoinedTableOf Term),
    Printed (joinsLexemes dialect joins).flatten (.joins around joins)
  | [] => Printed.nil.mono (.refl _) fun hm => ⟨hm.2, .refl _⟩
  | { kind, item, on } :: rest => by
    have hkind : (space :: kind.lexemes).all isPlain = true := by cases kind <;> rfl
    have hitem : Printed (space :: item.lexemes) (.labels [item.label]) :=
      ⟨by simp, .refl _, fun _ => .refl _⟩
    have hon := Printed.before [space, word "ON", space] rfl (on.printed around)
    have hrest := (hon.append (joinsLexemes_printed around rest)).own_first rfl
    rw [joinsLexemes, List.flatten_cons, List.append_assoc, Marks.joins, List.map_cons, usesJoins,
      partsJoins, Marks.labels_cons, Marks.of_append, Marks.append_assoc]
    exact (Printed.before _ hkind hitem).append hrest

theorem sortKeysLexemes_printed (around : List Declaration) : ∀ keys : List (SortKeyOf Term),
    PrintedAll (sortKeysLexemes dialect keys)
      (Marks.of (usesSortKeys around keys) (partsSortKeys around keys))
  | [] => .nil
  | { expr, descending } :: rest => by
    rw [usesSortKeys, partsSortKeys, Marks.of_append]
    exact .cons ((expr.printed around).after rfl) (sortKeysLexemes_printed around rest)

theorem grouping_printed (around : List Declaration) : ∀ ts? : Option (List Term),
    PrintedAll ((ts?.map (termsLexemes dialect)).getD [])
      (Marks.of (usesGrouping around ts?) (partsGrouping around ts?))
  | none => .nil
  | some ts => termsLexemes_printed around ts

theorem ordering_printed (around : List Declaration) : ∀ keys? : Option (List (SortKeyOf Term)),
    PrintedAll ((keys?.map (sortKeysLexemes dialect)).getD [])
      (Marks.of (usesOrdering around keys?) (partsOrdering around keys?))
  | none => .nil
  | some keys => sortKeysLexemes_printed around keys

/-- Printing a query brings in no other qualifiers than those of its columns, and introduces its
aliases and those of the queries in it. -/
theorem queryTerms_printed (around : List Declaration) : ∀ q : QueryOf Term,
    Printed (queryTerms dialect q) (Marks.of (usesQuery around q) (partsQuery around q))
  | { record, scope, counted, labelled, distinct, output, tables, joins, filter, grouping, ordering,
      limit, locking } => by
    rw [queryTerms_eq, Marks.of_query]
    exact queryLexemes_printed rfl (columns_printed _ labelled output)
      (fromLexemes_printed _ around _ (joinsLexemes_printed _ joins)) (optional_printed _ filter)
      (grouping_printed _ grouping) (ordering_printed _ ordering)

end

end

end RecordStore
