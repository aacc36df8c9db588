import Mathlib.Data.List.Chain
import RecordStore.Sql.Printer

/-! # What comes after identifiers

In print an identifier has a blank, a comma or a closing parenthesis after it, if anything
(`Lexeme.Separated`).  Separated lexemes stay separated when what is added to them begins with one
of these (`Lexeme.Trailing`), and all that is printed is put together in this way
(`Command.separated`). -/

namespace RecordStore

namespace Lexeme

/-- The lexeme is an identifier. -/
def isIdentifier : Lexeme → Bool
  | identifier _ => true
  | _ => false

/-- The lexeme can come after an identifier. -/
def isSeparator (l : Lexeme) : Bool := l == space || l == symbol "," || l == symbol ")"

/-- Only separators come after identifiers. -/
def Separated (ls : List Lexeme) : Prop :=
  ls.IsChain fun l l' => l.isIdentifier = true → l'.isSeparator = true

/-- Separated lexemes that begin with a separator, if any. -/
structure Trailing (ls : List Lexeme) : Prop where
  separated : Separated ls
  begins : ∀ l ∈ ls.head?, l.isSeparator = true

/-- There is no identifier among the lexemes. -/
def isUnnamed (ls : List Lexeme) : Bool := ls.all (!·.isIdentifier)

variable {ls ls' : List Lexeme}

namespace Separated

theorem append (h : Separated ls) (h' : Trailing ls') : Separated (ls ++ ls') :=
  List.isChain_append.mpr ⟨h, h'.separated, fun _ _ l' hl' _ => h'.begins l' hl'⟩

theorem cons {l : Lexeme} (hl : l.isIdentifier = false) (h : Separated ls) :
    Separated (l :: ls) := by
  refine List.isChain_cons.mpr ⟨fun _ _ hname => ?_, h⟩
  rw [hl] at hname
  cases hname

/-- Lexemes without identifiers may stand in front of anything. -/
theorem before (pre : List Lexeme) (hpre : isUnnamed pre = true) (h : Separated ls) :
    Separated (pre ++ ls) := by
  induction pre with
  | nil => exact h
  | cons l pre ih =>
      unfold isUnnamed at hpre
      rw [List.all_cons, Bool.and_eq_true] at hpre
      exact cons (by simpa using hpre.1) (ih hpre.2)

theorem of_isUnnamed (h : isUnnamed ls = true) : Separated ls := by
  have hbefore := before ls h List.isChain_nil
  rwa [List.append_nil] at hbefore

end Separated

namespace Trailing

theorem nil : Trailing [] := ⟨List.isChain_nil, by simp⟩

theorem space (h : Separated ls) : Trailing (Lexeme.space :: ls) :=
  ⟨.cons rfl h, by rintro _ ⟨⟩; rfl⟩

theorem append (h : Trailing ls) (h' : Trailing ls') : Trailing (ls ++ ls') where
  separated := h.separated.append h'
  begins := by
    cases ls with
    | nil => exact h'.begins
    | cons l ls => exact h.begins

/-- Lexemes without identifiers that begin with a separator. -/
theorem of_isUnnamed (h : isUnnamed ls = true) (hbegins : ls.head?.all isSeparator = true) :
    Trailing ls where
  separated := .of_isUnnamed h
  begins := by
    intro l hl
    rw [hl] at hbegins
    exact hbegins

end Trailing

/-! ### Lists of lexemes -/

namespace Separated

theorem parenthesized (h : Separated ls) : Separated (Lexeme.parenthesized ls) :=
  .cons rfl (h.append (.of_isUnnamed rfl rfl))

theorem grouped (needed : Bool) (h : Separated ls) : Separated (Lexeme.grouped needed ls) := by
  cases needed with
  | false => exact h
  | true => exact h.parenthesized

/-- Between separated lists with a separator that names nothing. -/
theorem intercalate {l : Lexeme} {sep : List Lexeme} (hl : l.isSeparator = true)
    (hsep : isUnnamed (l :: sep) = true) {items : List (List Lexeme)}
    (h : ∀ item ∈ items, Separated item) : Separated ((l :: sep).intercalate items) := by
  induction items with
  | nil => exact List.isChain_nil
  | cons item items ih =>
      have hitem := h item List.mem_cons_self
      cases items with
      | nil =>
          rw [List.intercalate_singleton]
          exact hitem
      | cons item' items =>
          have hrest := ih fun i hi => h i (List.mem_cons_of_mem item hi)
          rw [List.intercalate_cons_cons, List.append_assoc]
          refine hitem.append ⟨hrest.before _ hsep, ?_⟩
          rintro _ ⟨⟩
          exact hl

theorem commaSeparated {items : List (List Lexeme)} (h : ∀ item ∈ items, Separated item) :
    Separated (Lexeme.commaSeparated items) :=
  intercalate rfl rfl h

theorem wordSeparated (w : String) {items : List (List Lexeme)}
    (h : ∀ item ∈ items, Separated item) : Separated (Lexeme.wordSeparated w items) :=
  intercalate rfl rfl h

theorem application (function : String) {args : List (List Lexeme)}
    (h : ∀ arg ∈ args, Separated arg) : Separated (Lexeme.application function args) :=
  .cons rfl (commaSeparated h).parenthesized

end Separated

end Lexeme

open Lexeme

/-! ### Pieces of expressions -/

variable {ls ls' : List Lexeme} {dialect : Dialect}

theorem identifier_separated (name : String) : Separated [identifier name] :=
  List.isChain_singleton _

theorem columnLexemes_separated (qualifier : Option Alias) (name : String) :
    Separated (columnLexemes qualifier name) := by
  cases qualifier with
  | none => exact identifier_separated name
  | some a => exact .cons rfl (.cons rfl (identifier_separated name))

theorem membership_separated (negated : Bool) (h : Separated ls) (h' : Separated ls') :
    Separated (membership negated ls ls') := by
  have hwords : isUnnamed (space :: inWords negated) = true := by cases negated <;> rfl
  exact (h.append (.of_isUnnamed hwords rfl)).append (.space h'.parenthesized)

theorem valueLexemes_separated (values : List Value) : Separated (valueLexemes values) := by
  refine .commaSeparated fun item hitem => ?_
  obtain ⟨v, -, rfl⟩ := List.mem_map.mp hitem
  exact .of_isUnnamed rfl

theorem extracted_separated (field : String) (h : Separated ls) :
    Separated (extracted field ls) :=
  .cons rfl (Separated.before (words [field, "FROM"] ++ [space]) rfl h).parenthesized

theorem formattedNumber_separated (format : String) (h : Separated ls) :
    Separated (formattedNumber format ls) := by
  have hcall : Separated (application "strftime" [[textLiteral format], ls]) :=
    .application _ (List.forall_mem_cons.mpr ⟨.of_isUnnamed rfl, List.forall_mem_singleton.mpr h⟩)
  exact .cons rfl (hcall.append (.of_isUnnamed rfl rfl)).parenthesized

theorem temporal_separated (dialect : Dialect) (op : TemporalOp) (h : Separated ls) :
    Separated (op.lexemes dialect ls) := by
  have hoperand := List.forall_mem_singleton.mpr h
  have hformat (format : String) : Separated [textLiteral format] := .of_isUnnamed rfl
  cases op with
  | part unit =>
      cases dialect with
      | sqlite => exact formattedNumber_separated _ h
      | generic | postgres | mysql => exact extracted_separated _ h
  | start unit =>
      cases dialect with
      | sqlite | generic | postgres =>
          exact .application _ (List.forall_mem_cons.mpr ⟨hformat _, hoperand⟩)
      | mysql =>
          exact .application _
            (List.forall_mem_cons.mpr ⟨h, List.forall_mem_singleton.mpr (hformat _)⟩)
  | epoch =>
      cases dialect with
      | sqlite => exact formattedNumber_separated _ h
      | mysql => exact .application _ hoperand
      | generic | postgres => exact extracted_separated _ h

theorem containsTest_separated (query : String) (h : Separated ls) :
    Separated (containsTest query ls) :=
  h.append (.of_isUnnamed rfl rfl)

theorem containsScore_separated (query : String) (h : Separated ls) :
    Separated (containsScore query ls) := by
  have htest := Separated.before (words ["CASE", "WHEN"] ++ [space]) rfl
    (containsTest_separated query h)
  exact htest.append (.of_isUnnamed rfl rfl)

theorem searchDocument_separated {columns : List (List Lexeme)}
    (h : ∀ column ∈ columns, Separated column) : Separated (searchDocument columns) :=
  .application _ (List.forall_mem_singleton.mpr
    (.application _ (List.forall_mem_cons.mpr ⟨.of_isUnnamed rfl, h⟩)))

theorem searchLexemes_separated (dialect : Dialect) (mode : SearchMode) (query : String)
    {columns : List (List Lexeme)} (h : ∀ column ∈ columns, Separated column) :
    Separated (searchLexemes dialect mode query columns) := by
  have hdocument := searchDocument_separated h
  have hquery : isUnnamed (searchQuery query) = true := rfl
  cases dialect with
  | postgres =>
      cases mode with
      | «matches» => exact hdocument.append (.of_isUnnamed rfl rfl)
      | rank => exact .application _ (List.forall_mem_cons.mpr
          ⟨hdocument, List.forall_mem_singleton.mpr (.of_isUnnamed hquery)⟩)
  | mysql =>
      have hcolumns := (Separated.commaSeparated h).parenthesized
      exact .cons rfl (.cons rfl (hcolumns.append (.of_isUnnamed rfl rfl)))
  | generic | sqlite =>
      cases mode with
      | «matches» =>
          exact .wordSeparated _ (List.forall_mem_map.mpr fun column hcolumn =>
            containsTest_separated query (h column hcolumn))
      | rank =>
          exact (Separated.intercalate rfl rfl (List.forall_mem_map.mpr fun column hcolumn =>
            containsScore_separated query (h column hcolumn))).parenthesized

/-! ### Pieces of queries -/

theorem clause_trailing (keywords : List String) (hwords : isUnnamed (words keywords) = true)
    (h : Separated ls) : Trailing (clause keywords ls) := by
  have hcontent : Separated (words keywords ++ space :: ls) := .before _ hwords (.cons rfl h)
  exact .space hcontent

theorem optionalClause_trailing (keywords : List String)
    (hwords : isUnnamed (words keywords) = true) {content? : Option (List Lexeme)}
    (h : ∀ content ∈ content?, Separated content) :
    Trailing (optionalClause keywords content?) := by
  cases content? with
  | none => exact .nil
  | some content => exact clause_trailing keywords hwords (h content rfl)

theorem TableItem.separated (t : TableItem) : Separated t.lexemes :=
  (identifier_separated t.table).append (.of_isUnnamed rfl rfl)

theorem fromLexemes_trailing (tables : List TableItem) {joins : List (List Lexeme)}
    (h : ∀ join ∈ joins, Trailing join) : Trailing (fromLexemes tables joins) := by
  have hjoins : Trailing joins.flatten := by
    induction joins with
    | nil => exact .nil
    | cons join joins ih =>
        exact (h join List.mem_cons_self).append (ih fun j hj => h j (List.mem_cons_of_mem join hj))
  unfold fromLexemes
  split
  · exact .nil
  · exact (clause_trailing ["FROM"] rfl (.commaSeparated
      (List.forall_mem_map.mpr fun t _ => t.separated))).append hjoins

/-- A query is separated if its pieces are. -/
theorem queryLexemes_separated {counted distinct locking : Bool}
    {output : Option (List (List Lexeme))} {sources : List Lexeme} {filter : Option (List Lexeme)}
    {grouping ordering : Option (List (List Lexeme))} {limit : Option Window}
    (houtput : ∀ columns ∈ output, ∀ column ∈ columns, Separated column)
    (hsources : Trailing sources) (hfilter : ∀ condition ∈ filter, Separated condition)
    (hgrouping : ∀ items ∈ grouping, ∀ item ∈ items, Separated item)
    (hordering : ∀ items ∈ ordering, ∀ item ∈ items, Separated item) :
    Separated (queryLexemes dialect counted distinct locking output sources filter grouping ordering
      limit) := by
  have hseparated {items? : Option (List (List Lexeme))}
      (h : ∀ items ∈ items?, ∀ item ∈ items, Separated item) :
      ∀ content ∈ items?.map commaSeparated, Separated content := by
    rintro _ hcontent
    obtain ⟨items, hitems, rfl⟩ := Option.map_eq_some_iff.mp hcontent
    exact .commaSeparated (h items hitems)
  have hrows : Separated (queryLexemes dialect false distinct locking output sources filter grouping
      ordering limit) := by
    have hselect : isUnnamed (word "SELECT" :: space ::
        if distinct then [word "DISTINCT", space] else []) = true := by cases distinct <;> rfl
    have hlimit : Trailing ((limit.map Window.lexemes).getD []) := by
      obtain _ | ⟨count, _ | offset⟩ := limit
      · exact .nil
      · exact .of_isUnnamed rfl rfl
      · exact .of_isUnnamed rfl rfl
    have hlock : Trailing
        (if locking && dialect.locksRows then space :: words ["FOR", "UPDATE"] else []) := by
      split
      · exact .of_isUnnamed rfl rfl
      · exact .nil
    unfold queryLexemes
    dsimp only
    rw [if_neg Bool.false_ne_true]
    refine (((((((Separated.before _ hselect ?_).append hsources).append
      (optionalClause_trailing ["WHERE"] rfl hfilter)).append
      (optionalClause_trailing ["GROUP", "BY"] rfl (hseparated hgrouping))).append
      (optionalClause_trailing ["ORDER", "BY"] rfl (hseparated hordering))).append hlimit).append
      hlock)
    cases output with
    | none => exact .of_isUnnamed rfl
    | some columns => exact .commaSeparated (houtput columns rfl)
  cases counted with
  | false => exact hrows
  | true =>
      have hcounted := Separated.before (word "SELECT" :: space ::
        application "COUNT" [[symbol "*"]] ++ [space, word "FROM", space]) rfl hrows.parenthesized
      exact hcounted.append (.of_isUnnamed rfl rfl)

/-! ### Terms and queries -/

theorem prefixed_trailing (pre : List Lexeme) (hpre : isUnnamed pre = true)
    (hbegins : pre.head? = some space) {ls? : Option (List Lexeme)}
    (h : ∀ ls ∈ ls?, Separated ls) : Trailing ((ls?.map (pre ++ ·)).getD []) := by
  cases ls? with
  | none => exact .nil
  | some ls =>
      refine ⟨(h ls rfl).before pre hpre, ?_⟩
      obtain ⟨pre, rfl⟩ := List.head?_eq_some_iff.mp hbegins
      rintro _ ⟨⟩
      rfl

section

variable (dialect : Dialect)

mutual

/-- A printed term is separated. -/
theorem Term.separated : ∀ t : Term, Separated (t.lexemes dialect)
  | .column _ qualifier name => columnLexemes_separated qualifier name
  | .definition .. | .missing _ | .literal _ | .param _ | .wildcard | .inNothing _ =>
    .of_isUnnamed rfl
  | .override _ _ body => body.separated.grouped _
  | .interval amount unit => by
    cases dialect <;> exact .of_isUnnamed rfl
  | .call function args => .application function (termsLexemes_separated args)
  | .binary op left right => by
    have hop : isUnnamed (space :: op.lexemes) = true := by cases op <;> rfl
    exact ((left.separated.grouped _).append (.of_isUnnamed hop rfl)).append
      (.space (right.separated.grouped _))
  | .logical op [] => .of_isUnnamed (by cases op <;> rfl)
  | .logical _ [operand] => operand.separated
  | .logical op (first :: second :: rest) =>
    .wordSeparated _ (List.forall_mem_cons.mpr ⟨first.separated.grouped _,
      List.forall_mem_cons.mpr ⟨second.separated.grouped _, operandsLexemes_separated rest⟩⟩)
  | .not operand => .cons rfl (.cons rfl (operand.separated.grouped _))
  | .isNull negated operand =>
    (operand.separated.grouped _).append (.of_isUnnamed (by cases negated <;> rfl) rfl)
  | .inChunks negated chunks =>
    (Separated.wordSeparated _ (chunksLexemes_separated negated chunks)).grouped _
  | .inArray negated operand values => by
    rw [Term.lexemes, List.append_assoc]
    refine (operand.separated.grouped _).append ?_
    cases negated <;> exact .of_isUnnamed rfl rfl
  | .inTerms negated operand items =>
    membership_separated negated (operand.separated.grouped _)
      (.commaSeparated (termsLexemes_separated items))
  | .inQuery negated operand query =>
    membership_separated negated (operand.separated.grouped _) (queryTerms_separated query)
  | .caseWhen operand branches otherwise => by
    have hoperand := prefixed_trailing [space] rfl rfl (optional_separated operand)
    have hotherwise := prefixed_trailing [space, word "ELSE", space] rfl rfl
      (optional_separated otherwise)
    rw [Term.lexemes_caseWhen]
    exact (((Separated.cons rfl hoperand.separated).append
      (branchesLexemes_trailing branches)).append hotherwise).append (.of_isUnnamed rfl rfl)
  | .search mode columns query =>
    searchLexemes_separated dialect mode query (termsLexemes_separated columns)
  | .temporal op operand => temporal_separated dialect op operand.separated
  | .subquery query => (queryTerms_separated query).parenthesized
  | .existsRow query => .cons rfl (.cons rfl (queryTerms_separated query).parenthesized)

theorem termsLexemes_separated : ∀ ts : List Term,
    ∀ item ∈ termsLexemes dialect ts, Separated item
  | [] => List.forall_mem_nil _
  | t :: ts => List.forall_mem_cons.mpr ⟨t.separated, termsLexemes_separated ts⟩

theorem operandsLexemes_separated : ∀ ts : List Term,
    ∀ item ∈ operandsLexemes dialect ts, Separated item
  | [] => List.forall_mem_nil _
  | t :: ts => List.forall_mem_cons.mpr ⟨t.separated.grouped _, operandsLexemes_separated ts⟩

theorem chunksLexemes_separated (negated : Bool) : ∀ chunks : List (Term × List Value),
    ∀ item ∈ chunksLexemes dialect negated chunks, Separated item
  | [] => List.forall_mem_nil _
  | (operand, values) :: rest => List.forall_mem_cons.mpr
    ⟨membership_separated negated (operand.separated.grouped _) (valueLexemes_separated values),
      chunksLexemes_separated negated rest⟩

theorem optional_separated : ∀ t? : Option Term,
    ∀ ls ∈ t?.map (Term.lexemes dialect), Separated ls
  | none => fun _ h => by cases h
  | some t => fun _ h => by
    cases h
    exact t.separated

theorem branchesLexemes_trailing : ∀ branches : List (Term × Term),
    Trailing (branchesLexemes dialect branches)
  | [] => .nil
  | (condition, result) :: rest => by
    have hcondition := Separated.before [word "WHEN", space] rfl condition.separated
    have hresult := Separated.before [word "THEN", space] rfl result.separated
    exact ((Trailing.space hcondition).append (.space hresult)).append
      (branchesLexemes_trailing rest)

theorem outputLexemes_separated (labelled : Bool) : ∀ columns : List (FieldExprOf Term),
    ∀ item ∈ outputLexemes dialect labelled columns, Separated item
  | [] => List.forall_mem_nil _
  | { field, expr } :: rest => by
    have hlabel : Trailing (if labelled then [space, word "AS", space, identifier field]
        else []) := by
      cases labelled with
      | false => exact .nil
      | true => exact .space (.before [word "AS", space] rfl (identifier_separated field))
    exact List.forall_mem_cons.mpr
      ⟨expr.separated.append hlabel, outputLexemes_separated labelled rest⟩

theorem joinsLexemes_trailing : ∀ joins : List (JoinedTableOf Term),
    ∀ join ∈ joinsLexemes dialect joins, Trailing join
  | [] => List.forall_mem_nil _
  | { kind, item, on } :: rest => by
    have hkind : isUnnamed (space :: kind.lexemes) = true := by cases kind <;> rfl
    have hon := Separated.before [word "ON", space] rfl on.separated
    exact List.forall_mem_cons.mpr
      ⟨((Trailing.of_isUnnamed hkind rfl).append (.space item.separated)).append (.space hon),
        joinsLexemes_trailing rest⟩

theorem sortKeysLexemes_separated : ∀ keys : List (SortKeyOf Term),
    ∀ item ∈ sortKeysLexemes dialect keys, Separated item
  | [] => List.forall_mem_nil _
  | { expr, .. } :: rest => List.forall_mem_cons.mpr
    ⟨expr.separated.append (.of_isUnnamed rfl rfl), sortKeysLexemes_separated rest⟩

theorem results_separated (labelled : Bool) : ∀ columns? : Option (List (FieldExprOf Term)),
    ∀ columns ∈ columns?.map (outputLexemes dialect labelled), ∀ item ∈ columns, Separated item
  | none => fun _ h => by cases h
  | some columns => fun _ h => by
    cases h
    exact outputLexemes_separated labelled columns

theorem grouping_separated : ∀ ts? : Option (List Term),
    ∀ items ∈ ts?.map (termsLexemes dialect), ∀ item ∈ items, Separated item
  | none => fun _ h => by cases h
  | some ts => fun _ h => by
    cases h
    exact termsLexemes_separated ts

theorem ordering_separated : ∀ keys? : Option (List (SortKeyOf Term)),
    ∀ items ∈ keys?.map (sortKeysLexemes dialect), ∀ item ∈ items, Separated item
  | none => fun _ h => by cases h
  | some keys => fun _ h => by
    cases h
    exact sortKeysLexemes_separated keys

/-- A printed query is separated. -/
theorem queryTerms_separated : ∀ q : QueryOf Term, Separated (queryTerms dialect q)
  | { labelled, output, tables, joins, filter, grouping, ordering, .. } => by
    rw [queryTerms_eq]
    exact queryLexemes_separated (results_separated labelled output)
      (fromLexemes_trailing tables (joinsLexemes_trailing joins)) (optional_separated filter)
      (grouping_separated grouping) (ordering_separated ordering)

end

end

/-! ### Statements -/

theorem columnNames_separated (columns : List String) : Separated (columnNames columns) :=
  .commaSeparated (List.forall_mem_map.mpr fun c _ => identifier_separated c)

theorem targetLexemes_separated (target : TableItem) (aliased : Bool) :
    Separated (targetLexemes target aliased) := by
  cases aliased with
  | false => exact identifier_separated target.table
  | true => exact target.separated

/-- A printed statement is separated. -/
theorem Command.separated (dialect : Dialect) (command : Command) :
    Separated (command.lexemes dialect) := by
  have hcondition (filter : Option Term) :
      Trailing (optionalClause ["WHERE"] (filter.map (Term.lexemes dialect))) :=
    optionalClause_trailing ["WHERE"] rfl (optional_separated dialect filter)
  cases command with
  | query q => exact queryTerms_separated dialect q
  | insert table columns values =>
      have hrows : Trailing (space :: if columns.isEmpty then words ["DEFAULT", "VALUES"]
          else parenthesized (columnNames columns) ++ space :: word "VALUES" :: space ::
            parenthesized (commaSeparated (termsLexemes dialect values))) := by
        refine .space ?_
        split
        · exact .of_isUnnamed rfl
        · have hvalues := (Separated.commaSeparated
            (termsLexemes_separated dialect values)).parenthesized
          exact (columnNames_separated columns).parenthesized.append
            (.space (.cons rfl (.cons rfl hvalues)))
      exact .before (words ["INSERT", "INTO"] ++ [space]) rfl
        ((identifier_separated table).append hrows)
  | update target aliased assignments filter =>
      have hassignments : Separated (commaSeparated (assignments.map fun a =>
          identifier a.1 :: space :: symbol "=" :: space :: a.2.lexemes dialect)) := by
        refine .commaSeparated (List.forall_mem_map.mpr fun a _ => ?_)
        exact (identifier_separated a.1).append
          (.space (.before [symbol "=", space] rfl (a.2.separated dialect)))
      exact (((targetLexemes_separated target aliased).before [word "UPDATE", space]
        rfl).append (clause_trailing ["SET"] rfl hassignments)).append (hcondition filter)
  | delete target aliased filter =>
      exact .before (words ["DELETE", "FROM"] ++ [space]) rfl
        ((targetLexemes_separated target aliased).append (hcondition filter))
  | createIndex unique ifMissing name table columns =>
      have hcreate : isUnnamed (word "CREATE" :: space ::
          (if unique then [word "UNIQUE", space] else []) ++ word "INDEX" :: space ::
          (if ifMissing then words ["IF", "NOT", "EXISTS"] ++ [space] else [])) = true := by
        cases unique <;> cases ifMissing <;> rfl
      have htable : Separated (identifier table :: space :: parenthesized (columnNames columns)) :=
        (identifier_separated table).append (.space (columnNames_separated columns).parenthesized)
      exact .before _ hcreate ((identifier_separated name).append
        (.space (.before [word "ON", space] rfl htable)))
  | dropIndex name table =>
      refine .before (words ["DROP", "INDEX"] ++ [space]) rfl
        ((identifier_separated name).append ?_)
      cases table with
      | none => exact .nil
      | some table =>
          exact .space (.before [word "ON", space] rfl (identifier_separated table))

end RecordStore
