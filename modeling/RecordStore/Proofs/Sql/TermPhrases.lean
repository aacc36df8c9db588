import RecordStore.Proofs.Sql.Phrases
import RecordStore.Proofs.Sql.Subterms

/-! # Terms as phrases

What a term is meant to be read as, where searches are tests of patterns: a phrase with the shape of
the term (`Term.phrase`), in which every operand is whole and stands in parentheses where the
printer writes them.  A search is a disjunction of tests, or a sum of points, and the left operand
of each test is the column.  A search writes its columns as they are, and so a term stays whole only
where no column that it searches is loose (`Term.staysWhole`). -/

namespace RecordStore

/-- Searches are tests of patterns in this dialect. -/
def Dialect.searchesByPattern : Dialect → Bool
  | generic | sqlite => true
  | postgres | mysql => false

namespace Phrase

/-! ### Building phrases -/

/-- A word between expressions. -/
def word (w : String) : Phrase := mark (.name w)

/-- A phrase in parentheses where they are needed. -/
def grouped (needed : Bool) (a : Phrase) : Phrase := if needed then bracketed none [a] else a

/-- Operands with a connector between them, taken together from the left. -/
def chained (c : Connector) : List Phrase → Phrase
  | [] => leaf .comma
  | a :: rest => rest.foldl (operation c) a

/-- Contents with commas between them. -/
def listed (items : List (List Phrase)) : List Phrase := [mark .comma].intercalate items

/-- A piece of text. -/
def text (s : String) : Phrase := leaf (.literal (.text s))

def null : Phrase := leaf (.keyword .nullWord)

/-- A column, after the alias of its table where it is qualified. -/
def column (qualifier : Option Alias) (name : String) : Phrase :=
  match qualifier with
  | some a => qualified ("t" ++ toString a) name
  | none => leaf (.identifier name)

/-- What a connective without operands says. -/
def unit (op : LogicalOp) : Phrase :=
  operation (.binary .eq) (leaf (.literal (.integer 1)))
    (leaf (.literal (.integer (match op with | .and => 1 | .or => 0))))

/-- The formatted instant read as a number. -/
def formattedNumber (format : String) (a : Phrase) : Phrase :=
  bracketed (some "CAST")
    [bracketed (some "strftime") (listed [[text format], [a]]), word "AS", word "INTEGER"]

/-- A field taken out of an instant. -/
def extracted (field : String) (a : Phrase) : Phrase :=
  bracketed (some "EXTRACT") [word field, word "FROM", a]

/-- A calendar function of an operand. -/
def temporal (dialect : Dialect) (a : Phrase) : TemporalOp → Phrase
  | .part unit =>
    match dialect with
    | .sqlite => formattedNumber unit.numberFormat a
    | _ => extracted unit.keyword a
  | .start unit =>
    match dialect with
    | .sqlite => bracketed (some "strftime") (listed [[text (unit.startFormat "%M" "%S")], [a]])
    | _ => bracketed (some "DATE_TRUNC") (listed [[text unit.word], [a]])
  | .epoch =>
    match dialect with
    | .sqlite => formattedNumber "%s" a
    | _ => extracted "EPOCH" a

/-- The test that a column contains a text: the whole column stands to the left of `LIKE`. -/
def containsTest (query : String) (column : Phrase) : Phrase :=
  operation (.binary .like) column
    (operation .escape (leaf (.param (.value (.text (containsPattern query)))))
      (text (String.singleton patternEscape)))

/-- One point for a column that contains a text. -/
def containsScore (query : String) (column : Phrase) : Phrase :=
  distinction [mark .whenWord, containsTest query column, mark .thenWord,
    leaf (.literal (.integer 1)), mark .elseWord, leaf (.literal (.integer 0))]

/-- A search: columns that contain a text, or the number of those. -/
def search (mode : SearchMode) (query : String) (columns : List Phrase) : Phrase :=
  match mode with
  | .matches => chained (.logical .or) (columns.map (containsTest query))
  | .rank => bracketed none [chained (.binary .add) (columns.map (containsScore query))]

/-- A clause after its keywords, which may be missing. -/
def clause (keywords : List String) : Option (List Phrase) → List Phrase
  | some contents => keywords.map word ++ contents
  | none => []

/-- A table and its alias. -/
def table (t : TableItem) : List Phrase :=
  [leaf (.identifier t.table), word ("t" ++ toString t.label)]

/-- Tables between commas, then the joins. -/
def sources (tables : List TableItem) (joins : List Phrase) : List Phrase :=
  if tables.isEmpty then [] else word "FROM" :: listed (tables.map table) ++ joins

/-- The words of a join. -/
def join : JoinKind → List Phrase
  | .inner => [word "INNER", word "JOIN"]
  | .left => [word "LEFT", word "OUTER", word "JOIN"]
  | .right => [word "RIGHT", word "OUTER", word "JOIN"]

/-- The window of a query. -/
def window (w : Window) : List Phrase :=
  word "LIMIT" :: leaf (.param (.integer w.count)) ::
    match w.offset with
    | some n => [word "OFFSET", leaf (.param (.integer n))]
    | none => []

/-- The number of rows. -/
def rowCount : Phrase := bracketed (some "COUNT") [leaf (.operator .mul)]

/-- The contents of a query from its pieces. -/
def query (dialect : Dialect) (counted distinct locking : Bool)
    (output : Option (List (List Phrase))) (sources : List Phrase) (filter : Option (List Phrase))
    (grouping ordering : Option (List (List Phrase))) (limit : Option Window) : List Phrase :=
  let rows :=
    word "SELECT" :: (if distinct then [word "DISTINCT"] else []) ++
    (output.map listed).getD [rowCount] ++ sources ++ clause ["WHERE"] filter ++
    clause ["GROUP", "BY"] (grouping.map listed) ++ clause ["ORDER", "BY"] (ordering.map listed) ++
    ((limit.map window).getD []) ++
    (if locking && dialect.locksRows then [word "FOR", word "UPDATE"] else [])
  if counted then [word "SELECT", rowCount, word "FROM", bracketed none rows, word "sub"] else rows

end Phrase

open Phrase (grouped chained listed)

mutual

/-- What a term is meant to be read as. -/
def Term.phrase (dialect : Dialect) : Term → Phrase
  | .column _ qualifier name => .column qualifier name
  | .definition .. => .bracketed none [.leaf .other]
  | .missing _ => .null
  | .override _ _ body => grouped body.isComposite (body.phrase dialect)
  | .literal l => .leaf (.ofLiteral l)
  | .param b => .leaf (.param b)
  | .interval amount unit => .leaf (.literal (.integer (.ofInt (amount.toInt * unit.seconds))))
  | .wildcard => .leaf (.operator .mul)
  | .call function args => .bracketed (some function) (listed ((phrases dialect args).map ([·])))
  | .binary op left right =>
    .operation (.binary op) (grouped left.isComposite (left.phrase dialect))
      (grouped right.isComposite (right.phrase dialect))
  | .logical op [] => .unit op
  | .logical _ [operand] => operand.phrase dialect
  | .logical op (first :: second :: rest) =>
    chained (.logical op)
      (grouped first.needsGrouping (first.phrase dialect) ::
        grouped second.needsGrouping (second.phrase dialect) :: operandPhrases dialect rest)
  | .not operand => .negation (grouped operand.isComposite (operand.phrase dialect))
  | .isNull negated operand =>
    .operation (.is negated) (grouped operand.isComposite (operand.phrase dialect)) .null
  | .inNothing negated => .leaf (.ofLiteral (.bool negated))
  | .inChunks negated chunks =>
    grouped (decide (1 < chunks.length))
      (chained (.logical (if negated then .and else .or)) (chunkPhrases dialect negated chunks))
  | .inArray negated operand values =>
    .operation (.binary (if negated then .ne else .eq))
      (grouped operand.isComposite (operand.phrase dialect))
      (.bracketed (some (if negated then "ALL" else "ANY"))
        [.leaf (.param (.value (.array values)))])
  | .inTerms negated operand items =>
    .operation (.member negated) (grouped operand.isComposite (operand.phrase dialect))
      (.bracketed none (listed ((phrases dialect items).map ([·]))))
  | .inQuery negated operand query =>
    .operation (.member negated) (grouped operand.isComposite (operand.phrase dialect))
      (.bracketed none (queryPhrases dialect query))
  | .caseWhen operand branches otherwise =>
    .distinction ((optionalPhrase dialect operand).toList ++ branchPhrases dialect branches ++
      ((optionalPhrase dialect otherwise).map fun a => [.mark .elseWord, a]).getD [])
  | .search mode columns query => .search mode query (phrases dialect columns)
  | .temporal op operand => .temporal dialect (operand.phrase dialect) op
  | .subquery query => .bracketed none (queryPhrases dialect query)
  | .existsRow query => .bracketed (some "EXISTS") (queryPhrases dialect query)

/-- What every term of a list is meant to be read as. -/
def phrases (dialect : Dialect) : List Term → List Phrase
  | [] => []
  | t :: ts => t.phrase dialect :: phrases dialect ts

/-- What a term is meant to be read as that may be missing. -/
def optionalPhrase (dialect : Dialect) : Option Term → Option Phrase
  | none => none
  | some t => some (t.phrase dialect)

/-- What every operand of a connective is meant to be read as. -/
def operandPhrases (dialect : Dialect) : List Term → List Phrase
  | [] => []
  | t :: ts => grouped t.needsGrouping (t.phrase dialect) :: operandPhrases dialect ts

/-- What the membership tests of every chunk are meant to be read as. -/
def chunkPhrases (dialect : Dialect) (negated : Bool) : List (Term × List Value) → List Phrase
  | [] => []
  | (operand, values) :: rest =>
    .operation (.member negated) (grouped operand.isComposite (operand.phrase dialect))
        (.bracketed none (listed (values.map fun v => [.leaf (.param (.value v))]))) ::
      chunkPhrases dialect negated rest

/-- What the branches of a case distinction are meant to be read as. -/
def branchPhrases (dialect : Dialect) : List (Term × Term) → List Phrase
  | [] => []
  | (condition, result) :: rest =>
    [.mark .whenWord, condition.phrase dialect, .mark .thenWord, result.phrase dialect] ++
      branchPhrases dialect rest

/-- What the result columns of a query are meant to be read as. -/
def outputPhrases (dialect : Dialect) (labelled : Bool) :
    List (FieldExprOf Term) → List (List Phrase)
  | [] => []
  | { field, expr } :: rest =>
    (expr.phrase dialect :: if labelled then [.word "AS", .leaf (.identifier field)] else []) ::
      outputPhrases dialect labelled rest

/-- What the joins of a query are meant to be read as. -/
def joinPhrases (dialect : Dialect) : List (JoinedTableOf Term) → List Phrase
  | [] => []
  | { kind, item, on } :: rest =>
    Phrase.join kind ++ Phrase.table item ++ [.word "ON", on.phrase dialect] ++
      joinPhrases dialect rest

/-- What the sort keys of a query are meant to be read as. -/
def sortKeyPhrases (dialect : Dialect) : List (SortKeyOf Term) → List (List Phrase)
  | [] => []
  | { expr, descending } :: rest =>
    [expr.phrase dialect, .word (if descending then "DESC" else "ASC")] ::
      sortKeyPhrases dialect rest

/-- What a list of results is meant to be read as that may be missing. -/
def resultPhrases (dialect : Dialect) (labelled : Bool) :
    Option (List (FieldExprOf Term)) → Option (List (List Phrase))
  | none => none
  | some columns => some (outputPhrases dialect labelled columns)

/-- What the groups of a query are meant to be read as. -/
def groupingPhrases (dialect : Dialect) : Option (List Term) → Option (List (List Phrase))
  | none => none
  | some ts => some ((phrases dialect ts).map ([·]))

/-- What the order of a query is meant to be read as. -/
def orderingPhrases (dialect : Dialect) :
    Option (List (SortKeyOf Term)) → Option (List (List Phrase))
  | none => none
  | some keys => some (sortKeyPhrases dialect keys)

/-- What a query is meant to be read as. -/
def queryPhrases (dialect : Dialect) : QueryOf Term → List Phrase
  | { counted, labelled, distinct, output, tables, joins, filter, grouping, ordering, limit,
      locking, .. } =>
    Phrase.query dialect counted distinct locking (resultPhrases dialect labelled output)
      (Phrase.sources tables (joinPhrases dialect joins))
      ((optionalPhrase dialect filter).map ([·])) (groupingPhrases dialect grouping)
      (orderingPhrases dialect ordering) limit

end

/-! ### Whole terms -/

namespace Term

/-- In print the term is a connective of several operands or a negation with no parentheses around
it, so that an operator after it takes the last operand only. -/
def isLoose : Term → Bool
  | logical _ [operand] => operand.isLoose
  | logical _ (_ :: _ :: _) | not _ => true
  | search .matches columns _ => decide (1 < columns.length)
  | _ => false

/-- Nothing in the term is read as anything else, what is inside its operands aside: the columns of
a search are not loose, a function is no keyword, and no list is empty. -/
def staysWhole : Term → Bool
  | call function _ => isFunctionName function
  | inChunks _ chunks => !chunks.isEmpty
  | search _ columns _ => !columns.isEmpty && columns.all fun column => !column.isLoose
  | _ => true

/-- The term is written as a phrase, whatever its operands: only a dialect that does not search by
patterns has words of its own, for intervals, searches and the parts of instants. -/
def isPhrased (dialect : Dialect) : Term → Bool
  | interval .. | search .. | temporal .. => dialect.searchesByPattern
  | _ => true

end Term

/-- All of these terms stay whole. -/
abbrev StayWhole (ts : List Term) : Prop := ∀ t ∈ ts, t.staysWhole = true

/-- All of these terms are written as phrases and stay whole. -/
abbrev PrintAsPhrases (dialect : Dialect) (ts : List Term) : Prop :=
  ∀ t ∈ ts, t.staysWhole = true ∧ t.isPhrased dialect = true

/-- Where searches are tests of patterns, all terms are written as phrases. -/
theorem StayWhole.printAsPhrases {dialect : Dialect} (hdialect : dialect.searchesByPattern = true)
    {ts : List Term} (h : StayWhole ts) : PrintAsPhrases dialect ts := by
  intro t ht
  refine ⟨h t ht, ?_⟩
  cases t with
  | interval | search | temporal => exact hdialect
  | _ => rfl

end RecordStore
