import RecordStore.Proofs.Sample
import RecordStore.Proofs.Sql.Bindings
import RecordStore.Proofs.Sql.TermPhrases

/-! # Patterns

`LIKE` compares a text with a pattern: a percent sign in the pattern takes any text, an underscore
any character, and every other character itself.  The escape character makes the character after it
take itself, whatever it is (`Pattern.items?`, `Pattern.Takes`).

A search that is printed as tests of patterns binds one pattern for all its columns, and this takes
the texts that contain the text searched for (`Resolve.search_takes_containing`). -/

namespace RecordStore

open Lexeme

/-! ### Texts like a pattern -/

/-- A piece of a pattern. -/
inductive PatternItem where
  /-- Takes any characters, or none. -/
  | anything
  /-- Takes one character, whichever it is. -/
  | anyChar
  /-- Takes this character. -/
  | char (c : Char)
deriving DecidableEq

namespace Pattern

/-- What a character of a pattern takes where it is not escaped. -/
def item (c : Char) : PatternItem :=
  if c = '%' then .anything else if c = '_' then .anyChar else .char c

/-- The pieces of a pattern; there are none if it ends with an escape character that escapes
nothing. -/
def items? (escape : Char) : List Char → Option (List PatternItem)
  | [] => some []
  | [c] => if c = escape then none else some [item c]
  | c :: c' :: cs =>
    if c = escape then (items? escape cs).map (.char c' :: ·)
    else (items? escape (c' :: cs)).map (item c :: ·)

/-- The pieces of a pattern take a whole text, one after the other. -/
inductive Takes : List PatternItem → List Char → Prop where
  | nil : Takes [] []
  | anything {items : List PatternItem} {text : List Char} (skipped : List Char)
      (rest : Takes items text) : Takes (.anything :: items) (skipped ++ text)
  | anyChar {items : List PatternItem} {text : List Char} (c : Char) (rest : Takes items text) :
      Takes (.anyChar :: items) (c :: text)
  | char {items : List PatternItem} {text : List Char} {c : Char} (rest : Takes items text) :
      Takes (.char c :: items) (c :: text)

/-- The text is like the pattern, which has this escape character. -/
def Like (escape : Char) (pattern text : String) : Prop :=
  ∃ items, items? escape pattern.toList = some items ∧ Takes items text.toList

/-! ### The pattern of a text -/

variable {escape : Char}

theorem items?_escape (c : Char) (cs : List Char) :
    items? escape (escape :: c :: cs) = (items? escape cs).map (.char c :: ·) := by
  rw [items?, if_pos rfl]

theorem items?_plain {c : Char} (h : c ≠ escape) (cs : List Char) :
    items? escape (c :: cs) = (items? escape cs).map (item c :: ·) := by
  cases cs with
  | nil => exact if_neg h
  | cons c' cs => rw [items?, if_neg h]

/-- Whatever a character is, it takes itself in the pattern of a text. -/
theorem items?_patternChar (c : Char) (cs : List Char) :
    items? patternEscape (patternChar c ++ cs) =
      (items? patternEscape cs).map (.char c :: ·) := by
  by_cases hspecial : c = patternEscape ∨ c = '%' ∨ c = '_'
  · rw [patternChar, if_pos hspecial]
    exact items?_escape c cs
  · have hitem : item c = .char c := by
      rw [not_or, not_or] at hspecial
      rw [item, if_neg hspecial.2.1, if_neg hspecial.2.2]
    rw [patternChar, if_neg hspecial, ← hitem]
    exact items?_plain (fun h => hspecial (.inl h)) cs

theorem items?_patternChars (text cs : List Char) :
    items? patternEscape (text.flatMap patternChar ++ cs) =
      (items? patternEscape cs).map (text.map .char ++ ·) := by
  induction text with
  | nil => exact Option.map_id'.symm
  | cons c text ih =>
      rw [List.flatMap_cons, List.append_assoc, items?_patternChar, ih, Option.map_map]
      rfl

/-- The pattern of a text takes any text, then this one, then any text. -/
theorem items?_containsPattern (query : String) :
    items? patternEscape (containsPattern query).toList =
      some (.anything :: (query.toList.map .char ++ [.anything])) := by
  have hpercent : item '%' = .anything := rfl
  rw [containsPattern, String.toList_ofList, List.cons_append, items?_plain (by decide),
    items?_patternChars, items?_plain (by decide), items?, hpercent]
  rfl

theorem takes_anything_iff {items : List PatternItem} {text : List Char} :
    Takes (.anything :: items) text ↔ ∃ skipped rest, skipped ++ rest = text ∧
      Takes items rest := by
  constructor
  · rintro ⟨⟩
    exact ⟨_, _, rfl, by assumption⟩
  · rintro ⟨skipped, rest, rfl, h⟩
    exact .anything skipped h

theorem takes_chars_iff {chars text : List Char} {items : List PatternItem} :
    Takes (chars.map .char ++ items) text ↔ ∃ rest, chars ++ rest = text ∧ Takes items rest := by
  induction chars generalizing text with
  | nil => exact ⟨fun h => ⟨text, rfl, h⟩, fun ⟨_, heq, h⟩ => heq ▸ h⟩
  | cons c chars ih =>
      constructor
      · rintro ⟨⟩
        next text h =>
          obtain ⟨rest, rfl, hrest⟩ := ih.mp h
          exact ⟨rest, rfl, hrest⟩
      · rintro ⟨rest, rfl, hrest⟩
        exact .char (ih.mpr ⟨rest, rfl, hrest⟩)

/-- Nothing is left to ask of what follows. -/
theorem takes_anything (text : List Char) : Takes [.anything] text :=
  takes_anything_iff.mpr ⟨text, [], List.append_nil text, .nil⟩

/-- The texts like the pattern of a text are those that contain it. -/
theorem like_containsPattern_iff (query text : String) :
    Like patternEscape (containsPattern query) text ↔ query.toList <:+: text.toList := by
  have hlike : Like patternEscape (containsPattern query) text ↔
      Takes (.anything :: (query.toList.map .char ++ [.anything])) text.toList := by
    unfold Like
    simp only [items?_containsPattern, Option.some.injEq, exists_eq_left']
  rw [hlike, takes_anything_iff]
  constructor
  · rintro ⟨skipped, rest, htext, h⟩
    obtain ⟨left, rfl, -⟩ := takes_chars_iff.mp h
    exact ⟨skipped, left, (List.append_assoc ..).trans htext⟩
  · rintro ⟨skipped, left, htext⟩
    refine ⟨skipped, query.toList ++ left, (List.append_assoc ..).symm.trans htext, ?_⟩
    exact takes_chars_iff.mpr ⟨left, rfl, takes_anything left⟩

end Pattern

/-! ### Searches -/

/-- The test in print whether a column is like a pattern. -/
def likeTest (pattern : String) (escape : Char) (column : List Lexeme) : List Lexeme :=
  column ++ [space, word "LIKE", space, .param (.value (.text pattern)), space, word "ESCAPE",
    space, .literal (.text (String.singleton escape))]

/-- One point in print for a test that holds. -/
def testPoint (test : List Lexeme) : List Lexeme :=
  words ["CASE", "WHEN"] ++ space :: test ++ [space, word "THEN", space, .literal (.integer 1),
    space, word "ELSE", space, .literal (.integer 0), space, word "END"]

/-- Tests in print: that one of them holds, or how many of them do. -/
def testsLexemes (tests : List (List Lexeme)) : SearchMode → List Lexeme
  | .matches => wordSeparated "OR" tests
  | .rank => parenthesized ([space, symbol "+", space].intercalate (tests.map testPoint))

theorem bindings_likeTest (pattern : String) (escape : Char) (column : List Lexeme) :
    bindings (likeTest pattern escape column) = bindings column ++ [.value (.text pattern)] := by
  simp [likeTest]

/-- Tests bind the same whatever they are used for. -/
theorem bindings_testsLexemes (tests : List (List Lexeme)) (mode : SearchMode) :
    bindings (testsLexemes tests mode) = tests.flatMap bindings := by
  cases mode with
  | «matches» => exact bindings_wordSeparated "OR" tests
  | rank =>
      have hpoint (test : List Lexeme) : bindings (testPoint test) = bindings test := by
        simp [testPoint]
      rw [testsLexemes, bindings_parenthesized, bindings_intercalate rfl, List.flatMap_map]
      simp only [hpoint]

/-- A search by patterns is printed as tests of its columns. -/
theorem searchLexemes_tests {dialect : Dialect} (h : dialect.searchesByPattern = true)
    (mode : SearchMode) (query : String) (columns : List (List Lexeme)) :
    searchLexemes dialect mode query columns =
      testsLexemes (columns.map (likeTest (containsPattern query) patternEscape)) mode := by
  have hscore : testPoint ∘ likeTest (containsPattern query) patternEscape =
      containsScore query := by
    funext column
    simp [testPoint, likeTest, containsScore, containsTest, textLiteral]
  cases dialect with
  | postgres | mysql => cases h
  | generic | sqlite =>
      cases mode with
      | «matches» => rfl
      | rank =>
          rw [testsLexemes, List.map_map, hscore]
          rfl

theorem termsLexemes_eq_map (dialect : Dialect) (ts : List Term) :
    termsLexemes dialect ts = ts.map (·.lexemes dialect) := by
  induction ts with
  | nil => rfl
  | cons t ts ih => rw [termsLexemes, ih, List.map_cons]

/-- A search by patterns binds its pattern after what each column binds. -/
theorem Term.bindings_search {dialect : Dialect} (h : dialect.searchesByPattern = true)
    (mode : SearchMode) (query : String) (columns : List Term) :
    (search mode columns query).bindings dialect = columns.flatMap fun column =>
      column.bindings dialect ++ [.value (.text (containsPattern query))] := by
  rw [bindings, lexemes, searchLexemes_tests h, bindings_testsLexemes, termsLexemes_eq_map,
    List.map_map, List.flatMap_map]
  simp only [Function.comp_apply, bindings_likeTest, bindings]

namespace Resolve

variable {dialect : Dialect} {overriding : Bool} {scopes : Scopes} {es : List Expr}
  {ts : List Term} {next next' : Alias}

/-- A search resolves to the search of its columns. -/
theorem search_eq_ok (hes : es ≠ []) (h : exprs dialect overriding scopes es next = .ok ts next')
    (mode : SearchMode) (query : String) :
    expr dialect overriding scopes (.search mode es query) next =
      .ok (.search mode ts query) next' := by
  have hnone : es.isEmpty = false := by rwa [List.isEmpty_eq_false_iff]
  unfold expr
  rw [exprWith, hnone]
  exact bind_eq_ok.mpr ⟨ts, next', h, rfl⟩

/-- Where searches are printed as tests of patterns, a search of columns that resolve resolves.
Every column is tested against one pattern, a binding of its own, and with one escape character;
this pattern takes exactly the texts that contain the text searched for, whatever stands in it. -/
theorem search_takes_containing (hdialect : dialect.searchesByPattern = true) (hes : es ≠ [])
    (h : exprs dialect overriding scopes es next = .ok ts next') (mode : SearchMode)
    (query : String) :
    ∃ t pattern escape,
      expr dialect overriding scopes (.search mode es query) next = .ok t next' ∧
        t.lexemes dialect =
          testsLexemes (ts.map fun column => likeTest pattern escape (column.lexemes dialect))
            mode ∧
        t.bindings dialect =
          ts.flatMap (fun column => column.bindings dialect ++ [.value (.text pattern)]) ∧
        ∀ text : String, Pattern.Like escape pattern text ↔ query.toList <:+: text.toList := by
  refine ⟨.search mode ts query, containsPattern query, patternEscape,
    search_eq_ok hes h mode query, ?_, Term.bindings_search hdialect mode query ts,
    Pattern.like_containsPattern_iff query⟩
  rw [Term.lexemes, searchLexemes_tests hdialect, termsLexemes_eq_map, List.map_map]
  rfl

end Resolve

namespace Sample

/-- A percent sign and a backslash in the text searched for are searched for as they are. -/
theorem search_takes_containing_percent :
    ∃ t pattern escape,
      Resolve.expr .sqlite false [⟨[(schema.type, 0)], schema.type, [], true⟩]
          (.search .rank [.col schema.type "name"] "5%\\") 1 = .ok t 1 ∧
        t.lexemes .sqlite =
          testsLexemes [likeTest pattern escape (columnLexemes (some 0) "item_name")] .rank ∧
        t.bindings .sqlite = [.value (.text pattern)] ∧
        ∀ text : String, Pattern.Like escape pattern text ↔
          ['5', '%', '\\'] <:+: text.toList := by
  have hname : Resolve.exprs .sqlite false [⟨[(schema.type, 0)], schema.type, [], true⟩]
      [.col schema.type "name"] 1 =
        .ok [.column ⟨schema.type, "name"⟩ (some 0) "item_name"] 1 := rfl
  exact Resolve.search_takes_containing rfl (List.cons_ne_nil _ _) hname .rank "5%\\"

end Sample

end RecordStore
