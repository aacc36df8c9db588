import RecordStore.Proofs.Sql.Separation
import RecordStore.Proofs.Sql.TextLiterals

/-! # Identifiers as databases read them

A database reads a delimited identifier up to the quote that closes it, and a quote that is written
twice stands for one quote.  An identifier and the text after it are read exactly where the
identifier is written in front of this text and no quote comes next
(`Dialect.readIdentifier_eq_some`).

No quote comes after an identifier in a printed statement (`Lexeme.head?_print`).  So each
identifier in it is read back, whatever its name is, and nothing that follows is taken for a part of
it (`Dialect.identifiers_read_back`). -/

namespace RecordStore

open Text

/-! ### Reading identifiers -/

namespace Dialect

/-- The rest of a delimited identifier after its opening quote, and what follows the closing one;
nothing if it is not closed. -/
def readDelimited (quote : Char) : List Char → Option (List Char × List Char)
  | [] => none
  | [c] => if c = quote then some ([], []) else none
  | c :: c' :: rest =>
    if c = quote then
      if c' = quote then (readDelimited quote rest).map (Prod.map (c :: ·) id)
      else some ([], c' :: rest)
    else (readDelimited quote (c' :: rest)).map (Prod.map (c :: ·) id)

/-- The identifier that a text begins with, and what follows it. -/
def readIdentifier (dialect : Dialect) (text : String) : Option (String × String) :=
  match text.toList with
  | [] => none
  | c :: cs =>
    if c = dialect.quoteChar then
      (readDelimited c cs).map (Prod.map String.ofList String.ofList)
    else none

variable {quote : Char} {cs s rest : List Char}

/-- A name with its quotes doubled is read up to a quote that no quote follows. -/
theorem readDelimited_doubled (h : rest.head? ≠ some quote) (s : List Char) :
    readDelimited quote (s.flatMap (doubled quote) ++ quote :: rest) = some (s, rest) := by
  induction s with
  | nil =>
      cases rest with
      | nil => exact if_pos rfl
      | cons c rest =>
          have hc : c ≠ quote := fun heq => h (congrArg some heq)
          change readDelimited quote (quote :: c :: rest) = _
          rw [readDelimited, if_pos rfl, if_neg hc]
  | cons c s ih =>
      rw [List.flatMap_cons, doubled]
      split
      · next hc =>
          subst hc
          change readDelimited c (c :: c :: (s.flatMap (doubled c) ++ c :: rest)) = _
          rw [readDelimited, if_pos rfl, if_pos rfl, ih]
          rfl
      · next hc =>
          obtain ⟨c', cs, hcs⟩ : ∃ c' cs, s.flatMap (doubled quote) ++ quote :: rest = c' :: cs :=
            List.exists_cons_of_ne_nil (by simp)
          rw [hcs] at ih
          change readDelimited quote (c :: (s.flatMap (doubled quote) ++ quote :: rest)) = _
          rw [hcs, readDelimited, if_neg hc, ih]
          rfl

/-- Only a name with its quotes doubled is read. -/
theorem eq_doubled_of_readDelimited (h : readDelimited quote cs = some (s, rest)) :
    cs = s.flatMap (doubled quote) ++ quote :: rest ∧ rest.head? ≠ some quote := by
  fun_induction readDelimited quote cs generalizing s rest with
  | case1 => cases h
  | case2 =>
      cases h
      exact ⟨rfl, by simp⟩
  | case3 => cases h
  | case4 rest' ih =>
      obtain ⟨read, hread, rfl⟩ := map_eq_some.mp h
      obtain ⟨rfl, hnext⟩ := ih hread
      refine ⟨?_, hnext⟩
      rw [List.flatMap_cons, doubled, if_pos rfl]
      rfl
  | case5 c rest' hc =>
      cases h
      exact ⟨rfl, fun heq => hc (Option.some.inj heq)⟩
  | case6 c c' rest' hc ih =>
      obtain ⟨read, hread, rfl⟩ := map_eq_some.mp h
      obtain ⟨heq, hnext⟩ := ih hread
      refine ⟨?_, hnext⟩
      rw [List.flatMap_cons, doubled, if_neg hc, heq]
      rfl

theorem readDelimited_eq_some : readDelimited quote cs = some (s, rest) ↔
    cs = s.flatMap (doubled quote) ++ quote :: rest ∧ rest.head? ≠ some quote := by
  constructor
  · exact eq_doubled_of_readDelimited
  · rintro ⟨rfl, h⟩
    exact readDelimited_doubled h s

/-- An identifier is read where it is written and no quote comes after it. -/
theorem readIdentifier_eq_some {dialect : Dialect} {text identifier rest : String} :
    dialect.readIdentifier text = some (identifier, rest) ↔
      text = dialect.quote identifier ++ rest ∧ rest.toList.head? ≠ some dialect.quoteChar := by
  have htext : text = dialect.quote identifier ++ rest ↔ text.toList = dialect.quoteChar ::
      (identifier.toList.flatMap (doubled dialect.quoteChar) ++
        dialect.quoteChar :: rest.toList) := by
    rw [← String.toList_inj, String.toList_append]
    unfold Dialect.quote delimited
    simp
  have hread (cs : List Char) :
      (readDelimited dialect.quoteChar cs).map (Prod.map String.ofList String.ofList) =
          some (identifier, rest) ↔
        readDelimited dialect.quoteChar cs = some (identifier.toList, rest.toList) := by
    rw [Option.map_eq_some_iff]
    constructor
    · rintro ⟨⟨read, left⟩, hread, heq⟩
      obtain ⟨rfl, rfl⟩ := Prod.mk.inj heq
      simpa using hread
    · intro hread
      exact ⟨_, hread, by simp⟩
  rw [htext]
  unfold readIdentifier
  cases htoList : text.toList with
  | nil => simp
  | cons c cs =>
      rw [List.cons.injEq]
      dsimp only
      split
      · next hc =>
          subst hc
          rw [hread, readDelimited_eq_some, and_iff_right rfl]
      · next hc => simp [hc]

end Dialect

/-! ### Identifiers in statements -/

/-- Pieces of a statement are put together as their tokens are, with the placeholders numbered
throughout. -/
theorem CompiledStatement.texts_append_tokens (dialect : Dialect) (tokens tokens' : List Token)
    (n : Nat) : ∃ m, texts dialect n (tokens ++ tokens') =
      texts dialect n tokens ++ texts dialect m tokens' := by
  induction tokens generalizing n with
  | nil => exact ⟨n, rfl⟩
  | cons token tokens ih =>
      cases token with
      | text s =>
          obtain ⟨m, hm⟩ := ih n
          exact ⟨m, congrArg (s :: ·) hm⟩
      | param b =>
          obtain ⟨m, hm⟩ := ih (n + 1)
          exact ⟨m, congrArg (dialect.placeholder (n + 1) :: ·) hm⟩

namespace Lexeme

/-- The text of lexemes with so many placeholders before them. -/
def print (dialect : Dialect) (n : Nat) (ls : List Lexeme) : String :=
  String.join (CompiledStatement.texts dialect n (tokensOf dialect ls))

theorem print_append (dialect : Dialect) (ls ls' : List Lexeme) (n : Nat) :
    ∃ m, print dialect n (ls ++ ls') = print dialect n ls ++ print dialect m ls' := by
  obtain ⟨m, hm⟩ :=
    CompiledStatement.texts_append_tokens dialect (tokensOf dialect ls) (tokensOf dialect ls') n
  refine ⟨m, ?_⟩
  unfold print tokensOf at *
  rw [List.map_append, hm, String.join_append]

theorem print_identifier (dialect : Dialect) (name : String) (ls : List Lexeme) (n : Nat) :
    print dialect n (identifier name :: ls) = dialect.quote name ++ print dialect n ls := by
  unfold print
  exact String.join_cons

/-- The text after an identifier does not begin with a quote. -/
theorem head?_print (dialect : Dialect) {name : String} {ls : List Lexeme} (n : Nat)
    (h : Separated (identifier name :: ls)) :
    (print dialect n ls).toList.head? ≠ some dialect.quoteChar := by
  cases ls with
  | nil =>
      rintro ⟨⟩
  | cons l ls =>
      have hl := (List.isChain_cons_cons.mp h).1 rfl
      have htext (c : Char) (hc : c ≠ dialect.quoteChar)
          (htoken : l.toToken dialect = .text (String.singleton c)) :
          (print dialect n (l :: ls)).toList.head? ≠ some dialect.quoteChar := by
        have hprint : print dialect n (l :: ls) = String.singleton c ++ print dialect n ls := by
          unfold print tokensOf
          rw [List.map_cons, htoken, CompiledStatement.texts, String.join_cons]
        rw [hprint, String.toList_append, String.toList_singleton]
        exact fun heq => hc (Option.some.inj heq)
      have hquote : ' ' ≠ dialect.quoteChar ∧ ',' ≠ dialect.quoteChar ∧
          ')' ≠ dialect.quoteChar := by cases dialect <;> decide
      unfold isSeparator at hl
      simp only [Bool.or_eq_true, beq_iff_eq] at hl
      rcases hl with (rfl | rfl) | rfl
      · exact htext ' ' hquote.1 rfl
      · exact htext ',' hquote.2.1 rfl
      · exact htext ')' hquote.2.2 rfl

end Lexeme

open Lexeme

/-- A delimited identifier is read exactly where it is written in front of text that does not begin
with a quote.  In a statement each identifier is read as the name that it was written for, up to
where the rest of the statement begins. -/
theorem Dialect.identifiers_read_back (dialect : Dialect) :
    (∀ text identifier rest, dialect.readIdentifier text = some (identifier, rest) ↔
      text = dialect.quote identifier ++ rest ∧ rest.toList.head? ≠ some dialect.quoteChar) ∧
    ∀ (command : Command) (before after : List Lexeme) (name : String),
      command.lexemes dialect = before ++ identifier name :: after →
      ∃ n, (command.compiled dialect).sql =
          print dialect 0 before ++ (dialect.quote name ++ print dialect n after) ∧
        dialect.readIdentifier (dialect.quote name ++ print dialect n after) =
          some (name, print dialect n after) := by
  refine ⟨fun _ _ _ => readIdentifier_eq_some, fun command before after name h => ?_⟩
  have hseparated := command.separated dialect
  rw [h] at hseparated
  have hafter := (List.isChain_append.mp hseparated).2.1
  obtain ⟨n, hn⟩ := print_append dialect before (identifier name :: after) 0
  refine ⟨n, ?_, readIdentifier_eq_some.mpr ⟨rfl, head?_print dialect n hafter⟩⟩
  rw [← print_identifier, ← hn, ← h]
  rfl

namespace Sample

/-- An index on a table and columns with quotes in their names. -/
def quotedNames : Command := .createIndex false false "by_quote" "it\"ems" ["\"", "id"]

/-- A name that is one quote ends before the comma. -/
theorem quotedNames_read_back :
    quotedNames.lexemes .sqlite = [.word "CREATE", .space, .word "INDEX", .space,
        .identifier "by_quote", .space, .word "ON", .space, .identifier "it\"ems", .space,
        .symbol "("] ++ .identifier "\"" :: [.symbol ",", .space, .identifier "id", .symbol ")"] ∧
      Dialect.sqlite.readIdentifier "\"\"\"\", \"id\")" = some ("\"", ", \"id\")") := by
  refine ⟨rfl, ?_⟩
  obtain ⟨n, -, hread⟩ := (Dialect.identifiers_read_back .sqlite).2 quotedNames
    [.word "CREATE", .space, .word "INDEX", .space, .identifier "by_quote", .space, .word "ON",
      .space, .identifier "it\"ems", .space, .symbol "("]
    [.symbol ",", .space, .identifier "id", .symbol ")"] "\"" rfl
  exact hread

end Sample

end RecordStore
