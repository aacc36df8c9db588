import Mathlib.Data.List.Forall2
import RecordStore.Compiler

/-! # Text without placeholders

Lexemes without placeholders are printed as the same text wherever they stand (`Spells`).  Around
other lexemes they add text to a statement and change neither its bindings nor the numbers of its
placeholders (`compiledLexemes_between`). -/

namespace RecordStore

open Lexeme

namespace CompiledStatement

variable (dialect : Dialect)

/-- Pieces of text in front leave the numbers of the placeholders as they are. -/
theorem texts_map_text_append (pieces : List String) (tokens : List Token) (n : Nat) :
    texts dialect n (pieces.map .text ++ tokens) = pieces ++ texts dialect n tokens := by
  induction pieces with
  | nil => rfl
  | cons piece pieces ih => exact congrArg (piece :: ·) ih

/-- Pieces of text at the end do not depend on what stands before them. -/
theorem texts_append (tokens : List Token) (pieces : List String) (n : Nat) :
    texts dialect n (tokens ++ pieces.map .text) = texts dialect n tokens ++ pieces := by
  induction tokens generalizing n with
  | nil => simpa [texts] using texts_map_text_append dialect pieces [] n
  | cons token tokens ih =>
      cases token with
      | text s => exact congrArg (s :: ·) (ih n)
      | param b => exact congrArg (dialect.placeholder (n + 1) :: ·) (ih (n + 1))

theorem filterMap_binding?_map_text (pieces : List String) :
    (pieces.map Token.text).filterMap binding? = [] := by
  induction pieces with
  | nil => rfl
  | cons piece pieces ih => exact ih

/-- The statement with text before and after it. -/
def between (before after : String) (s : CompiledStatement) : CompiledStatement where
  sql := before ++ s.sql ++ after
  bindings := s.bindings

end CompiledStatement

/-- The statement that lexemes are printed as. -/
def compiledLexemes (dialect : Dialect) (ls : List Lexeme) : CompiledStatement :=
  .ofTokens dialect (tokensOf dialect ls)

/-- The lexemes are printed as this text, with no placeholder. -/
def Spells (dialect : Dialect) (ls : List Lexeme) (text : String) : Prop :=
  ∃ pieces, tokensOf dialect ls = pieces.map .text ∧ String.join pieces = text

namespace Spells

variable {dialect : Dialect} {ls ls' : List Lexeme} {text text' : String}

theorem nil (dialect : Dialect) : Spells dialect [] "" := ⟨[], rfl, rfl⟩

theorem append (h : Spells dialect ls text) (h' : Spells dialect ls' text') :
    Spells dialect (ls ++ ls') (text ++ text') := by
  obtain ⟨pieces, htokens, rfl⟩ := h
  obtain ⟨pieces', htokens', rfl⟩ := h'
  refine ⟨pieces ++ pieces', ?_, String.join_append⟩
  unfold tokensOf at htokens htokens' ⊢
  rw [List.map_append, htokens, htokens', List.map_append]

/-- Between commas the texts stand between commas. -/
theorem commaSeparated {items : List (List Lexeme)} {texts : List String}
    (h : List.Forall₂ (Spells dialect) items texts) :
    Spells dialect (commaSeparated items) (String.intercalate ", " texts) := by
  induction h with
  | nil => exact nil dialect
  | @cons item text items texts hitem hrest ih =>
      cases hrest with
      | nil =>
          rw [String.intercalate_singleton]
          simpa [Lexeme.commaSeparated] using hitem
      | @cons second text' items texts hsecond hrest =>
          have hcomma : Spells dialect [symbol ",", space] ", " := ⟨[",", " "], rfl, rfl⟩
          have hprinted : Lexeme.commaSeparated (item :: second :: items) =
              item ++ [symbol ",", space] ++ Lexeme.commaSeparated (second :: items) :=
            List.intercalate_cons_cons
          rw [String.intercalate_cons_cons, hprinted]
          exact (hitem.append hcomma).append ih

/-- What is printed between lexemes without placeholders stands between their texts. -/
theorem compiledLexemes_between (h : Spells dialect ls text) (h' : Spells dialect ls' text')
    (inner : List Lexeme) : compiledLexemes dialect (ls ++ inner ++ ls') =
      (compiledLexemes dialect inner).between text text' := by
  obtain ⟨pieces, htokens, rfl⟩ := h
  obtain ⟨pieces', htokens', rfl⟩ := h'
  have hall : tokensOf dialect (ls ++ inner ++ ls') =
      pieces.map .text ++ tokensOf dialect inner ++ pieces'.map .text := by
    rw [← htokens, ← htokens']
    unfold tokensOf
    rw [List.map_append, List.map_append]
  unfold compiledLexemes
  rw [hall]
  unfold CompiledStatement.ofTokens CompiledStatement.between
  congr 1
  · rw [CompiledStatement.texts_append, CompiledStatement.texts_map_text_append,
      String.join_append, String.join_append]
  · rw [List.filterMap_append, List.filterMap_append,
      CompiledStatement.filterMap_binding?_map_text, CompiledStatement.filterMap_binding?_map_text,
      List.nil_append, List.append_nil]

/-- What is printed after lexemes without placeholders stands after their text. -/
theorem compiledLexemes_after (h : Spells dialect ls text) (inner : List Lexeme) :
    compiledLexemes dialect (ls ++ inner) =
      ⟨text ++ (compiledLexemes dialect inner).sql, (compiledLexemes dialect inner).bindings⟩ := by
  have hbetween := h.compiledLexemes_between (nil dialect) inner
  rw [List.append_nil] at hbetween
  rw [hbetween]
  unfold CompiledStatement.between
  rw [String.append_empty]

end Spells

end RecordStore
