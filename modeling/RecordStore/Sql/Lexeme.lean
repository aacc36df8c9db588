import RecordStore.Sql.Compiled
import RecordStore.Sql.Literal

/-! # Lexemes

A statement is printed as a list of lexemes: words, symbols, blanks, delimited identifiers, literals
and placeholders.  The text of a lexeme never depends on its neighbours. -/

namespace RecordStore

/-- A piece of a printed statement. -/
inductive Lexeme where
  | space
  /-- A keyword or the name of a function. -/
  | word (s : String)
  /-- Punctuation or an operator. -/
  | symbol (s : String)
  /-- The name of a table within the statement. -/
  | tableAlias (n : Nat)
  /-- A delimited identifier. -/
  | identifier (name : String)
  | literal (l : Literal)
  /-- The SQL definition of a computed field. -/
  | definition (sql : String)
  | param (b : Binding)
deriving DecidableEq

namespace Lexeme

/-- Words with blanks between them. -/
def words (ws : List String) : List Lexeme := (ws.map word).intersperse space

/-- Lexemes between parentheses. -/
def parenthesized (ls : List Lexeme) : List Lexeme := symbol "(" :: ls ++ [symbol ")"]

/-- Lexemes between parentheses where they are needed. -/
def grouped (needed : Bool) (ls : List Lexeme) : List Lexeme :=
  if needed then parenthesized ls else ls

/-- Lists with commas between them. -/
def commaSeparated (items : List (List Lexeme)) : List Lexeme :=
  [symbol ",", space].intercalate items

/-- Lists with a word between them. -/
def wordSeparated (w : String) (items : List (List Lexeme)) : List Lexeme :=
  [space, word w, space].intercalate items

/-- A function applied to arguments. -/
def application (function : String) (args : List (List Lexeme)) : List Lexeme :=
  word function :: parenthesized (commaSeparated args)

/-- A piece of text that a function takes as a pattern or a separator. -/
def textLiteral (s : String) : Lexeme := literal (.text s)

/-- The token of a lexeme. -/
def toToken (dialect : Dialect) : Lexeme → Token
  | space => .text " "
  | word s => .text s
  | symbol s => .text s
  | tableAlias n => .text ("t" ++ toString n)
  | identifier name => .text (dialect.quote name)
  | literal l => .text l.write
  | definition sql => .text sql
  | param b => .param b

end Lexeme

end RecordStore
