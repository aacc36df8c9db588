import RecordStore.Expr
import RecordStore.Sql.Lexeme

/-! # Operators and functions in print

The words and symbols of operators, joins and calendar functions.  What an operator is called does
not depend on its operands; calendar functions are spelled by each dialect in its own way. -/

namespace RecordStore

open Lexeme

/-- The operator in print. -/
def BinaryOp.lexemes : BinaryOp → List Lexeme
  | eq => [symbol "="]
  | ne => [symbol "<>"]
  | lt => [symbol "<"]
  | le => [symbol "<="]
  | gt => [symbol ">"]
  | ge => [symbol ">="]
  | like => [word "LIKE"]
  | notLike => words ["NOT", "LIKE"]
  | add => [symbol "+"]
  | sub => [symbol "-"]
  | mul => [symbol "*"]
  | div => [symbol "/"]
  | mod => [symbol "%"]
  | concat => [symbol "||"]

/-- The connective in print. -/
def LogicalOp.keyword : LogicalOp → String
  | and => "AND"
  | or => "OR"

/-- What a connective without operands says: that all of nothing holds, and none of nothing does. -/
def LogicalOp.unit : LogicalOp → List Lexeme
  | and => [literal (.integer 1), space, symbol "=", space, literal (.integer 1)]
  | or => [literal (.integer 1), space, symbol "=", space, literal (.integer 0)]

/-- The join in print. -/
def JoinKind.lexemes : JoinKind → List Lexeme
  | inner => words ["INNER", "JOIN"]
  | left => words ["LEFT", "OUTER", "JOIN"]
  | right => words ["RIGHT", "OUTER", "JOIN"]

/-! ### Calendar functions -/

/-- The format of a unit's number for functions that format instants. -/
def CalendarUnit.numberFormat : CalendarUnit → String
  | year => "%Y"
  | month => "%m"
  | day => "%d"
  | hour => "%H"
  | minute => "%M"
  | second => "%S"

/-- The format of the beginning of a unit, with the given spellings of minutes and seconds. -/
def CalendarUnit.startFormat (minutes seconds : String) : CalendarUnit → String
  | year => "%Y-01-01 00:00:00"
  | month => "%Y-%m-01 00:00:00"
  | day => "%Y-%m-%d 00:00:00"
  | hour => "%Y-%m-%d %H:00:00"
  | minute => "%Y-%m-%d %H:" ++ minutes ++ ":00"
  | second => "%Y-%m-%d %H:" ++ minutes ++ ":" ++ seconds

/-- The formatted instant read as a number. -/
def formattedNumber (format : String) (operand : List Lexeme) : List Lexeme :=
  word "CAST" :: parenthesized
    (application "strftime" [[textLiteral format], operand] ++ space :: words ["AS", "INTEGER"])

/-- A field taken out of an instant. -/
def extracted (field : String) (operand : List Lexeme) : List Lexeme :=
  word "EXTRACT" :: parenthesized (words [field, "FROM"] ++ space :: operand)

namespace TemporalOp

/-- A calendar function of an operand. -/
def lexemes (dialect : Dialect) (operand : List Lexeme) : TemporalOp → List Lexeme
  | part unit =>
    match dialect with
    | .sqlite => formattedNumber unit.numberFormat operand
    | _ => extracted unit.keyword operand
  | start unit =>
    match dialect with
    | .sqlite => application "strftime" [[textLiteral (unit.startFormat "%M" "%S")], operand]
    | .mysql => application "DATE_FORMAT" [operand, [textLiteral (unit.startFormat "%i" "%s")]]
    | _ => application "DATE_TRUNC" [[textLiteral unit.word], operand]
  | epoch =>
    match dialect with
    | .sqlite => formattedNumber "%s" operand
    | .mysql => application "UNIX_TIMESTAMP" [operand]
    | _ => extracted "EPOCH" operand

end TemporalOp

/-- An interval of time, where the dialect has none a number of seconds. -/
def intervalLexemes (dialect : Dialect) (amount : Int64) (unit : CalendarUnit) : List Lexeme :=
  match dialect with
  | .postgres =>
    [word "INTERVAL", space, textLiteral (toString amount.toInt ++ " " ++ unit.word ++ "s")]
  | .mysql => [word "INTERVAL", space, literal (.integer amount), space, word unit.keyword]
  | _ => [literal (.integer (.ofInt (amount.toInt * unit.seconds)))]

/-! ### Full-text search -/

/-- The character that makes the next one of a pattern literal. -/
def patternEscape : Char := '\\'

/-- A character of a pattern that matches this character alone. -/
def patternChar (c : Char) : List Char :=
  if c = patternEscape ∨ c = '%' ∨ c = '_' then [patternEscape, c] else [c]

/-- The pattern of the texts that contain a text. -/
def containsPattern (query : String) : String :=
  String.ofList ('%' :: query.toList.flatMap patternChar ++ ['%'])

/-- The test that a column contains a text. -/
def containsTest (query : String) (column : List Lexeme) : List Lexeme :=
  column ++ [space, word "LIKE", space, .param (.value (.text (containsPattern query))), space,
    word "ESCAPE", space, textLiteral (String.singleton patternEscape)]

/-- One point for a column that contains a text. -/
def containsScore (query : String) (column : List Lexeme) : List Lexeme :=
  words ["CASE", "WHEN"] ++ space :: containsTest query column ++ space :: word "THEN" :: space ::
    literal (.integer 1) :: space :: word "ELSE" :: space :: literal (.integer 0) :: space ::
    [word "END"]

/-- The words of all columns. -/
def searchDocument (columns : List (List Lexeme)) : List Lexeme :=
  application "to_tsvector" [application "concat_ws" ([textLiteral " "] :: columns)]

/-- The words that are searched for. -/
def searchQuery (query : String) : List Lexeme :=
  application "plainto_tsquery" [[.param (.value (.text query))]]

/-- A search through columns. -/
def searchLexemes (dialect : Dialect) (mode : SearchMode) (query : String)
    (columns : List (List Lexeme)) : List Lexeme :=
  match dialect with
  | .postgres =>
    match mode with
    | .matches => searchDocument columns ++ space :: symbol "@@" :: space :: searchQuery query
    | .rank => application "ts_rank" [searchDocument columns, searchQuery query]
  | .mysql =>
    word "MATCH" :: space :: parenthesized (commaSeparated columns) ++ space :: word "AGAINST" ::
      space :: parenthesized (.param (.value (.text query)) :: space ::
        words ["IN", "NATURAL", "LANGUAGE", "MODE"])
  | _ =>
    match mode with
    | .matches => wordSeparated "OR" (columns.map (containsTest query))
    | .rank =>
      parenthesized ([space, symbol "+", space].intercalate (columns.map (containsScore query)))

end RecordStore
