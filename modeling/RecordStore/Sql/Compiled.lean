import RecordStore.Dialect
import RecordStore.Value.Basic

/-! # Compiled statements

A statement is emitted as tokens: pieces of text and placeholders with what is bound to them.  From
the tokens the text and the bindings are read off together, placeholders numbered in the order of
the bindings (`CompiledStatement.ofTokens`). -/

namespace RecordStore

/-- What a placeholder stands for. -/
inductive Binding where
  | value (v : Value)
  /-- The value of a field that is written. -/
  | field (name : String) (v : Value)
  /-- A number of a limit. -/
  | integer (n : Int64)
deriving DecidableEq

/-- The value to bind. -/
def Binding.toValue : Binding → Value
  | value v => v
  | field _ v => v
  | integer n => .integer n

/-- A piece of an emitted statement. -/
inductive Token where
  | text (s : String)
  | param (b : Binding)
deriving DecidableEq

/-- The text of a statement and the bindings of its placeholders in order. -/
structure CompiledStatement where
  sql : String
  bindings : List Binding
deriving DecidableEq

namespace CompiledStatement

/-- The texts of tokens, when so many placeholders come before them. -/
def texts (dialect : Dialect) : Nat → List Token → List String
  | _, [] => []
  | n, .text s :: rest => s :: texts dialect n rest
  | n, .param _ :: rest => dialect.placeholder (n + 1) :: texts dialect (n + 1) rest

/-- The binding of a token. -/
def binding? : Token → Option Binding
  | .text _ => none
  | .param b => some b

/-- The statement that the tokens spell. -/
def ofTokens (dialect : Dialect) (tokens : List Token) : CompiledStatement where
  sql := String.join (texts dialect 0 tokens)
  bindings := tokens.filterMap binding?

/-- The values to bind in order. -/
def params (s : CompiledStatement) : List Value := s.bindings.map Binding.toValue

end CompiledStatement

end RecordStore
