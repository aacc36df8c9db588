import RecordStore.Sql.Printer
import RecordStore.Sql.Resolve

/-! # Compiling statements

`compile` turns a statement into text and bindings: it resolves the statement to a command over
tables and prints that.  A `Compiler` is compilation in progress, to which texts, expressions and
statements are added one after the other; aliases go on counting from one to the next.  An error
leaves what was emitted before. -/

namespace RecordStore

/-- The tokens of a list of lexemes. -/
def tokensOf (dialect : Dialect) (ls : List Lexeme) : List Token := ls.map (Lexeme.toToken dialect)

/-- Compilation in progress. -/
structure Compiler where
  dialect : Dialect
  tokens : List Token := []
  /-- The scopes that what is added next stands in. -/
  scopes : Scopes := []
  nextAlias : Alias := 0
  /-- Fields are replaced by the expressions that override them. -/
  overriding : Bool := true

namespace Compiler

/-- A step of a compilation. -/
abbrev Step := EStateM StatementError Compiler

/-- Adds tokens. -/
def emit (tokens : List Token) : Step Unit :=
  modify fun c => { c with tokens := c.tokens ++ tokens }

/-- Adds text as it is. -/
def push (text : String) : Step Unit := emit [.text text]

/-- Adds a placeholder. -/
def bind (b : Binding) : Step Unit := emit [.param b]

/-- Adds a delimited identifier. -/
def quoted (identifier : String) : Step Unit := do
  push ((← get).dialect.quote identifier)

/-- Resolves something with the aliases that are free, which stay taken also if it fails. -/
def resolve {α : Type} (r : Compiler → Resolve α) : Step α := fun c =>
  match r c c.nextAlias with
  | .ok x next => .ok x { c with nextAlias := next }
  | .error e next => .error e { c with nextAlias := next }

/-- Adds an expression. -/
def expr (e : Expr) : Step Unit := do
  let t ← resolve fun c => Resolve.expr c.dialect c.overriding c.scopes e
  let dialect := (← get).dialect
  emit (tokensOf dialect (t.lexemes dialect))

/-- Adds expressions with commas between them. -/
def exprs (es : List Expr) : Step Unit := do
  let ts ← resolve fun c => Resolve.exprs c.dialect c.overriding c.scopes es
  let dialect := (← get).dialect
  emit (tokensOf dialect (Lexeme.commaSeparated (termsLexemes dialect ts)))

/-- Adds a statement. -/
def statement (s : Statement) : Step Unit := do
  let command ← resolve fun c => Resolve.statement c.dialect c.overriding c.scopes s
  let dialect := (← get).dialect
  emit (tokensOf dialect (command.lexemes dialect))

/-- The statement that was added. -/
def finish (c : Compiler) : CompiledStatement := .ofTokens c.dialect c.tokens

end Compiler

/-- The command that a statement stands for. -/
def Statement.resolve (dialect : Dialect) (s : Statement) : Except StatementError Command :=
  match Resolve.statement dialect true [] s 0 with
  | .ok command _ => .ok command
  | .error e _ => .error e

/-- The text and bindings of a command. -/
def Command.compiled (dialect : Dialect) (command : Command) : CompiledStatement :=
  .ofTokens dialect (tokensOf dialect (command.lexemes dialect))

/-- The text and bindings of a statement. -/
def compile (dialect : Dialect) (s : Statement) : Except StatementError CompiledStatement :=
  (s.resolve dialect).map (·.compiled dialect)

/-- The text and bindings of a query. -/
def Select.compile (dialect : Dialect) (s : Select) : Except StatementError CompiledStatement :=
  RecordStore.compile dialect (.select s)

end RecordStore
