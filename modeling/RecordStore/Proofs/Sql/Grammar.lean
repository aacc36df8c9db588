import RecordStore.Sql.Printer

/-! # The grammar of expressions

An SQL expression is read by the usual precedence, from the loosest to the tightest: `OR`, `AND`,
`NOT`, then comparisons, `LIKE`, `IN` and `IS NULL`, then `+`, `-` and `||`, then `*`, `/` and `%`.
Comparisons and arithmetic are taken together from the left.  A chain of operands between `OR` or
between `AND` is one connective over all of them.

What is read is a list of terminals: blanks are gone, keywords are known in either case, and
literals, delimited identifiers and placeholders are taken as they are.  The columns are those of
one record type under one qualifier. -/

namespace RecordStore

/-! ### Terminals -/

/-- The keywords of expressions. -/
inductive Keyword where
  | andWord
  | orWord
  | notWord
  | inWord
  | isWord
  | likeWord
  | nullWord
  | trueWord
  | falseWord
  | caseWord
  | whenWord
  | thenWord
  | elseWord
  | endWord
deriving DecidableEq

/-- The keyword that is written so in capitals. -/
def Keyword.ofCapitals? : String → Option Keyword
  | "AND" => some andWord
  | "OR" => some orWord
  | "NOT" => some notWord
  | "IN" => some inWord
  | "IS" => some isWord
  | "LIKE" => some likeWord
  | "NULL" => some nullWord
  | "TRUE" => some trueWord
  | "FALSE" => some falseWord
  | "CASE" => some caseWord
  | "WHEN" => some whenWord
  | "THEN" => some thenWord
  | "ELSE" => some elseWord
  | "END" => some endWord
  | _ => none

/-- The keyword that is written so in any case. -/
def Keyword.ofWord? (word : String) : Option Keyword :=
  ofCapitals? (String.ofList (word.toList.map Char.toUpper))

/-- A terminal of the grammar. -/
inductive Terminal where
  | keyword (k : Keyword)
  /-- A word that is no keyword. -/
  | name (word : String)
  | opening
  | closing
  | comma
  | dot
  | operator (op : BinaryOp)
  | identifier (name : String)
  | literal (l : Literal)
  | param (b : Binding)
  /-- Anything else. -/
  | other
deriving DecidableEq

namespace Terminal

/-- The terminal of a word. -/
def ofWord (word : String) : Terminal :=
  match Keyword.ofWord? word with
  | some k => keyword k
  | none => name word

/-- The terminal of a symbol. -/
def ofSymbol : String → Terminal
  | "(" => opening
  | ")" => closing
  | "," => comma
  | "." => dot
  | "=" => operator .eq
  | "<>" => operator .ne
  | "<" => operator .lt
  | "<=" => operator .le
  | ">" => operator .gt
  | ">=" => operator .ge
  | "+" => operator .add
  | "-" => operator .sub
  | "*" => operator .mul
  | "/" => operator .div
  | "%" => operator .mod
  | "||" => operator .concat
  | _ => other

/-- The terminal of a literal; some literals are words. -/
def ofLiteral : Literal → Terminal
  | .null => keyword .nullWord
  | .bool true => keyword .trueWord
  | .bool false => keyword .falseWord
  | l => literal l

end Terminal

/-- The terminal of a lexeme; blanks have none. -/
def Lexeme.terminal? : Lexeme → Option Terminal
  | space => none
  | word s => some (.ofWord s)
  | symbol s => some (.ofSymbol s)
  | tableAlias n => some (.name ("t" ++ toString n))
  | identifier name => some (.identifier name)
  | literal l => some (.ofLiteral l)
  | definition _ => some .other
  | param b => some (.param b)

/-- The terminals of lexemes. -/
def Lexeme.terminals (ls : List Lexeme) : List Terminal := ls.filterMap terminal?

/-- The value that a literal writes. -/
def Literal.toValue : Literal → Value
  | .null => .null
  | .bool b => .bool b
  | .integer n => .integer n
  | .real x => .real x
  | .text s => .text s
  | .blob bytes => .blob bytes
  | .timestamp t => .timestamp t

/-! ### Precedence -/

/-- How tightly operators bind. -/
abbrev Precedence := Nat

namespace Precedence

abbrev disjunction : Precedence := 0
abbrev conjunction : Precedence := 1
abbrev negation : Precedence := 2
abbrev comparison : Precedence := 3
abbrev addition : Precedence := 4
abbrev multiplication : Precedence := 5
/-- No operator at all. -/
abbrev atom : Precedence := 6

end Precedence

/-- How tightly an operator binds its operands. -/
def BinaryOp.precedence : BinaryOp → Precedence
  | eq | ne | lt | le | gt | ge | like | notLike => .comparison
  | add | sub | concat => .addition
  | mul | div | mod => .multiplication

theorem BinaryOp.comparison_le_precedence (op : BinaryOp) : .comparison ≤ op.precedence := by
  cases op <;> decide

theorem BinaryOp.precedence_lt_atom (op : BinaryOp) : op.precedence < .atom := by
  cases op <;> decide

/-- How tightly a connective binds its operands. -/
def LogicalOp.precedence : LogicalOp → Precedence
  | or => .disjunction
  | and => .conjunction

theorem LogicalOp.precedence_lt_negation (op : LogicalOp) : op.precedence < .negation := by
  cases op <;> decide

namespace Grammar

/-! ### Combining parsers -/

/-- A parser takes something off the front of a list of terminals, or refuses. -/
abbrev Parser (α : Type) := List Terminal → Option (α × List Terminal)

section

variable {α : Type}

/-- As many items as there are, at most so many. -/
def repeated (item : Parser α) : Nat → List Terminal → List α × List Terminal
  | 0, s => ([], s)
  | n + 1, s =>
    match item s with
    | none => ([], s)
    | some (a, s) => (a :: (repeated item n s).1, (repeated item n s).2)

/-- Exactly this terminal. -/
def expect (t : Terminal) : Parser Unit
  | t' :: s => if t' = t then some ((), s) else none
  | [] => none

/-- An item after a separator. -/
def next (separator : Terminal) (item : Parser α) : Parser α := fun s => do
  let ((), s) ← expect separator s
  item s

/-- Items with a separator between them, at least one. -/
def separated (separator : Terminal) (item : Parser α) : Parser (List α) := fun s => do
  let (a, s) ← item s
  let (as, s) := repeated (next separator item) s.length s
  some (a :: as, s)

/-- What has been read, extended for as long as it can be. -/
def extend (step : α → Parser α) : Nat → α → List Terminal → α × List Terminal
  | 0, a, s => (a, s)
  | n + 1, a, s =>
    match step a s with
    | none => (a, s)
    | some (a, s) => extend step n a s

/-- An operand, extended from left to right. -/
def chain (operand : Parser α) (step : α → Parser α) : Parser α := fun s => do
  let (a, s) ← operand s
  some (extend step s.length a s)

end

/-! ### Levels of precedence -/

/-- An operator of this precedence that is a symbol. -/
def symbolic (p : Precedence) : Parser BinaryOp
  | .operator op :: s => if op.precedence = p then some (op, s) else none
  | _ => none

/-- A comparison, which may be a word. -/
def comparing : Parser BinaryOp
  | .keyword .likeWord :: s => some (.like, s)
  | .keyword .notWord :: .keyword .likeWord :: s => some (.notLike, s)
  | s => symbolic .comparison s

/-- An operator and its right operand. -/
def applied (operator : Parser BinaryOp) (operand : Parser Expr) (left : Expr) : Parser Expr :=
  fun s => do
    let (op, s) ← operator s
    let (right, s) ← operand s
    some (.binary op left right, s)

/-- The connective of some operands, which one operand does not need. -/
def connected (op : LogicalOp) : List Expr → Expr
  | [e] => e
  | es => .logical op es

/-- The keyword of a connective. -/
def connective : LogicalOp → Terminal
  | .and => .keyword .andWord
  | .or => .keyword .orWord

/-- Operands with a connective between them. -/
def connecting (op : LogicalOp) (operand : Parser Expr) : Parser Expr := fun s => do
  let (es, s) ← separated (connective op) operand s
  some (connected op es, s)

section

variable (r : RecordType) (qualifier : Option Alias)

/-- The field that is kept in a column, read under a qualifier. -/
def column (qualified : Option String) (name : String) : Option Expr :=
  if qualified = qualifier.map (fun a => "t" ++ toString a) then
    (r.storedFields.find? (·.column == name)).map fun f => .col r f.name
  else none

variable (inner : Parser Expr)

/-- The arguments of a function after the opening parenthesis. -/
def arguments : Parser (List Expr)
  | .closing :: s => some ([], s)
  | s => do
    let (es, s) ← separated .comma inner s
    let ((), s) ← expect .closing s
    some (es, s)

/-- A branch of a case distinction. -/
def branch : Parser (Expr × Expr) := fun s => do
  let (condition, s) ← next (.keyword .whenWord) inner s
  let (result, s) ← next (.keyword .thenWord) inner s
  some ((condition, result), s)

/-- What stands between `CASE` and the first branch. -/
def caseOperand : Parser (Option Expr)
  | .keyword .whenWord :: s => some (none, .keyword .whenWord :: s)
  | s => do
    let (e, s) ← inner s
    some (some e, s)

/-- What stands after the branches. -/
def caseOtherwise : Parser (Option Expr)
  | .keyword .elseWord :: s => do
    let (e, s) ← inner s
    some (some e, s)
  | s => some (none, s)

/-- A case distinction after `CASE`. -/
def distinction : Parser Expr := fun s => do
  let (operand, s) ← caseOperand inner s
  let (first, s) ← branch inner s
  let (more, s) := repeated (branch inner) s.length s
  let (otherwise, s) ← caseOtherwise inner s
  let ((), s) ← expect (.keyword .endWord) s
  some (.caseWhen operand (first :: more) otherwise, s)

/-- An expression that no operator takes apart. -/
def atom : Parser Expr
  | .opening :: s => do
    let (e, s) ← inner s
    let ((), s) ← expect .closing s
    some (e, s)
  | .keyword .nullWord :: s => some (.literal .null, s)
  | .keyword .trueWord :: s => some (.literal (.bool true), s)
  | .keyword .falseWord :: s => some (.literal (.bool false), s)
  | .keyword .caseWord :: s => distinction inner s
  | .literal l :: s => some (.literal l.toValue, s)
  | .param (.value v) :: s => some (.bound v, s)
  | .identifier c :: s => (column r qualifier none c).map (·, s)
  | .name q :: .dot :: .identifier c :: s => (column r qualifier (some q) c).map (·, s)
  | .name f :: .opening :: s => do
    let (args, s) ← arguments inner s
    some (.call f args, s)
  | _ => none

/-- Factors. -/
def product : Parser Expr :=
  chain (atom r qualifier inner) (applied (symbolic .multiplication) (atom r qualifier inner))

/-- Summands. -/
def sum : Parser Expr :=
  chain (product r qualifier inner)
    (applied (symbolic .addition) (product r qualifier inner))

/-- A list after the opening parenthesis. -/
def membership (negated : Bool) (left : Expr) : Parser Expr := fun s => do
  let (items, s) ← separated .comma inner s
  let ((), s) ← expect .closing s
  some (.inExprs negated left items, s)

/-- A comparison with what stands to the left, or a test of it. -/
def tested (operand : Parser Expr) (left : Expr) : Parser Expr
  | .keyword .isWord :: .keyword .nullWord :: s => some (.isNull false left, s)
  | .keyword .isWord :: .keyword .notWord :: .keyword .nullWord :: s => some (.isNull true left, s)
  | .keyword .inWord :: .opening :: s => membership inner false left s
  | .keyword .notWord :: .keyword .inWord :: .opening :: s => membership inner true left s
  | s => applied comparing operand left s

/-- Comparisons and tests. -/
def predicate : Parser Expr :=
  chain (sum r qualifier inner) (tested inner (sum r qualifier inner))

/-- A predicate after any number of negations. -/
def negation : Parser Expr
  | .keyword .notWord :: s => do
    let (e, s) ← negation s
    some (.not e, s)
  | s => predicate r qualifier inner s

/-- An expression of a precedence, with parentheses around `inner` expressions. -/
def level : Precedence → Parser Expr
  | 0 => connecting .or (connecting .and (negation r qualifier inner))
  | 1 => connecting .and (negation r qualifier inner)
  | 2 => negation r qualifier inner
  | 3 => predicate r qualifier inner
  | 4 => sum r qualifier inner
  | 5 => product r qualifier inner
  | _ => atom r qualifier inner

/-- An expression with at most so many levels of nesting. -/
def nested : Nat → Parser Expr
  | 0 => fun _ => none
  | depth + 1 => level r qualifier (nested depth) .disjunction

/-- The expression that all of these terminals are. -/
def parse (ts : List Terminal) : Option Expr :=
  match nested r qualifier (ts.length + 1) ts with
  | some (e, []) => some e
  | _ => none

end

end Grammar

end RecordStore
