import RecordStore.Proofs.Sql.Parsing

/-! # Phrases

A phrase is an expression as it stands in a statement: connectors between operands, parentheses
around contents, and atoms.  The contents of parentheses are expressions with marks between them:
the arguments of a function, the items of a list, or the clauses of a query.

Connectors bind, from the loosest to the tightest: `OR`, `AND`, then comparisons, `LIKE`, `IS` and
`IN`, then `ESCAPE`, then `+`, `-` and `||`, then `*`, `/` and `%`, all of them from the left; `NOT`
stands between `AND` and comparisons.  A phrase fits where no operand of it binds more loosely than
its connector allows (`Phrase.fits`), and a reader goes by what binds more tightly alone
(`Phrase.read`). -/

namespace RecordStore

/-! ### Words -/

/-- The word is one that may stand before a parenthesis in a clause, in any case. -/
def isClauseWord (word : String) : Bool :=
  ["SELECT", "DISTINCT", "FROM", "WHERE", "BY", "ON"].contains
    (String.ofList (word.toList.map Char.toUpper))

/-- A function can have this name: it is no keyword and no word of a clause. -/
def isFunctionName (word : String) : Bool :=
  (Keyword.ofWord? word).isNone && !isClauseWord word

/-- What stands between two operands. -/
inductive Connector where
  | binary (op : BinaryOp)
  | logical (op : LogicalOp)
  | is (negated : Bool)
  | member (negated : Bool)
  | escape
deriving DecidableEq

namespace Connector

/-- The terminals of a connector. -/
def terminals : Connector → List Terminal
  | binary op => op.terminals
  | logical op => [Grammar.connective op]
  | is false => [.keyword .isWord]
  | is true => [.keyword .isWord, .keyword .notWord]
  | member negated => Grammar.ReadsAs.membershipTest negated
  | escape => [.name "ESCAPE"]

/-- How tightly a connector binds its operands. -/
def strength : Connector → Nat
  | logical .or => 0
  | logical .and => 1
  | binary .eq | binary .ne | binary .lt | binary .le | binary .gt | binary .ge | binary .like
  | binary .notLike | is _ | member _ => 3
  | escape => 4
  | binary .add | binary .sub | binary .concat => 5
  | binary .mul | binary .div | binary .mod => 6

end Connector

/-- What stands between expressions: a comma, a word of a case distinction, or a name that is no
part of an expression, such as a word of a clause or the alias of a table. -/
inductive Mark where
  | name (word : String)
  | comma
  | whenWord
  | thenWord
  | elseWord
deriving DecidableEq

namespace Mark

/-- The terminal of a mark. -/
def terminal : Mark → Terminal
  | name word => .name word
  | comma => .comma
  | whenWord => .keyword .whenWord
  | thenWord => .keyword .thenWord
  | elseWord => .keyword .elseWord

/-- With this terminal after it the mark is not taken for anything else: a name before a dot is a
qualifier, and one before a parenthesis is a function unless it is a word of a clause. -/
def fits (next : Option Terminal) : Mark → Bool
  | name word =>
    word != "ESCAPE" && next != some .dot && (isClauseWord word || next != some .opening)
  | comma | whenWord | thenWord | elseWord => true

end Mark

/-- The terminal is an expression by itself; an asterisk stands for all columns. -/
def Terminal.isLeaf : Terminal → Bool
  | keyword .nullWord | keyword .trueWord | keyword .falseWord | identifier _ | literal _ | param _
  | other | operator .mul => true
  | _ => false

/-! ### Trees -/

/-- An expression as it stands in a statement, or a mark between expressions. -/
inductive Phrase where
  | leaf (t : Terminal)
  | qualified (qualifier column : String)
  /-- Contents in parentheses, after the name of a function where there is one. -/
  | bracketed (function : Option String) (contents : List Phrase)
  /-- Contents between `CASE` and `END`. -/
  | distinction (contents : List Phrase)
  | negation (operand : Phrase)
  | operation (c : Connector) (left right : Phrase)
  | mark (m : Mark)

namespace Phrase

/-- The phrase is a mark between expressions. -/
def isMark : Phrase → Bool
  | mark _ => true
  | _ => false

mutual

/-- The terminals of a phrase. -/
def terminals : Phrase → List Terminal
  | leaf t => [t]
  | qualified q c => [.name q, .dot, .identifier c]
  | bracketed none contents => .opening :: (terminalsAll contents ++ [.closing])
  | bracketed (some f) contents => .name f :: .opening :: (terminalsAll contents ++ [.closing])
  | distinction contents => .keyword .caseWord :: (terminalsAll contents ++ [.keyword .endWord])
  | negation operand => .keyword .notWord :: operand.terminals
  | operation c left right => left.terminals ++ (c.terminals ++ right.terminals)
  | mark m => [m.terminal]

/-- The terminals of contents. -/
def terminalsAll : List Phrase → List Terminal
  | [] => []
  | p :: ps => p.terminals ++ terminalsAll ps

end

/-- How tightly a phrase holds together. -/
def strength : Phrase → Nat
  | operation c .. => c.strength
  | negation _ => 2
  | leaf _ | qualified .. | bracketed .. | distinction _ | mark _ => 7

mutual

/-- The phrase is an expression, and its operands hold together in it. -/
def fits : Phrase → Bool
  | leaf t => t.isLeaf
  | qualified .. => true
  | bracketed none contents => fitsAll contents
  | bracketed (some f) contents => isFunctionName f && fitsAll contents
  | distinction contents => fitsAll contents
  | negation operand => operand.fits && decide (2 ≤ operand.strength)
  | operation c left right =>
    left.fits && right.fits && decide (c.strength ≤ left.strength) &&
      decide (c.strength < right.strength)
  | mark _ => false

/-- The contents are marks and expressions, with a mark between any two expressions. -/
def fitsAll : List Phrase → Bool
  | [] => true
  | mark m :: rest => m.fits (terminalsAll rest).head? && fitsAll rest
  | p :: rest => p.fits && rest.head?.all isMark && fitsAll rest

end

/-! ### Reading -/

/-- The connector that terminals begin with, and what follows it. -/
def connector? : List Terminal → Option (Connector × List Terminal)
  | .keyword .orWord :: s => some (.logical .or, s)
  | .keyword .andWord :: s => some (.logical .and, s)
  | .keyword .isWord :: .keyword .notWord :: s => some (.is true, s)
  | .keyword .isWord :: s => some (.is false, s)
  | .keyword .inWord :: s => some (.member false, s)
  | .keyword .notWord :: .keyword .inWord :: s => some (.member true, s)
  | .keyword .likeWord :: s => some (.binary .like, s)
  | .keyword .notWord :: .keyword .likeWord :: s => some (.binary .notLike, s)
  | .operator op :: s => if op.terminals = [.operator op] then some (.binary op, s) else none
  | .name word :: s => if word = "ESCAPE" then some (.escape, s) else none
  | _ => none

/-- The mark that terminals begin with, and what follows it. -/
def mark? : List Terminal → Option (Mark × List Terminal)
  | .name word :: s => if (Mark.name word).fits s.head? then some (.name word, s) else none
  | .comma :: s => some (.comma, s)
  | .keyword .whenWord :: s => some (.whenWord, s)
  | .keyword .thenWord :: s => some (.thenWord, s)
  | .keyword .elseWord :: s => some (.elseWord, s)
  | _ => none

/-- Contents end here. -/
def ends : List Terminal → Bool
  | [] | .closing :: _ | .keyword .endWord :: _ => true
  | _ => false

/-- What is left when at least one terminal has been taken. -/
abbrev Shorter (s : List Terminal) : Type := { rest : List Terminal // rest.length < s.length }

/-- What has been taken off the front, if it took a terminal: a reader goes on with less. -/
def progress {α : Type} (s : List Terminal) : Option (α × List Terminal) → Option (α × Shorter s)
  | some (a, rest) => if h : rest.length < s.length then some (a, ⟨rest, h⟩) else none
  | none => none

mutual

/-- The expression that terminals begin with, of connectors that bind at least so tightly. -/
def expression (p : Nat) (s : List Terminal) : Option (Phrase × List Terminal) := do
  let (a, ⟨rest, _⟩) ← progress s (operand p s)
  extend p a rest
termination_by (s.length, 1)

/-- What has been read, extended for as long as connectors follow that bind tightly enough. -/
def extend (p : Nat) (a : Phrase) (s : List Terminal) : Option (Phrase × List Terminal) :=
  match progress s (connector? s) with
  | none => some (a, s)
  | some (c, ⟨s', _⟩) =>
    if p ≤ c.strength then do
      let (b, ⟨rest, _⟩) ← progress s' (expression (c.strength + 1) s')
      extend p (.operation c a b) rest
    else some (a, s)
termination_by (s.length, 0)

/-- An expression up to its first connector; a negation goes on for as long as it can. -/
def operand (p : Nat) (s : List Terminal) : Option (Phrase × List Terminal) :=
  match s with
  | .keyword .notWord :: s =>
    if p ≤ 2 then do
      let (a, rest) ← expression 2 s
      some (.negation a, rest)
    else none
  | .opening :: s => do
    let (ps, rest) ← contents s
    let closed ← Grammar.expect .closing rest
    some (.bracketed none ps, closed.2)
  | .keyword .caseWord :: s => do
    let (ps, rest) ← contents s
    let closed ← Grammar.expect (.keyword .endWord) rest
    some (.distinction ps, closed.2)
  | .name q :: .dot :: .identifier c :: s => some (.qualified q c, s)
  | .name f :: .opening :: s =>
    if isFunctionName f then do
      let (ps, rest) ← contents s
      let closed ← Grammar.expect .closing rest
      some (.bracketed (some f) ps, closed.2)
    else none
  | t :: s => if t.isLeaf then some (.leaf t, s) else none
  | [] => none
termination_by (s.length, 0)

/-- Marks and expressions up to the end of the contents. -/
def contents (s : List Terminal) : Option (List Phrase × List Terminal) :=
  match progress s (mark? s) with
  | some (m, ⟨s', _⟩) => do
    let (ps, rest) ← contents s'
    some (.mark m :: ps, rest)
  | none =>
    if ends s then some ([], s)
    else do
      let (a, ⟨s', _⟩) ← progress s (expression 0 s)
      let (ps, rest) ← contents s'
      if ps.head?.all isMark then some (a :: ps, rest) else none
termination_by (s.length, 2)

end

/-- The expression that all of these terminals are. -/
def read (ts : List Terminal) : Option Phrase :=
  match expression 0 ts with
  | some (p, []) => some p
  | _ => none

/-- The contents that all of these terminals are. -/
def readAll (ts : List Terminal) : Option (List Phrase) :=
  match contents ts with
  | some (ps, []) => some ps
  | _ => none

end Phrase

end RecordStore
