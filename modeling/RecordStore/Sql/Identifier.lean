import RecordStore.Error

/-! # Plain identifiers

The names of indexes are given freely, so only plain identifiers are accepted: a letter or
underscore followed by at most 62 letters, digits and underscores of ASCII. -/

namespace RecordStore.Identifier

/-- A character that a plain identifier may start with. -/
def startsName (c : Char) : Bool := c.isAlpha || c == '_'

/-- A character inside a plain identifier. -/
def continuesName (c : Char) : Bool := c.isAlphanum || c == '_'

/-- The text is a plain identifier. -/
def isPlain (name : String) : Bool :=
  match name.toList with
  | [] => false
  | c :: cs => startsName c && cs.all continuesName && decide (cs.length ≤ 62)

/-- Refuses a name that is not a plain identifier. -/
def validate (name : String) : Except StatementError Unit :=
  if isPlain name then .ok () else .error (.invalidIdentifier name)

end RecordStore.Identifier
