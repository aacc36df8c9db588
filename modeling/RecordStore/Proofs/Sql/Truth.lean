import RecordStore.Proofs.Sql.TermPhrases

/-! # Truth in three values

A condition in SQL holds, fails, or is unknown where `NULL` has no answer: nothing is known to be
equal to `NULL`, and membership in a list is equality with one of its values
(`Interpretation.member`).  `Phrase.truth` evaluates a phrase by this; what it does not know, the
values of columns and functions and the equality of values, is left to an interpretation.

Membership in a list is membership in one of its parts, and non-membership is non-membership in all
of them (`Interpretation.membership_append`).  So a test against a list that is cut into pieces is
as true as the test against the whole list (`Phrase.truth_memberTests`). -/

namespace RecordStore

/-- What a condition comes to. -/
inductive Truth where
  | holds
  | fails
  | unknown
deriving DecidableEq

namespace Truth

def ofBool (b : Bool) : Truth := if b then holds else fails

def not : Truth → Truth
  | holds => fails
  | fails => holds
  | unknown => unknown

def and : Truth → Truth → Truth
  | fails, _ | _, fails => fails
  | holds, holds => holds
  | _, _ => unknown

def or : Truth → Truth → Truth
  | holds, _ | _, holds => holds
  | fails, fails => fails
  | _, _ => unknown

/-- What two conditions come to under a connective. -/
def connect : LogicalOp → Truth → Truth → Truth
  | .and => and
  | .or => or

theorem or_assoc (s t u : Truth) : (s.or t).or u = s.or (t.or u) := by
  cases s <;> cases t <;> cases u <;> rfl

theorem fails_or (t : Truth) : fails.or t = t := by
  cases t <;> rfl

/-- Not one of two conditions is neither of them, in three values too. -/
theorem not_or (s t : Truth) : (s.or t).not = s.not.and t.not := by
  cases s <;> cases t <;> rfl

end Truth

/-- What a database makes of what is not known here. -/
structure Interpretation where
  /-- Two values are equal, neither of which is `NULL`. -/
  equal : Value → Value → Bool
  /-- The value of an expression. -/
  value : Phrase → Value
  /-- What a condition comes to that is neither a connective nor a membership test. -/
  truth : Phrase → Truth

/-- The connective of the tests against the pieces of a list. -/
def splitOp (negated : Bool) : LogicalOp := if negated then .and else .or

namespace Interpretation

variable (I : Interpretation)

/-- Equality of two values. -/
def equals : Value → Value → Truth
  | .null, _ | _, .null => .unknown
  | v, w => .ofBool (I.equal v w)

/-- Membership of a value in a list: it equals one of the values there. -/
def member (v : Value) : List Value → Truth
  | [] => .fails
  | w :: rest => (I.equals v w).or (member v rest)

/-- Membership of a value in a list, or its negation. -/
def membership (negated : Bool) (v : Value) (values : List Value) : Truth :=
  if negated then (I.member v values).not else I.member v values

theorem member_append (v : Value) (values values' : List Value) :
    I.member v (values ++ values') = (I.member v values).or (I.member v values') := by
  induction values with
  | nil => exact (Truth.fails_or _).symm
  | cons w values ih => rw [List.cons_append, member, ih, member, Truth.or_assoc]

/-- A value is in a list where it is in one of two parts, and not in it where it is in neither. -/
theorem membership_append (negated : Bool) (v : Value) (values values' : List Value) :
    I.membership negated v (values ++ values') =
      .connect (splitOp negated) (I.membership negated v values)
        (I.membership negated v values') := by
  cases negated with
  | false => exact I.member_append v values values'
  | true => exact (congrArg Truth.not (I.member_append v values values')).trans (Truth.not_or _ _)

end Interpretation

namespace Phrase

variable (I : Interpretation)

/-- The value of a phrase: a placeholder stands for the value that is bound to it. -/
def value : Phrase → Value
  | leaf (.param (.value v)) => v
  | a => I.value a

/-- The values of a list between commas. -/
def listValues (contents : List Phrase) : List Value :=
  (contents.filter fun a => !a.isMark).map (value I)

/-- What a condition comes to. -/
def truth : Phrase → Truth
  | leaf (.keyword .trueWord) => .holds
  | leaf (.keyword .falseWord) => .fails
  | leaf (.keyword .nullWord) => .unknown
  | bracketed none [a] => a.truth
  | negation a => a.truth.not
  | operation (.logical op) a b => .connect op a.truth b.truth
  | operation (.member negated) a (bracketed none contents) =>
    I.membership negated (a.value I) (listValues I contents)
  | a => I.truth a

/-- The test of an operand against a list of values. -/
def memberTest (negated : Bool) (operand : Phrase) (values : List Value) : Phrase :=
  operation (.member negated) operand
    (bracketed none (listed (values.map fun v => [leaf (.param (.value v))])))

/-- The tests of operands against the pieces of a list, in parentheses where there are several. -/
def memberTests (negated : Bool) (pieces : List (Phrase × List Value)) : Phrase :=
  grouped (decide (1 < pieces.length)) (chained (.logical (splitOp negated))
    (pieces.map fun piece => memberTest negated piece.1 piece.2))

theorem listValues_listed (values : List Value) :
    listValues I (listed (values.map fun v => [leaf (.param (.value v))])) = values := by
  unfold listed
  induction values with
  | nil => rfl
  | cons v values ih =>
      cases values with
      | nil => rfl
      | cons w values =>
          rw [List.map_cons, List.map_cons, List.intercalate_cons_cons]
          exact congrArg (v :: ·) ih

theorem truth_memberTest (negated : Bool) (a : Phrase) (values : List Value) :
    (memberTest negated a values).truth I = I.membership negated (a.value I) values := by
  rw [memberTest, truth, listValues_listed]

theorem truth_grouped (needed : Bool) (a : Phrase) : (grouped needed a).truth I = a.truth I := by
  cases needed with
  | false => rfl
  | true => rw [grouped, if_pos rfl, truth]

/-- After a test that is as true as membership in some values, tests against further pieces make a
test that is as true as membership in all of them. -/
theorem truth_foldl_memberTest {negated : Bool} {v : Value} {a : Phrase} {values : List Value}
    (ha : a.truth I = I.membership negated v values) (pieces : List (Phrase × List Value))
    (h : ∀ piece ∈ pieces, piece.1.value I = v) :
    ((pieces.map fun piece => memberTest negated piece.1 piece.2).foldl
        (operation (.logical (splitOp negated))) a).truth I =
      I.membership negated v (values ++ pieces.flatMap (·.2)) := by
  induction pieces generalizing a values with
  | nil => rw [List.map_nil, List.foldl_nil, List.flatMap_nil, List.append_nil, ha]
  | cons piece pieces ih =>
      obtain ⟨hpiece, hpieces⟩ := List.forall_mem_cons.mp h
      have hboth : (operation (.logical (splitOp negated)) a
          (memberTest negated piece.1 piece.2)).truth I =
            I.membership negated v (values ++ piece.2) := by
        rw [truth, ha, truth_memberTest, hpiece, I.membership_append]
      rw [List.map_cons, List.foldl_cons, ih hboth hpieces, List.flatMap_cons, List.append_assoc]

/-- Where the operands of all pieces have one value, their tests together are as true as the
membership of this value in the whole list. -/
theorem truth_memberTests {negated : Bool} {v : Value} {pieces : List (Phrase × List Value)}
    (hne : pieces ≠ []) (h : ∀ piece ∈ pieces, piece.1.value I = v) :
    (memberTests negated pieces).truth I = I.membership negated v (pieces.flatMap (·.2)) := by
  obtain ⟨piece, rest, rfl⟩ := List.exists_cons_of_ne_nil hne
  obtain ⟨hpiece, hrest⟩ := List.forall_mem_cons.mp h
  have hfirst : (memberTest negated piece.1 piece.2).truth I =
      I.membership negated v piece.2 := by
    rw [truth_memberTest, hpiece]
  rw [memberTests, truth_grouped, List.map_cons]
  exact truth_foldl_memberTest I hfirst rest hrest

end Phrase

end RecordStore
