import RecordStore.Proofs.Sql.Grammar

/-! # What the grammar reads

`ReadsAs depth p ts e` says that terminals are read as an expression by the parser of a precedence,
whatever follows, unless what follows continues an expression of that precedence (`Stops`).  It goes
over to every looser precedence (`ReadsAs.looser`) and holds of atoms in parentheses, so that one
lemma for each production remains. -/

namespace RecordStore

/-! ### What may follow -/

/-- The precedence of an expression that goes on with this terminal. -/
def Terminal.precedence? : Terminal → Option Precedence
  | keyword .orWord => some .disjunction
  | keyword .andWord => some .conjunction
  | keyword .notWord | keyword .inWord | keyword .isWord | keyword .likeWord => some .comparison
  | operator op => some op.precedence
  | _ => none

/-- These terminals do not continue an expression of the precedence. -/
def Stops (p : Precedence) (s : List Terminal) : Prop :=
  ∀ t ∈ s.head?, ∀ q, t.precedence? = some q → q < p

namespace Stops

variable {p p' : Precedence} {t : Terminal} {s : List Terminal}

theorem nil : Stops p [] := fun _ h => by cases h

theorem cons (h : ∀ q, t.precedence? = some q → q < p) : Stops p (t :: s) := by
  intro t' ht'
  cases ht'
  exact h

theorem of_none (h : t.precedence? = none) : Stops p (t :: s) :=
  cons fun q hq => by
    rw [h] at hq
    cases hq

theorem of_lt {q : Precedence} (h : t.precedence? = some q) (hlt : q < p) : Stops p (t :: s) :=
  cons fun q' hq' => by
    rw [h] at hq'
    cases hq'
    exact hlt

theorem mono (h : Stops p s) (hle : p ≤ p') : Stops p' s :=
  fun t ht q hq => Nat.lt_of_lt_of_le (h t ht q hq) hle

/-- What stops an expression does not begin with an operator of its precedence. -/
theorem precedence_ne (h : Stops p (t :: s)) : t.precedence? ≠ some p :=
  fun hp => Nat.lt_irrefl p (h t rfl p hp)

end Stops

/-- The terminals of an operator. -/
def BinaryOp.terminals : BinaryOp → List Terminal
  | like => [.keyword .likeWord]
  | notLike => [.keyword .notWord, .keyword .likeWord]
  | op => [.operator op]

namespace Grammar

/-! ### Combined parsers -/

section

variable {α β : Type} {item : Parser α} {t : Terminal} {s rest : List Terminal}

theorem expect_self (t : Terminal) (s : List Terminal) : expect t (t :: s) = some ((), s) :=
  if_pos rfl

theorem next_self (t : Terminal) (item : Parser α) (s : List Terminal) :
    next t item (t :: s) = item s := by
  unfold next
  rw [expect_self]
  rfl

theorem next_eq_none (h : rest.head? ≠ some t) : next t item rest = none := by
  unfold next
  cases rest with
  | nil => rfl
  | cons t' rest =>
      have hne : t' ≠ t := fun heq => h (congrArg some heq)
      rw [expect, if_neg hne]
      rfl

/-- Items one after the other, when nothing that follows is an item. -/
theorem repeated_eq {P : List Terminal → Prop} {print : β → List Terminal} {value : β → α}
    (hrest : P rest) (hstop : item rest = none) (bs : List β)
    (hitem : ∀ b ∈ bs, ∀ s, P s → item (print b ++ s) = some (value b, s))
    (hprint : ∀ b ∈ bs, ∀ s, P (print b ++ s)) (n : Nat) (hn : bs.length ≤ n) :
    repeated item n (bs.flatMap print ++ rest) = (bs.map value, rest) := by
  induction bs generalizing n with
  | nil =>
      cases n with
      | zero => rfl
      | succ n =>
          rw [List.flatMap_nil, List.nil_append, repeated, hstop]
          rfl
  | cons b bs ih =>
      cases n with
      | zero => cases hn
      | succ n =>
          have hafter : P (bs.flatMap print ++ rest) := by
            cases bs with
            | nil => exact hrest
            | cons b' bs =>
                rw [List.flatMap_cons, List.append_assoc]
                exact hprint b' (List.mem_cons_of_mem _ List.mem_cons_self) _
          rw [List.flatMap_cons, List.append_assoc, repeated,
            hitem b List.mem_cons_self _ hafter]
          dsimp only
          rw [ih (fun b' hb' => hitem b' (List.mem_cons_of_mem _ hb'))
            (fun b' hb' => hprint b' (List.mem_cons_of_mem _ hb')) n (Nat.le_of_succ_le_succ hn)]
          rfl

theorem length_le_flatMap_cons (t : Terminal) (print : β → List Terminal) (bs : List β) :
    bs.length ≤ (bs.flatMap fun b => t :: print b).length := by
  induction bs with
  | nil => exact Nat.le_refl 0
  | cons b bs ih =>
      rw [List.flatMap_cons, List.length_append, List.length_cons, List.length_cons]
      omega

/-- Items with separators between them. -/
theorem separated_eq {P : List Terminal → Prop} {print : β → List Terminal} {value : β → α}
    (hrest : P rest) (hne : rest.head? ≠ some t) (hseparator : ∀ s, P (t :: s)) (b : β)
    (bs : List β) (hitem : ∀ b' ∈ b :: bs, ∀ s, P s → item (print b' ++ s) = some (value b', s)) :
    separated t item (print b ++ ((bs.flatMap fun b' => t :: print b') ++ rest)) =
      some (value b :: bs.map value, rest) := by
  have hafter : P ((bs.flatMap fun b' => t :: print b') ++ rest) := by
    cases bs with
    | nil => exact hrest
    | cons b' bs => exact hseparator _
  have hlength : bs.length ≤ ((bs.flatMap fun b' => t :: print b') ++ rest).length := by
    rw [List.length_append]
    exact Nat.le_add_right_of_le (length_le_flatMap_cons t print bs)
  unfold separated
  rw [hitem b List.mem_cons_self _ hafter]
  dsimp only [Option.bind_eq_bind, Option.bind_some]
  rw [repeated_eq hrest (next_eq_none hne) bs (fun b' hb' s hs => ?_) (fun b' _ s => hseparator _)
    _ hlength]
  rw [List.cons_append, next_self]
  exact hitem b' (List.mem_cons_of_mem _ hb') s hs

variable {operand : Parser α} {step : α → Parser α} {a a' : α}

theorem chain_of_stop (hoperand : operand s = some (a, rest)) (hstop : step a rest = none) :
    chain operand step s = some (a, rest) := by
  unfold chain
  rw [hoperand]
  dsimp only [Option.bind_eq_bind, Option.bind_some]
  cases rest with
  | nil => rfl
  | cons t rest =>
      rw [List.length_cons, extend, hstop]

theorem chain_of_step {s' : List Terminal} (hoperand : operand s = some (a, t :: s'))
    (hstep : step a (t :: s') = some (a', rest)) (hstop : step a' rest = none) :
    chain operand step s = some (a', rest) := by
  unfold chain
  rw [hoperand]
  dsimp only [Option.bind_eq_bind, Option.bind_some]
  rw [List.length_cons, extend, hstep]
  dsimp only
  cases s'.length with
  | zero => rfl
  | succ n => rw [extend, hstop]

end

/-! ### Operators that do not follow -/

section

variable {p : Precedence} {s : List Terminal} {operand inner : Parser Expr} {left : Expr}

theorem symbolic_eq_none (h : Stops p s) : symbolic p s = none := by
  cases s with
  | nil => rfl
  | cons t s =>
      cases t with
      | operator op =>
          have hne := h.precedence_ne
          rw [symbolic, if_neg fun hp => hne (congrArg some hp)]
      | keyword | name | opening | closing | comma | dot | identifier | literal | param | other =>
          rfl

theorem applied_eq_some {op : BinaryOp} {operator : Parser BinaryOp} {right : Expr}
    {s' rest : List Terminal} (hoperator : operator s = some (op, s'))
    (hright : operand s' = some (right, rest)) :
    applied operator operand left s = some (.binary op left right, rest) := by
  unfold applied
  rw [hoperator]
  dsimp only [Option.bind_eq_bind, Option.bind_some]
  rw [hright]
  rfl

theorem applied_eq_none {operator : Parser BinaryOp} (h : operator s = none) :
    applied operator operand left s = none := by
  unfold applied
  rw [h]
  rfl

theorem tested_eq_none (h : Stops .comparison s) : tested inner operand left s = none := by
  cases s with
  | nil => rfl
  | cons t s =>
      cases t with
      | operator op => exact applied_eq_none (symbolic_eq_none h)
      | keyword k =>
          cases k with
          | isWord | inWord | notWord | likeWord => exact absurd rfl h.precedence_ne
          | andWord | orWord | nullWord | trueWord | falseWord | caseWord | whenWord | thenWord
          | elseWord | endWord => rfl
      | name | opening | closing | comma | dot | identifier | literal | param | other => rfl

end

/-! ### From one precedence to the next -/

section

variable {r : RecordType} {qualifier : Option Alias} {inner : Parser Expr} {s rest : List Terminal}
  {e : Expr}

/-- One operand is no connective. -/
theorem connecting_of_operand {op : LogicalOp} {operand : Parser Expr}
    (h : operand s = some (e, rest)) (hstop : Stops op.precedence rest) :
    connecting op operand s = some (e, rest) := by
  have hne : rest.head? ≠ some (connective op) := by
    intro hhead
    have hlt := hstop _ hhead op.precedence (by cases op <;> rfl)
    exact Nat.lt_irrefl _ hlt
  have hnone : repeated (next (connective op) operand) rest.length rest = ([], rest) := by
    cases rest with
    | nil => rfl
    | cons t rest => rw [List.length_cons, repeated, next_eq_none hne]
  unfold connecting separated
  rw [h]
  dsimp only [Option.bind_eq_bind, Option.bind_some]
  rw [hnone]
  rfl

theorem predicate_notWord : predicate r qualifier inner (.keyword .notWord :: s) = none := rfl

theorem negation_of_predicate (h : predicate r qualifier inner s = some (e, rest)) :
    negation r qualifier inner s = some (e, rest) := by
  unfold negation
  split
  · rw [predicate_notWord] at h
    cases h
  · exact h

/-- What is read at one precedence is read at the next looser one. -/
theorem level_of_succ {p : Precedence} (hp : p < 6)
    (h : level r qualifier inner (p + 1) s = some (e, rest)) (hstop : Stops p rest) :
    level r qualifier inner p s = some (e, rest) := by
  match p, hp with
  | 0, _ => exact connecting_of_operand h hstop
  | 1, _ => exact connecting_of_operand h hstop
  | 2, _ => exact negation_of_predicate h
  | 3, _ => exact chain_of_stop h (tested_eq_none hstop)
  | 4, _ => exact chain_of_stop h (applied_eq_none (symbolic_eq_none hstop))
  | 5, _ => exact chain_of_stop h (applied_eq_none (symbolic_eq_none hstop))

theorem level_looser {p p' : Precedence} (hle : p ≤ p') (hp' : p' ≤ 6)
    (h : level r qualifier inner p' s = some (e, rest)) (hstop : Stops p rest) :
    level r qualifier inner p s = some (e, rest) := by
  induction p' with
  | zero =>
      obtain rfl := Nat.le_zero.mp hle
      exact h
  | succ p' ih =>
      rcases Nat.lt_or_eq_of_le hle with hlt | rfl
      · have hp : p ≤ p' := Nat.le_of_lt_succ hlt
        exact ih hp (Nat.le_of_succ_le hp') (level_of_succ hp' h (hstop.mono hp))
      · exact h

end

/-! ### Productions -/

/-- The terminals are read as the expression at a precedence, whatever follows. -/
def ReadsAs (r : RecordType) (qualifier : Option Alias) (depth : Nat) (p : Precedence)
    (ts : List Terminal) (e : Expr) : Prop :=
  ∀ s, Stops p s → level r qualifier (nested r qualifier depth) p (ts ++ s) = some (e, s)

namespace ReadsAs

variable {r : RecordType} {qualifier : Option Alias} {depth : Nat} {p p' : Precedence}
  {ts ts' : List Terminal} {e e' : Expr}

theorem looser (h : ReadsAs r qualifier depth p' ts e) (hle : p ≤ p') (hp' : p' ≤ 6) :
    ReadsAs r qualifier depth p ts e :=
  fun s hs => level_looser hle hp' (h s (hs.mono hle)) hs

theorem parenthesized (h : ReadsAs r qualifier depth .disjunction ts e) :
    ReadsAs r qualifier (depth + 1) .atom (.opening :: (ts ++ [.closing])) e := by
  intro s _
  rw [List.cons_append, List.append_assoc, List.singleton_append]
  have hinner : nested r qualifier (depth + 1) (ts ++ .closing :: s) = some (e, .closing :: s) :=
    h _ (.of_none rfl)
  change atom r qualifier (nested r qualifier (depth + 1)) (.opening :: _) = _
  rw [atom, hinner]
  rfl

theorem binary (op : BinaryOp) (hleft : ReadsAs r qualifier depth .atom ts e)
    (hright : ReadsAs r qualifier depth .atom ts' e') :
    ReadsAs r qualifier depth op.precedence (ts ++ (op.terminals ++ ts')) (.binary op e e') := by
  intro s hs
  have hl := hleft.looser op.precedence_lt_atom (Nat.le_refl 6) (op.terminals ++ (ts' ++ s))
    (by cases op <;> exact .of_lt rfl (by decide))
  have hr := hright.looser op.precedence_lt_atom (Nat.le_refl 6) s (hs.mono (Nat.le_succ _))
  rw [List.append_assoc, List.append_assoc]
  cases op with
  | mul | div | mod | add | sub | concat =>
      exact chain_of_step hl (applied_eq_some rfl hr) (applied_eq_none (symbolic_eq_none hs))
  | eq | ne | lt | le | gt | ge | like | notLike =>
      exact chain_of_step hl (applied_eq_some rfl hr) (tested_eq_none hs)

theorem not (h : ReadsAs r qualifier depth .atom ts e) :
    ReadsAs r qualifier depth .negation (.keyword .notWord :: ts) (.not e) := by
  intro s hs
  have hoperand : negation r qualifier (nested r qualifier depth) (ts ++ s) = some (e, s) :=
    h.looser (by decide) (Nat.le_refl 6) s hs
  change negation r qualifier (nested r qualifier depth) (.keyword .notWord :: (ts ++ s)) = _
  rw [negation, hoperand]
  rfl

/-- The words of a test for null. -/
def nullTest (negated : Bool) : List Terminal :=
  if negated then [.keyword .isWord, .keyword .notWord, .keyword .nullWord]
  else [.keyword .isWord, .keyword .nullWord]

theorem isNull (negated : Bool) (h : ReadsAs r qualifier depth .atom ts e) :
    ReadsAs r qualifier depth .comparison (ts ++ nullTest negated) (.isNull negated e) := by
  intro s hs
  have hoperand := h.looser (p := .addition) (by decide) (Nat.le_refl 6) (nullTest negated ++ s)
    (by cases negated <;> exact .of_lt rfl (by decide))
  rw [List.append_assoc]
  cases negated with
  | false => exact chain_of_step hoperand rfl (tested_eq_none hs)
  | true => exact chain_of_step hoperand rfl (tested_eq_none hs)

section

variable {print : Expr → List Terminal} {value : Expr → Expr} {first : Expr} {rest : List Expr}

/-- Several operands of a connective, each of which binds its own operands more tightly. -/
theorem logical (op : LogicalOp) (hne : rest ≠ [])
    (h : ∀ e ∈ first :: rest,
      ReadsAs r qualifier depth (op.precedence + 1) (print e) (value e)) :
    ReadsAs r qualifier depth op.precedence
      (print first ++ rest.flatMap fun e => connective op :: print e)
      (.logical op (value first :: rest.map value)) := by
  intro s hs
  have hoperands : separated (connective op)
      (level r qualifier (nested r qualifier depth) (op.precedence + 1))
      (print first ++ ((rest.flatMap fun e => connective op :: print e) ++ s)) =
        some (value first :: rest.map value, s) := by
    have hconnective : (connective op).precedence? = some op.precedence := by cases op <;> rfl
    refine separated_eq (P := Stops (op.precedence + 1)) (hs.mono (Nat.le_succ _)) ?_ ?_ first rest
      fun e he s hs => h e he s hs
    · intro hhead
      exact Nat.lt_irrefl _ (hs _ hhead _ hconnective)
    · exact fun s => .of_lt hconnective (Nat.lt_succ_self _)
  have hlevel : level r qualifier (nested r qualifier depth) op.precedence =
      connecting op (level r qualifier (nested r qualifier depth) (op.precedence + 1)) := by
    cases op <;> rfl
  rw [hlevel, List.append_assoc, connecting, hoperands]
  cases rest with
  | nil => exact absurd rfl hne
  | cons second rest => rfl

/-- Expressions with commas between them, before a closing parenthesis. -/
theorem items (h : ∀ e ∈ first :: rest, ReadsAs r qualifier depth .disjunction (print e) (value e))
    (s : List Terminal) :
    separated .comma (nested r qualifier (depth + 1))
      (print first ++ ((rest.flatMap fun e => .comma :: print e) ++ .closing :: s)) =
        some (value first :: rest.map value, .closing :: s) :=
  separated_eq (P := Stops .disjunction) (.of_none rfl) (by simp) (fun _ => .of_none rfl) first rest
    fun e he s hs => h e he s hs

/-- The words of a membership test. -/
def membershipTest (negated : Bool) : List Terminal :=
  if negated then [.keyword .notWord, .keyword .inWord] else [.keyword .inWord]

theorem inExprs (negated : Bool) (hleft : ReadsAs r qualifier (depth + 1) .atom ts e)
    (h : ∀ e ∈ first :: rest, ReadsAs r qualifier depth .disjunction (print e) (value e)) :
    ReadsAs r qualifier (depth + 1) .comparison
      (ts ++ (membershipTest negated ++ .opening ::
        (print first ++ ((rest.flatMap fun e => .comma :: print e) ++ [.closing]))))
      (.inExprs negated e (value first :: rest.map value)) := by
  intro s hs
  have hoperand := hleft.looser (p := .addition) (by decide) (Nat.le_refl 6)
    (membershipTest negated ++ .opening ::
        (print first ++ ((rest.flatMap fun e => .comma :: print e) ++ .closing :: s)))
    (by cases negated <;> exact .of_lt rfl (by decide))
  have hlist : membership (nested r qualifier (depth + 1)) negated e
      (print first ++ ((rest.flatMap fun e => .comma :: print e) ++ .closing :: s)) =
        some (.inExprs negated e (value first :: rest.map value), s) := by
    unfold membership
    rw [items h s]
    rfl
  simp only [List.append_assoc, List.cons_append, List.nil_append]
  cases negated with
  | false => exact chain_of_step hoperand hlist (tested_eq_none hs)
  | true => exact chain_of_step hoperand hlist (tested_eq_none hs)

theorem nested_closing (s : List Terminal) : nested r qualifier depth (.closing :: s) = none := by
  cases depth <;> rfl

theorem call (function : String)
    (h : ∀ e ∈ first :: rest, ReadsAs r qualifier depth .disjunction (print e) (value e)) :
    ReadsAs r qualifier (depth + 1) .atom
      (.name function :: .opening ::
        (print first ++ ((rest.flatMap fun e => .comma :: print e) ++ [.closing])))
      (.call function (value first :: rest.map value)) := by
  intro s _
  have hitems := items h s
  have harguments : arguments (nested r qualifier (depth + 1))
      (print first ++ ((rest.flatMap fun e => .comma :: print e) ++ .closing :: s)) =
        some (value first :: rest.map value, s) := by
    unfold arguments
    split
    · next heq =>
        rw [heq] at hitems
        unfold separated at hitems
        rw [nested_closing] at hitems
        cases hitems
    · rw [hitems]
      rfl
  simp only [List.append_assoc, List.cons_append, List.nil_append]
  change atom r qualifier (nested r qualifier (depth + 1)) (.name function :: .opening :: _) = _
  rw [atom, harguments]
  rfl

end

theorem call_nil (function : String) :
    ReadsAs r qualifier depth .atom [.name function, .opening, .closing] (.call function []) :=
  fun _ _ => rfl

section

variable {print : Expr → List Terminal} {value : Expr → Expr} {operand otherwise : Option Expr}
  {first : Expr × Expr} {rest : List (Expr × Expr)}

/-- A branch of a case distinction in terminals. -/
def branchTerminals (print : Expr → List Terminal) (b : Expr × Expr) : List Terminal :=
  .keyword .whenWord :: (print b.1 ++ .keyword .thenWord :: print b.2)

theorem length_branchTerminals (print : Expr → List Terminal) (b : Expr × Expr) :
    (branchTerminals print b).length = (print b.1).length + (print b.2).length + 2 := by
  simp only [branchTerminals, List.length_cons, List.length_append]
  omega

/-- The rest of a case distinction after its branches. -/
def otherwiseTerminals (print : Expr → List Terminal) : Option Expr → List Terminal
  | none => [.keyword .endWord]
  | some e => .keyword .elseWord :: (print e ++ [.keyword .endWord])

theorem branch_eq {b : Expr × Expr}
    (hcondition : ReadsAs r qualifier depth .disjunction (print b.1) (value b.1))
    (hresult : ReadsAs r qualifier depth .disjunction (print b.2) (value b.2))
    {s : List Terminal} (hs : Stops .disjunction s) :
    branch (nested r qualifier (depth + 1)) (branchTerminals print b ++ s) =
      some ((value b.1, value b.2), s) := by
  have hfirst : nested r qualifier (depth + 1)
      (print b.1 ++ .keyword .thenWord :: (print b.2 ++ s)) =
        some (value b.1, .keyword .thenWord :: (print b.2 ++ s)) :=
    hcondition _ (.of_none rfl)
  have hsecond : nested r qualifier (depth + 1) (print b.2 ++ s) = some (value b.2, s) :=
    hresult s hs
  unfold branch branchTerminals
  rw [List.cons_append, List.append_assoc, List.cons_append, next_self, hfirst]
  dsimp only [Option.bind_eq_bind, Option.bind_some]
  rw [next_self, hsecond]
  rfl

theorem nested_whenWord (s : List Terminal) :
    nested r qualifier depth (.keyword .whenWord :: s) = none := by
  cases depth <;> rfl

theorem caseOperand_eq
    (h : ∀ e ∈ operand, ReadsAs r qualifier depth .disjunction (print e) (value e))
    (s : List Terminal) :
    caseOperand (nested r qualifier (depth + 1))
      ((operand.map print).getD [] ++ .keyword .whenWord :: s) =
        some (operand.map value, .keyword .whenWord :: s) := by
  cases operand with
  | none => rfl
  | some e =>
      have he : nested r qualifier (depth + 1) (print e ++ .keyword .whenWord :: s) =
          some (value e, .keyword .whenWord :: s) := h e rfl _ (.of_none rfl)
      unfold caseOperand
      dsimp only [Option.map_some, Option.getD_some]
      split
      · next heq =>
          rw [heq, nested_whenWord] at he
          cases he
      · rw [he]
        rfl

theorem caseOtherwise_eq
    (h : ∀ e ∈ otherwise, ReadsAs r qualifier depth .disjunction (print e) (value e))
    (s : List Terminal) :
    caseOtherwise (nested r qualifier (depth + 1)) (otherwiseTerminals print otherwise ++ s) =
      some (otherwise.map value, .keyword .endWord :: s) := by
  cases otherwise with
  | none => rfl
  | some e =>
      have he : nested r qualifier (depth + 1) (print e ++ .keyword .endWord :: s) =
          some (value e, .keyword .endWord :: s) := h e rfl _ (.of_none rfl)
      unfold otherwiseTerminals
      rw [List.cons_append, List.append_assoc, List.singleton_append, caseOtherwise, he]
      rfl

/-- A case distinction goes on with a keyword after each branch. -/
theorem stops_branches (print : Expr → List Terminal) (branches : List (Expr × Expr))
    (otherwise : Option Expr) (s : List Terminal) :
    Stops .disjunction
      (branches.flatMap (branchTerminals print) ++ (otherwiseTerminals print otherwise ++ s)) := by
  cases branches with
  | nil => cases otherwise <;> exact .of_none rfl
  | cons b branches => exact .of_none rfl

/-- The branches after the first one. -/
theorem branches_eq (h : ∀ b ∈ rest,
      ReadsAs r qualifier depth .disjunction (print b.1) (value b.1) ∧
        ReadsAs r qualifier depth .disjunction (print b.2) (value b.2))
    (otherwise : Option Expr) (s : List Terminal) :
    repeated (branch (nested r qualifier (depth + 1)))
      (rest.flatMap (branchTerminals print) ++ (otherwiseTerminals print otherwise ++ s)).length
      (rest.flatMap (branchTerminals print) ++ (otherwiseTerminals print otherwise ++ s)) =
        (rest.map fun b => (value b.1, value b.2), otherwiseTerminals print otherwise ++ s) := by
  have hstops : Stops .disjunction (otherwiseTerminals print otherwise ++ s) :=
    stops_branches print [] otherwise s
  have hnone : branch (nested r qualifier (depth + 1)) (otherwiseTerminals print otherwise ++ s) =
      none := by
    cases otherwise <;> rfl
  refine repeated_eq hstops hnone rest (fun b hb s hs => branch_eq (h b hb).1 (h b hb).2 hs)
    (fun b _ s => .of_none rfl) _ ?_
  rw [List.length_append]
  exact Nat.le_add_right_of_le (length_le_flatMap_cons _ _ rest)

theorem caseWhen
    (hoperand : ∀ e ∈ operand, ReadsAs r qualifier depth .disjunction (print e) (value e))
    (hbranches : ∀ b ∈ first :: rest,
      ReadsAs r qualifier depth .disjunction (print b.1) (value b.1) ∧
        ReadsAs r qualifier depth .disjunction (print b.2) (value b.2))
    (hotherwise : ∀ e ∈ otherwise, ReadsAs r qualifier depth .disjunction (print e) (value e)) :
    ReadsAs r qualifier (depth + 1) .atom
      (.keyword .caseWord :: ((operand.map print).getD [] ++
        ((first :: rest).flatMap (branchTerminals print) ++ otherwiseTerminals print otherwise)))
      (.caseWhen (operand.map value) ((first :: rest).map fun b => (value b.1, value b.2))
        (otherwise.map value)) := by
  intro s _
  obtain ⟨hcondition, hresult⟩ := hbranches first List.mem_cons_self
  have hfirst := branch_eq hcondition hresult (stops_branches print rest otherwise s)
  have hmore := branches_eq (fun b hb => hbranches b (List.mem_cons_of_mem first hb)) otherwise s
  have hcase : caseOperand (nested r qualifier (depth + 1)) ((operand.map print).getD [] ++
      (branchTerminals print first ++ (rest.flatMap (branchTerminals print) ++
        (otherwiseTerminals print otherwise ++ s)))) =
      some (operand.map value, branchTerminals print first ++
        (rest.flatMap (branchTerminals print) ++ (otherwiseTerminals print otherwise ++ s))) :=
    caseOperand_eq hoperand _
  simp only [List.append_assoc, List.cons_append, List.flatMap_cons]
  change atom r qualifier (nested r qualifier (depth + 1)) (.keyword .caseWord :: _) = _
  rw [atom, distinction, hcase]
  dsimp only [Option.bind_eq_bind, Option.bind_some]
  rw [hfirst]
  dsimp only [Option.bind_some]
  rw [hmore]
  dsimp only
  rw [caseOtherwise_eq hotherwise]
  rfl

end

end ReadsAs

end Grammar

end RecordStore
