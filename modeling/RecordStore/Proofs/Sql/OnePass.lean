import RecordStore.Compiler.OnePass
import RecordStore.Proofs.Sql.Membership
import RecordStore.Proofs.Sql.Traversal

/-! # One pass over a statement

What one pass adds for an expression or a query is the text of what resolves, and it fails where
resolving fails, with the same error and the same aliases taken (`OnePass.exprWith_follows`,
`OnePass.selectWith_follows`).  Whichever way a step ends, the scopes and the switch for overrides
are as before, and text and aliases have only been added (`OnePass.Extends`).

Both are said at once by `OnePass.Follows`, for a step in given circumstances.  It is closed under
the ways of putting steps together, so that the error paths of each of them are looked at once:
where a scope is popped after a step (`Follows.inScope`), where overrides are switched on again
(`Follows.withoutOverrides`), and where a second step is left out (`Follows.bind`). -/

namespace RecordStore

open Lexeme

/-! ### Printing in pieces -/

theorem intercalate_cons {α : Type} (sep a : List α) (as : List (List α)) :
    sep.intercalate (a :: as) = a ++ as.flatMap (sep ++ ·) := by
  induction as generalizing a with
  | nil => rw [List.intercalate_singleton, List.flatMap_nil, List.append_nil]
  | cons b as ih =>
      rw [List.intercalate_cons_cons, ih, List.flatMap_cons, List.append_assoc, List.append_assoc]

theorem searchDocument_eq : searchDocument = fun columns =>
    word "to_tsvector" :: symbol "(" :: word "concat_ws" :: symbol "(" :: textLiteral " " ::
      columns.flatMap ([symbol ",", space] ++ ·) ++ [symbol ")", symbol ")"] := by
  funext columns
  simp [searchDocument, application, parenthesized, commaSeparated, intercalate_cons]

theorem containsScore_eq (query : String) : containsScore query = fun column =>
    words ["CASE", "WHEN"] ++ space :: containsTest query column ++
      [space, word "THEN", space, literal (.integer 1), space, word "ELSE", space,
        literal (.integer 0), space, word "END"] := by
  funext column
  simp [containsScore]

theorem containsTest_eq (query : String) :
    containsTest query = fun column => column ++ containsTest query [] := rfl

theorem TemporalOp.lexemes_eq (dialect : Dialect) (operand : List Lexeme) (op : TemporalOp) :
    op.lexemes dialect operand = op.opening dialect ++ operand ++ op.closing dialect := by
  cases op <;> cases dialect <;>
    simp [lexemes, opening, closing, formattedNumber, extracted, application, parenthesized,
      commaSeparated, List.intercalate_cons_cons, words]

theorem optionalClause_eq (keywords : List String) (content? : Option (List Lexeme)) :
    optionalClause keywords content? =
      (content?.map (clause keywords [] ++ ·)).getD [] := by
  cases content? <;> simp [optionalClause, clause]

/-- A query in print, from left to right. -/
theorem queryLexemes_eq (dialect : Dialect) (counted distinct locking : Bool)
    (output : Option (List (List Lexeme))) (sources : List Lexeme) (filter : Option (List Lexeme))
    (grouping ordering : Option (List (List Lexeme))) (limit : Option Window) :
    queryLexemes dialect counted distinct locking output sources filter grouping ordering limit =
      (if counted then
        word "SELECT" :: space :: OnePass.countAll ++ [space, word "FROM", space, symbol "("]
        else []) ++
      (word "SELECT" :: space :: (if distinct then [word "DISTINCT", space] else [])) ++
      (output.map commaSeparated).getD OnePass.countAll ++ sources ++
      optionalClause ["WHERE"] filter ++
      optionalClause ["GROUP", "BY"] (grouping.map commaSeparated) ++
      optionalClause ["ORDER", "BY"] (ordering.map commaSeparated) ++
      (limit.map Window.lexemes).getD [] ++
      (if locking && dialect.locksRows then space :: words ["FOR", "UPDATE"] else []) ++
      (if counted then [symbol ")", space, word "sub"] else []) := by
  cases counted <;> cases output <;> simp [queryLexemes, OnePass.countAll, parenthesized]

/-! ### What a step leaves -/

/-- The second compilation is the first one with more text; aliases may have been taken. -/
structure Compiler.Extends (c c' : Compiler) : Prop where
  dialect : c'.dialect = c.dialect
  scopes : c'.scopes = c.scopes
  overriding : c'.overriding = c.overriding
  tokens : c.tokens <+: c'.tokens
  nextAlias : c.nextAlias ≤ c'.nextAlias

namespace OnePass

/-- Scopes may have been opened and closed again.  Their aliases are those that have been taken,
each of them once. -/
structure Extends (c c' : OnePass) : Prop extends Compiler.Extends c.toCompiler c'.toCompiler where
  opened : c.opened <+: c'.opened
  aliases : c'.aliases = c.aliases ++ List.range' c.nextAlias (c'.nextAlias - c.nextAlias)

namespace Extends

variable {c c' c'' : OnePass}

theorem refl (c : OnePass) : Extends c c where
  dialect := rfl
  scopes := rfl
  overriding := rfl
  tokens := List.prefix_rfl
  opened := List.prefix_rfl
  nextAlias := Nat.le_refl _
  aliases := by rw [Nat.sub_self, List.range'_zero, List.append_nil]

theorem range'_append_range' {n m k : Nat} (h : n ≤ m) (h' : m ≤ k) :
    List.range' n (m - n) ++ List.range' m (k - m) = List.range' n (k - n) := by
  have happend := List.range'_append_1 (s := n) (m := m - n) (n := k - m)
  rwa [Nat.add_sub_cancel' h, show m - n + (k - m) = k - n by omega] at happend

theorem trans (h : Extends c c') (h' : Extends c' c'') : Extends c c'' where
  dialect := h'.dialect.trans h.dialect
  scopes := h'.scopes.trans h.scopes
  overriding := h'.overriding.trans h.overriding
  tokens := h.tokens.trans h'.tokens
  opened := h.opened.trans h'.opened
  nextAlias := Nat.le_trans h.nextAlias h'.nextAlias
  aliases := by
    rw [h'.aliases, h.aliases, List.append_assoc, range'_append_range' h.nextAlias h'.nextAlias]

end Extends

/-- How a step ends in a compilation for which this text has been found, or this error. -/
inductive EndsAs (c : OnePass) : EStateM.Result StatementError Alias (List Lexeme) →
    EStateM.Result StatementError OnePass Unit → Prop where
  | ok {ls : List Lexeme} {c' : OnePass} (hextends : Extends c c')
      (htokens : c'.tokens = c.tokens ++ tokensOf c.dialect ls) :
      EndsAs c (.ok ls c'.nextAlias) (.ok () c')
  | error {e : StatementError} {c' : OnePass} (hextends : Extends c c') :
      EndsAs c (.error e c'.nextAlias) (.error e c')

/-- In these circumstances the step adds the text that is found with the aliases that are free. -/
def Follows (dialect : Dialect) (overriding : Bool) (scopes : Scopes) (step : Step Unit)
    (p : Resolve (List Lexeme)) : Prop :=
  ∀ c : OnePass, c.dialect = dialect → c.overriding = overriding → c.scopes = scopes →
    EndsAs c (p c.nextAlias) (step c)

/-- Each step adds what is found for it. -/
inductive FollowsAll (dialect : Dialect) (overriding : Bool) (scopes : Scopes) :
    List (Step Unit) → Resolve (List (List Lexeme)) → Prop where
  | nil : FollowsAll dialect overriding scopes [] (pure [])
  | cons {step : Step Unit} {steps : List (Step Unit)} {p : Resolve (List Lexeme)}
      {ps : Resolve (List (List Lexeme))} (h : Follows dialect overriding scopes step p)
      (hs : FollowsAll dialect overriding scopes steps ps) :
      FollowsAll dialect overriding scopes (step :: steps)
        (do let ls ← p; let rest ← ps; pure (ls :: rest))

variable {dialect : Dialect} {overriding : Bool} {scopes : Scopes}

namespace Follows

variable {step step' : Step Unit} {p p' : Resolve (List Lexeme)} {α : Type}

theorem congr (h : Follows dialect overriding scopes step p) (heq : p = p') :
    Follows dialect overriding scopes step p' := heq ▸ h

theorem pure : Follows dialect overriding scopes (pure ()) (pure []) := fun c _ _ _ =>
  .ok (.refl c) (List.append_nil _).symm

theorem put (ls : List Lexeme) : Follows dialect overriding scopes (put ls) (Pure.pure ls) := by
  intro c _ _ _
  have hextends : Extends c { c with tokens := c.tokens ++ tokensOf c.dialect ls } :=
    { Extends.refl c with tokens := List.prefix_append _ _ }
  exact .ok hextends rfl

theorem throw (e : StatementError) : Follows dialect overriding scopes (throw e) (throw e) :=
  fun c _ _ _ => .error (.refl c)

/-- The text of two steps is that of the first one and then that of the second one. -/
theorem bind (h : Follows dialect overriding scopes step p)
    (h' : Follows dialect overriding scopes step' p') :
    Follows dialect overriding scopes (step >>= fun _ => step')
      (do let ls ← p; let ls' ← p'; Pure.pure (ls ++ ls')) := by
  intro c hdialect hoverriding hscopes
  have hfirst := h c hdialect hoverriding hscopes
  generalize hp : p c.nextAlias = found, hstep : step c = result at hfirst
  cases hfirst with
  | error hextends =>
      rw [bind_of_error hp, bind_of_error hstep]
      exact .error hextends
  | @ok ls c₁ hextends htokens =>
      rw [bind_of_ok hp, bind_of_ok hstep]
      have hsecond := h' c₁ (hextends.dialect.trans hdialect)
        (hextends.overriding.trans hoverriding) (hextends.scopes.trans hscopes)
      generalize hp' : p' c₁.nextAlias = found', hstep' : step' c₁ = result' at hsecond
      cases hsecond with
      | error hextends' =>
          rw [bind_of_error hp']
          exact .error (hextends.trans hextends')
      | ok hextends' htokens' =>
          rw [bind_of_ok hp']
          refine .ok (hextends.trans hextends') ?_
          rw [htokens', htokens, hextends.dialect, List.append_assoc]
          exact congrArg _ List.map_append.symm

/-- A step may depend on its circumstances. -/
theorem get_bind {f : OnePass → Step Unit}
    (h : ∀ c : OnePass, c.dialect = dialect → c.overriding = overriding → c.scopes = scopes →
      Follows dialect overriding scopes (f c) p) :
    Follows dialect overriding scopes (get >>= f) p :=
  fun c hdialect hoverriding hscopes =>
    h c hdialect hoverriding hscopes c hdialect hoverriding hscopes

theorem ofExcept_bind (x : Except StatementError α) {f : α → Step Unit}
    {q : α → Resolve (List Lexeme)} (h : ∀ a, Follows dialect overriding scopes (f a) (q a)) :
    Follows dialect overriding scopes (ofExcept x >>= f) (ofExcept x >>= q) := by
  intro c hdialect hoverriding hscopes
  cases x with
  | ok a => exact h a c hdialect hoverriding hscopes
  | error e => exact .error (.refl c)

/-- The answer to a question takes no alias. -/
theorem ask_bind {r : Resolve α} (hr : Within (fun n n' => n' = n) r) {f : α → Step Unit}
    {q : α → Resolve (List Lexeme)} (h : ∀ a, Follows dialect overriding scopes (f a) (q a)) :
    Follows dialect overriding scopes (ask r >>= f) (r >>= q) := by
  intro c hdialect hoverriding hscopes
  have hsame := hr c.nextAlias
  cases hanswer : r c.nextAlias with
  | ok a next =>
      rw [hanswer] at hsame
      obtain rfl : next = c.nextAlias := hsame
      have hask : ask r c = .ok a c := by rw [ask, hanswer]
      rw [bind_of_ok hanswer, bind_of_ok hask]
      exact h a c hdialect hoverriding hscopes
  | error e next =>
      rw [hanswer] at hsame
      obtain rfl : next = c.nextAlias := hsame
      have hask : ask r c = .error e c := by rw [ask, hanswer]
      rw [bind_of_error hanswer, bind_of_error hask]
      exact .error (.refl c)

/-- What has a fault is refused before the step. -/
theorem refuseIf (faulty : Bool) (f : ClauseFault) (h : Follows dialect overriding scopes step p) :
    Follows dialect overriding scopes (refuseIf faulty f >>= fun _ => step)
      (if faulty then Resolve.fault f else p) := by
  cases faulty with
  | false => exact h
  | true => exact .throw _

/-- A term that takes no alias is added in one step. -/
theorem write {r : OnePass → Resolve Term} {q : Resolve Term}
    (hr : ∀ c : OnePass, c.dialect = dialect → c.scopes = scopes → r c = q)
    (hq : Within (fun n n' => n' = n) q) :
    Follows dialect overriding scopes (write r) (Term.lexemes dialect <$> q) := by
  refine .get_bind fun c hdialect _ hscopes => ?_
  rw [hr c hdialect hscopes, hdialect, map_eq_pure_bind]
  exact .ask_bind hq fun t => .put _

theorem grouping (needed : Bool) (h : Follows dialect overriding scopes step p) :
    Follows dialect overriding scopes (grouping needed step) (grouped needed <$> p) := by
  cases needed with
  | false => exact h.congr (id_map p).symm
  | true =>
      refine ((put _).bind (h.bind (put _))).congr ?_
      have hgrouped : grouped true = fun ls => symbol "(" :: (ls ++ [symbol ")"]) := rfl
      simp [hgrouped]

/-- A scope is popped whether or not the step inside it fails. -/
theorem inScope {scope : Alias → Scope} {body : Alias → Step Unit}
    {q : Alias → Resolve (List Lexeme)}
    (hscope : ∀ a, (scope a).entries.map (·.2) = List.range' a (scope a).entries.length)
    (h : ∀ a, Follows dialect overriding (scope a :: scopes) (body a) (q a)) :
    Follows dialect overriding scopes (inScope scope body)
      (do let a ← get; set (a + (scope a).entries.length); q a) := by
  intro c hdialect hoverriding hscopes
  have hopened : (openScope (scope c.nextAlias) c).aliases =
      c.aliases ++ List.range' c.nextAlias (scope c.nextAlias).entries.length := by
    unfold aliases openScope
    rw [List.flatMap_append, List.flatMap_singleton, hscope]
  have hinside := h c.nextAlias (openScope (scope c.nextAlias) c) hdialect hoverriding
    (congrArg _ hscopes)
  have hclosed {c' : OnePass} (hextends : Extends (openScope (scope c.nextAlias) c) c') :
      Extends c (closeScope c') := by
    have hle : c.nextAlias + (scope c.nextAlias).entries.length ≤ c'.nextAlias :=
      hextends.nextAlias
    refine {
      dialect := hextends.dialect
      scopes := ?scopes
      overriding := hextends.overriding
      tokens := hextends.tokens
      nextAlias := Nat.le_trans (Nat.le_add_right _ _) hle
      opened := (List.prefix_append _ _).trans hextends.opened
      aliases := ?aliases }
    case scopes =>
      -- the body has left this scope on top of those around it
      change c'.scopes.tail = _
      rw [hextends.scopes]
      rfl
    case aliases =>
      change c'.aliases = _
      have happend := Extends.range'_append_range' (Nat.le_add_right c.nextAlias _) hle
      rw [Nat.add_sub_cancel_left] at happend
      rw [hextends.aliases, hopened, List.append_assoc]
      exact congrArg _ happend
  change EndsAs c (q c.nextAlias (c.nextAlias + (scope c.nextAlias).entries.length))
    (afterwards closeScope (body c.nextAlias) (openScope (scope c.nextAlias) c))
  unfold afterwards
  generalize hq : q c.nextAlias (openScope (scope c.nextAlias) c).nextAlias = found,
    hbody : body c.nextAlias (openScope (scope c.nextAlias) c) = result at hinside
  rw [show q c.nextAlias (c.nextAlias + _) = found from hq]
  cases hinside with
  | ok hextends htokens => exact .ok (hclosed hextends) htokens
  | error hextends => exact .error (hclosed hextends)

/-- Overrides are switched on again whether or not the step without them fails.  They are set to
what they were before only if they had been on. -/
theorem withoutOverrides (h : Follows dialect false scopes step p) :
    Follows dialect true scopes (withoutOverrides step) p := by
  intro c hdialect hoverriding hscopes
  have hinside := h { c with overriding := false } hdialect rfl hscopes
  have hrestored {c' : OnePass} (hextends : Extends { c with overriding := false } c') :
      Extends c { c' with overriding := true } :=
    { hextends with overriding := hoverriding.symm }
  change EndsAs c (p c.nextAlias) (afterwards _ step { c with overriding := false })
  unfold afterwards
  change EndsAs _ (p c.nextAlias) _ at hinside
  generalize hp : p c.nextAlias = found,
    hstep : step { c with overriding := false } = result at hinside
  cases hinside with
  | ok hextends htokens => exact .ok (hrestored hextends) htokens
  | error hextends => exact .error (hrestored hextends)

end Follows

namespace FollowsAll

variable {steps : List (Step Unit)} {ps ps' : Resolve (List (List Lexeme))}

theorem congr (h : FollowsAll dialect overriding scopes steps ps) (heq : ps = ps') :
    FollowsAll dialect overriding scopes steps ps' := heq ▸ h

theorem each (separator : List Lexeme) (h : FollowsAll dialect overriding scopes steps ps) :
    Follows dialect overriding scopes (each separator steps)
      ((fun items => items.flatMap (separator ++ ·)) <$> ps) := by
  induction h with
  | nil => exact .pure
  | cons h _ ih =>
      refine ((Follows.put separator).bind (h.bind ih)).congr ?_
      simp

theorem separated (separator : List Lexeme) (h : FollowsAll dialect overriding scopes steps ps) :
    Follows dialect overriding scopes (separated separator steps)
      (separator.intercalate <$> ps) := by
  cases h with
  | nil => exact .pure
  | cons h hs =>
      refine (h.bind (hs.each separator)).congr ?_
      simp [intercalate_cons]

theorem listed (h : FollowsAll dialect overriding scopes steps ps) :
    Follows dialect overriding scopes (listed steps) (commaSeparated <$> ps) :=
  h.separated _

/-- Steps over a list add what is found for each of its elements. -/
theorem map {β γ : Type} {f : β → Step Unit} {q : β → Resolve γ} {bs : List β}
    {one : γ → List Lexeme} {all : List γ → List (List Lexeme)} (hnil : all [] = [])
    (hcons : ∀ b bs, all (b :: bs) = one b :: all bs)
    (h : ∀ b ∈ bs, Follows dialect overriding scopes (f b) (one <$> q b)) :
    FollowsAll dialect overriding scopes (bs.map f) (all <$> bs.mapM q) := by
  induction bs with
  | nil => exact FollowsAll.nil.congr (by simp [hnil])
  | cons b bs ih =>
      obtain ⟨hb, hbs⟩ := List.forall_mem_cons.mp h
      refine (FollowsAll.cons hb (ih hbs)).congr ?_
      simp [hcons]

/-- What each step adds can be changed in the same way. -/
theorem each_map {f : Step Unit → Step Unit} {g : List Lexeme → List Lexeme}
    (hf : ∀ {step p}, Follows dialect overriding scopes step p →
      Follows dialect overriding scopes (f step) (g <$> p))
    (h : FollowsAll dialect overriding scopes steps ps) :
    FollowsAll dialect overriding scopes (steps.map f) (List.map g <$> ps) := by
  induction h with
  | nil => exact .nil
  | cons h _ ih =>
      refine (FollowsAll.cons (hf h) ih).congr ?_
      simp

end FollowsAll

/-! ### Questions that take no alias -/

theorem plainColumn_steady (scopes : Scopes) (c : ColumnRef) :
    Within (fun n n' => n' = n) (Resolve.plainColumn scopes c) := by
  intro n
  unfold Resolve.plainColumn
  cases c.record.field c.field with
  | error e => rfl
  | ok field =>
      obtain ⟨name, column, kind⟩ := field
      cases kind with
      | computed definition required =>
          cases definition with
          | some sql => rfl
          | none =>
              change finalState
                ((if !required && c.record.isComputed then _ else _ : Resolve Term) n) = n
              split <;> rfl
      | stored | generated =>
          change finalState ((if c.record.isComputed then _ else _ : Resolve Term) n) = n
          split
          · rfl
          · cases Scope.owner? scopes c.record <;> rfl

theorem literal_steady (dialect : Dialect) (v : Value) :
    Within (fun n n' => n' = n) (Resolve.literal dialect v) := by
  intro n
  unfold Resolve.literal
  cases v.toLiteral? <;> rfl

theorem interval_steady (dialect : Dialect) (amount : Int64) (unit : CalendarUnit) :
    Within (fun n n' => n' = n) (Resolve.interval dialect amount unit) := by
  intro n
  unfold Resolve.interval
  cases dialect with
  | postgres | mysql => rfl
  | generic | sqlite =>
      dsimp only
      split <;> rfl

theorem limitNumber_steady (part : LimitPart) (number : Nat) :
    Within (fun n n' => n' = n) (Resolve.limitNumber part number) := by
  intro n
  unfold Resolve.limitNumber
  split <;> rfl

/-! ### Parentheses -/

/-- The fields of the rule need no parentheses. -/
def Atomic (rule : Resolve.ColumnRule) : Prop := ∀ ⦃scopes c n t n'⦄, rule scopes c n = .ok t n' →
  t.isComposite = false ∧ t.needsGrouping = false

/-- An expression needs parentheses where its term does. -/
def parentheses : Resolve.Invariant where
  Terms _ e _ t _ := t.isComposite = e.isComposite ∧ t.needsGrouping = e.needsGrouping
  Queries _ _ _ _ _ := True

theorem parentheses_lawful {rule : Resolve.ColumnRule} (hrule : Atomic rule) :
    parentheses.Lawful rule where
  congruence scopes :=
    { literal := ⟨rfl, rfl⟩
      bound := ⟨rfl, rfl⟩
      fieldValue := ⟨rfl, rfl⟩
      interval := ⟨rfl, rfl⟩
      wildcard := ⟨rfl, rfl⟩
      call := fun _ => ⟨rfl, rfl⟩
      binary := fun _ _ => ⟨rfl, rfl⟩
      logical := fun h => by
        cases h with
        | nil => exact ⟨rfl, rfl⟩
        | cons head tail =>
            cases tail with
            | nil => exact head
            | cons _ _ => exact ⟨rfl, rfl⟩
      not := fun _ => ⟨rfl, rfl⟩
      isNull := fun _ => ⟨rfl, rfl⟩
      inNoValues := ⟨rfl, rfl⟩
      inNoExprs := ⟨rfl, rfl⟩
      inArray := fun _ _ => ⟨rfl, rfl⟩
      inChunks := fun _ _ _ => ⟨rfl, rfl⟩
      inTerms := fun _ _ _ => ⟨rfl, rfl⟩
      inQuery := fun _ _ => ⟨rfl, rfl⟩
      caseWhen := fun _ _ _ => ⟨rfl, rfl⟩
      search := fun {mode es query ts first last} _ h => by
        cases mode
        · have hlength := (h.zip (fun _ _ => True) fun _ _ _ _ _ => trivial).1
          refine ⟨rfl, ?_⟩
          rw [Term.needsGrouping, Expr.needsGrouping, hlength]
        · exact ⟨rfl, rfl⟩
      temporal := fun _ => ⟨rfl, rfl⟩
      subquery := fun _ => ⟨rfl, rfl⟩
      existsRow := fun _ => ⟨rfl, rfl⟩ }
  column := fun h => hrule h
  query _ _ := trivial

/-- What is done with a result has to agree for the results that there are. -/
theorem map_congr {α β : Type} {r : Resolve α} {f g : α → β}
    (h : ∀ {a n n'}, r n = .ok a n' → f a = g a) : f <$> r = g <$> r := by
  funext n
  change EStateM.map f r n = EStateM.map g r n
  unfold EStateM.map
  cases hr : r n with
  | ok a n' =>
      dsimp only
      rw [h hr]
  | error e n' => rfl

/-- The step for a column adds the field that the rule finds for it. -/
structure FollowsRule (dialect : Dialect) (overriding : Bool) (onColumn : ColumnRef → Step Unit)
    (rule : Resolve.ColumnRule) : Prop where
  column : ∀ scopes c, Follows dialect overriding scopes (onColumn c)
    (Term.lexemes dialect <$> rule scopes c)
  atomic : Atomic rule

section

variable {onColumn : ColumnRef → Step Unit} {rule : Resolve.ColumnRule}

/-- An operand of an operator stands in parentheses where its term does. -/
theorem Follows.operand (hrule : Atomic rule) {e : Expr}
    (h : Follows dialect overriding scopes (exprWith onColumn e)
      (Term.lexemes dialect <$> Resolve.exprWith dialect rule scopes e)) :
    Follows dialect overriding scopes (OnePass.grouping e.isComposite (exprWith onColumn e))
      (Term.operand dialect <$> Resolve.exprWith dialect rule scopes e) := by
  refine (h.grouping e.isComposite).congr ?_
  rw [Functor.map_map]
  refine map_congr fun hresolve => ?_
  have hsame := (Resolve.exprWith_keeps (parentheses_lawful hrule) e hresolve).1
  rw [Term.operand, hsame]

/-- An operand of a connective stands in parentheses where its term does. -/
theorem Follows.connected (hrule : Atomic rule) {e : Expr}
    (h : Follows dialect overriding scopes (exprWith onColumn e)
      (Term.lexemes dialect <$> Resolve.exprWith dialect rule scopes e)) :
    Follows dialect overriding scopes (OnePass.grouping e.needsGrouping (exprWith onColumn e))
      ((fun t => grouped t.needsGrouping (t.lexemes dialect)) <$>
        Resolve.exprWith dialect rule scopes e) := by
  refine (h.grouping e.needsGrouping).congr ?_
  rw [Functor.map_map]
  refine map_congr fun hresolve => ?_
  rw [(Resolve.exprWith_keeps (parentheses_lawful hrule) e hresolve).2]

/-! ### Clauses -/

section

variable {columns : List (Step Unit)} {ps : Resolve (List (List Lexeme))}

theorem document_follows (h : FollowsAll dialect overriding scopes columns ps) :
    Follows dialect overriding scopes (document columns)
      (if columns.isEmpty then Resolve.fault .searchWithoutColumn else searchDocument <$> ps) := by
  refine .refuseIf _ _ (((Follows.put _).bind ((h.each _).bind (.put _))).congr ?_)
  rw [searchDocument_eq]
  simp

/-- A search adds what is searched for around and between its columns. -/
theorem search_follows (mode : SearchMode) (query : String)
    (h : FollowsAll dialect overriding scopes columns ps) :
    Follows dialect overriding scopes (search mode query columns)
      (if columns.isEmpty then Resolve.fault .searchWithoutColumn
        else searchLexemes dialect mode query <$> ps) := by
  have htests : Follows dialect overriding scopes
      (separated [space, word "OR", space] (columns.map (containing query)))
      ((fun items => wordSeparated "OR" (items.map (containsTest query))) <$> ps) := by
    refine ((h.each_map fun hcolumn => ?_).separated _).congr (Functor.map_map ..)
    refine (hcolumn.bind (.put _)).congr ?_
    rw [containsTest_eq]
    simp
  have hscores : Follows dialect overriding scopes
      (separated [space, symbol "+", space] (columns.map (scoring query)))
      ((fun items => [space, symbol "+", space].intercalate (items.map (containsScore query))) <$>
        ps) := by
    refine ((h.each_map fun hcolumn => ?_).separated _).congr (Functor.map_map ..)
    refine ((Follows.put _).bind ((hcolumn.bind (.put _)).bind (.put _))).congr ?_
    rw [containsScore_eq, containsTest_eq]
    simp
  refine .get_bind fun c hdialect _ _ => ?_
  rw [hdialect]
  unfold searchLexemes
  cases dialect with
  | postgres =>
      cases mode
      · refine ((document_follows h).bind (.put _)).congr ?_
        cases columns.isEmpty with
        | true => rfl
        | false => simp
      · refine ((Follows.put _).bind ((document_follows h).bind (.put _))).congr ?_
        cases columns.isEmpty with
        | true => rfl
        | false => simp [application, parenthesized, commaSeparated, intercalate_cons]
  | mysql =>
      refine .refuseIf _ _ (((Follows.put _).bind (h.listed.bind (.put _))).congr ?_)
      simp [parenthesized]
  | generic | sqlite =>
      cases mode
      · exact .refuseIf _ _ htests
      · refine .refuseIf _ _ (((Follows.put _).bind (hscores.bind (.put _))).congr ?_)
        simp [parenthesized]

end

/-- Tests against the pieces of a list stand in parentheses where there are several. -/
theorem pieces_follow {step : Step Unit} {p : Resolve Term} (negated : Bool)
    (h : Follows dialect overriding scopes step (Term.operand dialect <$> p))
    (pieces : List (List Value)) :
    Follows dialect overriding scopes
      (OnePass.grouping (1 < pieces.length)
        (separated [space, word (if negated then "AND" else "OR"), space]
          (pieces.map fun piece => do
            step
            OnePass.put (listOpening negated)
            OnePass.put (valueLexemes piece)
            OnePass.put [symbol ")"])))
      (Term.lexemes dialect <$> do
        return .inChunks negated (← pieces.mapM fun piece => do return (← p, piece))) := by
  have htests : FollowsAll dialect overriding scopes
      (pieces.map fun piece => do
        step
        OnePass.put (listOpening negated)
        OnePass.put (valueLexemes piece)
        OnePass.put [symbol ")"])
      (chunksLexemes dialect negated <$> pieces.mapM fun piece => do return (← p, piece)) := by
    refine FollowsAll.map rfl (fun _ _ => rfl) fun piece _ => ?_
    refine (h.bind ((Follows.put _).bind ((Follows.put _).bind (.put _)))).congr ?_
    simp [membership, listOpening, parenthesized, Term.operand]
  refine ((htests.separated _).grouping _).congr ?_
  rw [Functor.map_map, Functor.map_map, bind_pure_comp, Functor.map_map]
  refine map_congr fun hpieces => ?_
  have hlength := (Resolve.InTurn.of_mapM (P := fun _ _ _ _ => True) (fun _ _ _ _ _ => trivial)
    hpieces).zip (fun _ _ => True) fun _ _ _ _ _ => trivial
  rw [Term.lexemes, chunkLexemes, length_chunksLexemes, hlength.1]
  rfl

theorem output_follows (labelled : Bool) {column : String → Step Unit} {r : String → Resolve Term}
    (h : ∀ field, Follows dialect overriding scopes (column field)
      (Term.lexemes dialect <$> r field)) (fields? : Option (List String)) :
    Follows dialect overriding scopes (output labelled column fields?)
      ((fun columns? => ((columns?.map (outputLexemes dialect labelled)).map commaSeparated).getD
        countAll) <$> Resolve.optionally (fun fields => fields.mapM fun field => do
          return { field, expr := ← r field }) fields?) := by
  cases fields? with
  | none => exact .put _
  | some fields =>
      have hcolumns : FollowsAll dialect overriding scopes (fields.map fun field => do
          column field
          OnePass.put (if labelled then [space, word "AS", space, identifier field] else []))
          (outputLexemes dialect labelled <$> fields.mapM fun field => do
            return { field, expr := ← r field }) := by
        refine FollowsAll.map rfl (fun _ _ => rfl) fun field _ => ?_
        refine ((h field).bind (.put _)).congr ?_
        simp
      refine hcolumns.listed.congr ?_
      simp [Resolve.optionally]

/-- The tables of a query stand before its joins, which need one. -/
theorem sources_follows (s : Select) {scope : Scope} {joins : Step Unit}
    {q : Resolve (List JoinedTable)} (hnone : s.joins = [] → q = pure [])
    (h : Follows dialect overriding (scope :: scopes) joins
      ((fun js => (joinsLexemes dialect js).flatten) <$> q)) :
    Follows dialect overriding (scope :: scopes) (sources s joins)
      (if (s.tableItems scope.entries).isEmpty && !s.joins.isEmpty
        then Resolve.fault (.nothingToJoin s.record.name)
        else (fun js => fromLexemes (s.tableItems scope.entries) (joinsLexemes dialect js)) <$> q)
      := by
  intro c hdialect hoverriding hscopes
  have hentries : innermostEntries c = .ok scope.entries c := by
    have hget : (get : Step OnePass) c = .ok c c := rfl
    unfold innermostEntries
    rw [bind_of_ok hget, hscopes]
    rfl
  unfold sources
  rw [bind_of_ok hentries]
  cases htables : (s.tableItems scope.entries).isEmpty with
  | true =>
      cases hjoins : s.joins.isEmpty with
      | true =>
          rw [hnone (List.isEmpty_iff.mp hjoins)]
          refine Follows.pure.congr ?_ c hdialect hoverriding hscopes
          simp [fromLexemes, htables]
      | false => exact Follows.throw _ c hdialect hoverriding hscopes
  | false =>
      have hfrom := (Follows.put (clause ["FROM"] (commaSeparated
        ((s.tableItems scope.entries).map TableItem.lexemes)))).bind h
      refine hfrom.congr ?_ c hdialect hoverriding hscopes
      simp [fromLexemes, htables]

theorem window_follows (limit : Option Limit) :
    Follows dialect overriding scopes (window limit)
      ((fun w? => (w?.map Window.lexemes).getD []) <$>
        Resolve.optionally Resolve.window limit) := by
  cases limit with
  | none => exact .pure
  | some l =>
      obtain ⟨count, offset⟩ := l
      cases offset with
      | none =>
          refine ((Follows.put _).bind (.ask_bind (limitNumber_steady _ _) fun i =>
            (Follows.put _).bind .pure)).congr ?_
          simp [Resolve.optionally, Resolve.window, Window.lexemes]
      | some n =>
          refine ((Follows.put _).bind (.ask_bind (limitNumber_steady _ _) fun i =>
            (Follows.put _).bind ((Follows.put _).bind (.ask_bind (limitNumber_steady _ _) fun j =>
              .put _)))).congr ?_
          simp [Resolve.optionally, Resolve.window, Window.lexemes]

/-- A query in one piece. -/
theorem selectWith_eq (labelled : Bool) (s : Select) : selectWith onColumn labelled s = (do
    let outer := (← get).scopes
    OnePass.refuseIf (Scope.lists outer s.record) (.selectedTwice s.record.name)
    OnePass.inScope (s.innerScope outer) fun _ => do
      put (if s.countsAround then
        word "SELECT" :: space :: countAll ++ [space, word "FROM", space, symbol "("] else [])
      put (word "SELECT" :: space :: if s.distinct then [word "DISTINCT", space] else [])
      output (labelled || s.countsAround)
        (fun field =>
          (definitionWith onColumn field s.definitions).getD (onColumn ⟨s.record, field⟩))
        s.resultFields?
      sources s (joinsWith onColumn s.joins)
      optionalWith onColumn (clause ["WHERE"] []) s.filter
      groupingWith onColumn s.grouping
      orderingWith onColumn s.ordering
      window s.limit
      let locks := s.locking && (← get).dialect.locksRows
      put (if locks then space :: words ["FOR", "UPDATE"] else [])
      put (if s.countsAround then [symbol ")", space, word "sub"] else [])) := by
  cases s
  rfl

/-- Resolving a query, with the aliases that its scope takes. -/
theorem resolve_selectWith_eq (outer : Scopes) (labelled : Bool) (s : Select) :
    Resolve.selectWith dialect rule outer labelled s = (do
      if Scope.lists outer s.record then Resolve.fault (.selectedTwice s.record.name)
      let a ← get
      set (a + (s.innerScope outer a).entries.length)
      let output ← Resolve.output dialect rule (s.innerScopes outer a) s
      if (s.tableItems (s.innerScope outer a).entries).isEmpty && !s.joins.isEmpty then
        Resolve.fault (.nothingToJoin s.record.name)
      let joins ← Resolve.joinsWith dialect rule (s.innerScopes outer a) s.joins
      let filter ← Resolve.optionalWith dialect rule (s.innerScopes outer a) s.filter
      let grouping ← Resolve.groupingWith dialect rule (s.innerScopes outer a) s.grouping
      let ordering ← Resolve.orderingWith dialect rule (s.innerScopes outer a) s.ordering
      let limit ← Resolve.optionally Resolve.window s.limit
      return s.query outer a labelled { output, joins, filter, grouping, ordering, limit }) := by
  have hlength (a : Alias) : (s.innerScope outer a).entries.length =
      (s.scopeRecords outer).length := by
    simp [Select.innerScope, Select.entries]
  simp only [hlength]
  rw [Resolve.selectWith_eq]
  cases Scope.lists outer s.record <;> rfl

/-- A query adds its clauses in the order in which they are resolved. -/
theorem select_follows (labelled : Bool) (s : Select)
    (hcolumn : ∀ scopes field, Follows dialect overriding scopes
      ((definitionWith onColumn field s.definitions).getD (onColumn ⟨s.record, field⟩))
      (Term.lexemes dialect <$> (Resolve.definitionWith dialect rule scopes field
        s.definitions).getD (rule scopes ⟨s.record, field⟩)))
    (hjoins : ∀ scopes, Follows dialect overriding scopes (joinsWith onColumn s.joins)
      ((fun js => (joinsLexemes dialect js).flatten) <$>
        Resolve.joinsWith dialect rule scopes s.joins))
    (hfilter : ∀ scopes, Follows dialect overriding scopes
      (optionalWith onColumn (clause ["WHERE"] []) s.filter)
      ((fun t? => optionalClause ["WHERE"] (t?.map (Term.lexemes dialect))) <$>
        Resolve.optionalWith dialect rule scopes s.filter))
    (hgrouping : ∀ scopes, Follows dialect overriding scopes (groupingWith onColumn s.grouping)
      ((fun ts? => optionalClause ["GROUP", "BY"]
        ((ts?.map (termsLexemes dialect)).map commaSeparated)) <$>
          Resolve.groupingWith dialect rule scopes s.grouping))
    (hordering : ∀ scopes, Follows dialect overriding scopes (orderingWith onColumn s.ordering)
      ((fun keys? => optionalClause ["ORDER", "BY"]
        ((keys?.map (sortKeysLexemes dialect)).map commaSeparated)) <$>
          Resolve.orderingWith dialect rule scopes s.ordering)) :
    Follows dialect overriding scopes (selectWith onColumn labelled s)
      (queryTerms dialect <$> Resolve.selectWith dialect rule scopes labelled s) := by
  have houtput scopes : Follows dialect overriding scopes (output (labelled || s.countsAround)
      (fun field => (definitionWith onColumn field s.definitions).getD (onColumn ⟨s.record, field⟩))
      s.resultFields?)
      ((fun columns? => ((columns?.map (outputLexemes dialect (labelled || s.countsAround))).map
        commaSeparated).getD countAll) <$> Resolve.output dialect rule scopes s) :=
    output_follows _ (hcolumn scopes) _
  have hlocks (closing : List Lexeme) {scopes} : Follows dialect overriding scopes
      (do
        let locks := s.locking && (← get).dialect.locksRows
        put (if locks then space :: words ["FOR", "UPDATE"] else [])
        put closing)
      (do
        let ls ← pure (if s.locking && dialect.locksRows then space :: words ["FOR", "UPDATE"]
          else [])
        let ls' ← pure closing
        pure (ls ++ ls')) := by
    refine .get_bind fun c hdialect _ _ => ?_
    rw [hdialect]
    exact (Follows.put _).bind (.put _)
  have hnone scopes (h : s.joins = []) :
      Resolve.joinsWith dialect rule scopes s.joins = pure [] := by
    rw [h, Resolve.joinsWith]
  have hentries (a : Alias) : (s.innerScope scopes a).entries.map (·.2) =
      List.range' a (s.innerScope scopes a).entries.length := by
    simp [Select.innerScope, Select.entries, List.map_snd_zip]
  rw [selectWith_eq, resolve_selectWith_eq]
  refine .get_bind fun c _ _ hscopes => ?_
  rw [hscopes]
  refine (Follows.refuseIf _ _ (.inScope hentries fun a =>
    (Follows.put _).bind ((Follows.put _).bind ((houtput _).bind ((sources_follows _ (hnone _)
      (hjoins _)).bind ((hfilter _).bind ((hgrouping _).bind ((hordering _).bind
        ((window_follows _).bind (hlocks _)))))))))).congr ?_
  cases Scope.lists scopes s.record with
  | true => rfl
  | false =>
      simp only [Bool.false_eq_true, if_false, map_bind, bind_assoc, pure_bind, bind_map_left]
      refine bind_congr fun a => bind_congr fun _ => bind_congr fun columns => ?_
      -- whether there is something to join does not depend on the results, so it can be told here
      cases (s.tableItems (s.innerScope scopes a).entries).isEmpty && !s.joins.isEmpty with
      | true => rfl
      | false =>
          simp [queryTerms_eq, queryLexemes_eq, Select.innerScopes, Select.innerScope, Select.query]

theorem isEmpty_exprsWith (es : List Expr) : (exprsWith onColumn es).isEmpty = es.isEmpty := by
  cases es <;> rw [exprsWith] <;> rfl

mutual

/-- What an expression adds is what it resolves to.  The induction is on the syntax, in all scopes,
since a nested query is resolved in one scope more. -/
theorem exprWith_follows (h : FollowsRule dialect overriding onColumn rule) (scopes : Scopes) :
    ∀ e : Expr, Follows dialect overriding scopes (exprWith onColumn e)
      (Term.lexemes dialect <$> Resolve.exprWith dialect rule scopes e)
  | .column c => h.column scopes c
  | .literal v => .write (fun c hdialect _ => by rw [hdialect]; rfl) (literal_steady dialect v)
  | .bound v => .put _
  | .fieldValue field v => .put _
  | .interval amount unit =>
    .write (fun c hdialect _ => by rw [hdialect]; rfl) (interval_steady dialect amount unit)
  | .wildcard => .put _
  | .call function args => by
    refine ((Follows.put _).bind ((exprsWith_follows h scopes args).listed.bind (.put _))).congr ?_
    simp [Resolve.exprWith, Term.lexemes, application, parenthesized]
  | .binary op left right => by
    refine (((exprWith_follows h scopes left).operand h.atomic).bind ((Follows.put _).bind
      ((exprWith_follows h scopes right).operand h.atomic))).congr ?_
    simp [Resolve.exprWith, Term.lexemes, Term.operand]
  | .logical op [] => (Follows.put _).congr rfl
  | .logical op [operand] => by
    refine (exprWith_follows h scopes operand).congr ?_
    simp [Resolve.exprWith, Resolve.exprsWith, Term.lexemes]
  | .logical op (first :: second :: rest) => by
    have hfirst := (exprWith_follows h scopes first).connected h.atomic
    have hsecond := (exprWith_follows h scopes second).connected h.atomic
    refine ((FollowsAll.cons hfirst (.cons hsecond (operandsWith_follows h scopes rest))).separated
      _).congr ?_
    simp [Resolve.exprWith, Resolve.exprsWith, Term.lexemes, wordSeparated]
  | .not operand => by
    refine ((Follows.put _).bind ((exprWith_follows h scopes operand).operand h.atomic)).congr ?_
    simp [Resolve.exprWith, Term.lexemes, Term.operand]
  | .isNull negated operand => by
    refine (((exprWith_follows h scopes operand).operand h.atomic).bind (.put _)).congr ?_
    simp [Resolve.exprWith, Term.lexemes, Term.operand]
  | .inValues negated operand values => by
    have hoperand := (exprWith_follows h scopes operand).operand h.atomic
    refine .get_bind fun c hdialect _ _ => ?_
    dsimp only
    rw [hdialect, Resolve.exprWith]
    by_cases hempty : values.isEmpty
    · rw [if_pos hempty, if_pos hempty]
      exact .put _
    · rw [if_neg hempty, if_neg hempty]
      by_cases harray : dialect.bindsListAsArray
      · rw [if_pos harray, if_pos harray]
        refine (hoperand.bind ((Follows.put _).bind (.put _))).congr ?_
        simp [Term.lexemes, Term.operand]
      · rw [if_neg harray, if_neg harray]
        exact pieces_follow negated hoperand _
  | .inExprs negated operand items => by
    have hoperand := (exprWith_follows h scopes operand).operand h.atomic
    have hitems := exprsWith_follows h scopes items
    rw [exprWith, Resolve.exprWith]
    by_cases hempty : items.isEmpty
    · rw [if_pos hempty, if_pos hempty]
      exact .put _
    · rw [if_neg hempty, if_neg hempty]
      refine (hoperand.bind ((Follows.put _).bind (hitems.listed.bind (.put _)))).congr ?_
      simp [Term.lexemes, Term.operand, membership, listOpening, parenthesized]
  | .inSelect negated operand select => by
    refine (((exprWith_follows h scopes operand).operand h.atomic).bind ((Follows.put _).bind
      ((selectWith_follows h scopes false select).bind (.put _)))).congr ?_
    simp [Resolve.exprWith, Term.lexemes, Term.operand, membership, listOpening, parenthesized]
  | .caseWhen operand branches otherwise => by
    refine (Follows.refuseIf _ _ ((Follows.put _).bind
      ((optionalWith_follows h scopes _ operand).bind ((branchesWith_follows h scopes branches).bind
        ((optionalWith_follows h scopes _ otherwise).bind (.put _)))))).congr ?_
    rw [Resolve.exprWith]
    cases branches.isEmpty with
    | true => rfl
    | false => simp [Term.lexemes_caseWhen]
  | .search mode columns query => by
    refine (search_follows mode query (exprsWith_follows h scopes columns)).congr ?_
    rw [Resolve.exprWith, isEmpty_exprsWith]
    cases columns.isEmpty with
    | true => rfl
    | false => simp [Term.lexemes]
  | .temporal op operand => by
    refine .get_bind fun c hdialect _ _ => ?_
    refine ((Follows.put _).bind ((exprWith_follows h scopes operand).bind (.put _))).congr ?_
    simp [Resolve.exprWith, Term.lexemes, TemporalOp.lexemes_eq, hdialect]
  | .subquery select => by
    refine ((Follows.put _).bind ((selectWith_follows h scopes false select).bind
      (.put _))).congr ?_
    simp [Resolve.exprWith, Term.lexemes, parenthesized]
  | .existsRow select => by
    refine ((Follows.put _).bind ((selectWith_follows h scopes false select).bind
      (.put _))).congr ?_
    simp [Resolve.exprWith, Term.lexemes, parenthesized]

theorem exprsWith_follows (h : FollowsRule dialect overriding onColumn rule) (scopes : Scopes) :
    ∀ es : List Expr, FollowsAll dialect overriding scopes (exprsWith onColumn es)
      (termsLexemes dialect <$> Resolve.exprsWith dialect rule scopes es)
  | [] => .nil
  | e :: es => by
    refine (FollowsAll.cons (exprWith_follows h scopes e) (exprsWith_follows h scopes es)).congr ?_
    simp [Resolve.exprsWith, termsLexemes]

theorem operandsWith_follows (h : FollowsRule dialect overriding onColumn rule) (scopes : Scopes) :
    ∀ es : List Expr, FollowsAll dialect overriding scopes (operandsWith onColumn es)
      (operandsLexemes dialect <$> Resolve.exprsWith dialect rule scopes es)
  | [] => .nil
  | e :: es => by
    refine (FollowsAll.cons ((exprWith_follows h scopes e).connected h.atomic)
      (operandsWith_follows h scopes es)).congr ?_
    simp [Resolve.exprsWith, operandsLexemes]

theorem optionalWith_follows (h : FollowsRule dialect overriding onColumn rule) (scopes : Scopes)
    (opening : List Lexeme) : ∀ e? : Option Expr,
    Follows dialect overriding scopes (optionalWith onColumn opening e?)
      ((fun t? => ((t?.map (Term.lexemes dialect)).map (opening ++ ·)).getD []) <$>
        Resolve.optionalWith dialect rule scopes e?)
  | none => .pure
  | some e => by
    refine ((Follows.put _).bind (exprWith_follows h scopes e)).congr ?_
    simp [Resolve.optionalWith]

theorem branchesWith_follows (h : FollowsRule dialect overriding onColumn rule) (scopes : Scopes) :
    ∀ branches : List (Expr × Expr), Follows dialect overriding scopes
      (branchesWith onColumn branches)
      (branchesLexemes dialect <$> Resolve.branchesWith dialect rule scopes branches)
  | [] => .pure
  | (condition, result) :: rest => by
    refine ((Follows.put _).bind ((exprWith_follows h scopes condition).bind ((Follows.put _).bind
      ((exprWith_follows h scopes result).bind (branchesWith_follows h scopes rest))))).congr ?_
    simp [Resolve.branchesWith, branchesLexemes]

theorem definitionWith_follows (h : FollowsRule dialect overriding onColumn rule) (scopes : Scopes)
    (field : String) : ∀ definitions : List (FieldExprOf Expr),
    Option.Rel (fun step r => Follows dialect overriding scopes step (Term.lexemes dialect <$> r))
      (definitionWith onColumn field definitions)
      (Resolve.definitionWith dialect rule scopes field definitions)
  | [] => .none
  | { field := defined, expr } :: rest => by
    rw [definitionWith, Resolve.definitionWith]
    by_cases hfield : defined = field
    · rw [if_pos hfield, if_pos hfield]
      exact .some (exprWith_follows h scopes expr)
    · rw [if_neg hfield, if_neg hfield]
      exact definitionWith_follows h scopes field rest

theorem joinsWith_follows (h : FollowsRule dialect overriding onColumn rule) (scopes : Scopes) :
    ∀ joins : List (JoinOf Expr), Follows dialect overriding scopes (joinsWith onColumn joins)
      ((fun js => (joinsLexemes dialect js).flatten) <$>
        Resolve.joinsWith dialect rule scopes joins)
  | [] => .pure
  | { kind, record, on } :: rest => by
    rw [joinsWith, Resolve.joinsWith, map_bind]
    refine .ofExcept_bind _ fun table => .get_bind fun c _ _ hscopes => ?_
    rw [hscopes]
    cases Scope.owner? scopes record with
    | none => exact .throw _
    | some owner =>
        refine ((Follows.put _).bind ((Follows.put _).bind ((exprWith_follows h scopes on).bind
          (joinsWith_follows h scopes rest)))).congr ?_
        simp [joinsLexemes, TableItem.lexemes]

theorem sortKeysWith_follows (h : FollowsRule dialect overriding onColumn rule) (scopes : Scopes) :
    ∀ keys : List (SortKeyOf Expr), FollowsAll dialect overriding scopes
      (sortKeysWith onColumn keys)
      (sortKeysLexemes dialect <$> Resolve.sortKeysWith dialect rule scopes keys)
  | [] => .nil
  | { expr, descending } :: rest => by
    refine (FollowsAll.cons ((exprWith_follows h scopes expr).bind (.put _))
      (sortKeysWith_follows h scopes rest)).congr ?_
    simp [Resolve.sortKeysWith, sortKeysLexemes]

theorem groupingWith_follows (h : FollowsRule dialect overriding onColumn rule) (scopes : Scopes) :
    ∀ grouping : Option (List Expr), Follows dialect overriding scopes
      (groupingWith onColumn grouping)
      ((fun ts? => optionalClause ["GROUP", "BY"]
        ((ts?.map (termsLexemes dialect)).map commaSeparated)) <$>
          Resolve.groupingWith dialect rule scopes grouping)
  | none => .pure
  | some es => by
    refine ((Follows.put _).bind (exprsWith_follows h scopes es).listed).congr ?_
    simp [Resolve.groupingWith, optionalClause, clause]

theorem orderingWith_follows (h : FollowsRule dialect overriding onColumn rule) (scopes : Scopes) :
    ∀ ordering : Option (List (SortKeyOf Expr)), Follows dialect overriding scopes
      (orderingWith onColumn ordering)
      ((fun keys? => optionalClause ["ORDER", "BY"]
        ((keys?.map (sortKeysLexemes dialect)).map commaSeparated)) <$>
          Resolve.orderingWith dialect rule scopes ordering)
  | none => .pure
  | some keys => by
    refine ((Follows.put _).bind (sortKeysWith_follows h scopes keys).listed).congr ?_
    simp [Resolve.orderingWith, optionalClause, clause]

/-- What a query adds is what it resolves to. -/
theorem selectWith_follows (h : FollowsRule dialect overriding onColumn rule) (scopes : Scopes)
    (labelled : Bool) : ∀ s : SelectOf Expr,
    Follows dialect overriding scopes (selectWith onColumn labelled s)
      (queryTerms dialect <$> Resolve.selectWith dialect rule scopes labelled s)
  | { record, selection, filter, joins, grouping, ordering, limit, locking, distinct, overrides,
      definitions } => by
    refine select_follows labelled _ (fun scopes field => ?_)
      (fun scopes => joinsWith_follows h scopes joins)
      (fun scopes => (optionalWith_follows h scopes _ filter).congr ?_)
      (fun scopes => groupingWith_follows h scopes grouping)
      (fun scopes => orderingWith_follows h scopes ordering)
    · have hdefinition := definitionWith_follows h scopes field definitions
      dsimp only
      generalize definitionWith onColumn field definitions = step?,
        Resolve.definitionWith dialect rule scopes field definitions = r? at hdefinition ⊢
      cases hdefinition with
      | none => exact h.column scopes _
      | some hdefined => exact hdefined
    · simp only [optionalClause_eq]

end

end

end OnePass

end RecordStore
