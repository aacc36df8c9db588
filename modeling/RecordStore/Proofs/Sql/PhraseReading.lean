import RecordStore.Proofs.Sql.Phrases

/-! # What phrases are read

Reading undoes printing: the terminals of a phrase that fits are read as this phrase
(`Phrase.expression_terminals`, by induction on the phrase), and whatever is read fits and has these
terminals (`Phrase.taken_of_expression`, by the recursion of the reader).  So a phrase is what its
terminals are read as if and only if it fits (`Phrase.read_eq_some_iff`). -/

namespace RecordStore

namespace Connector

variable {c : Connector} {s : List Terminal}

theorem strength_lt_leaf (c : Connector) : c.strength < 7 := by
  cases c with
  | binary op => cases op <;> decide
  | logical op => cases op <;> decide
  | is _ | member _ => exact (by decide : 3 < 7)
  | escape => decide

/-- No connector binds as tightly as a negation. -/
theorem strength_ne_negation (c : Connector) : c.strength ≠ 2 := by
  cases c with
  | binary op => cases op <;> decide
  | logical op => cases op <;> decide
  | is _ | member _ => exact (by decide : 3 ≠ 2)
  | escape => decide

end Connector

namespace Mark

variable {m : Mark} {next : Option Terminal}

theorem fits_name {word : String} : (name word).fits next = true ↔
    word ≠ "ESCAPE" ∧ next ≠ some .dot ∧ (isClauseWord word = true ∨ next ≠ some .opening) := by
  simp only [fits, Bool.and_eq_true, Bool.or_eq_true, bne_iff_ne, and_assoc]

/-- A mark that fits before something fits at the end. -/
theorem fits_none (h : m.fits next = true) : m.fits none = true := by
  cases m with
  | name word => exact fits_name.mpr ⟨(fits_name.mp h).1, nofun, .inr nofun⟩
  | comma | whenWord | thenWord | elseWord => rfl

/-- A mark that fits at the end fits before whatever can be no argument and no column. -/
theorem fits_of_fits_none (h : m.fits none = true) (hdot : next ≠ some .dot)
    (hopening : next ≠ some .opening) : m.fits next = true := by
  cases m with
  | name word => exact fits_name.mpr ⟨(fits_name.mp h).1, hdot, .inr hopening⟩
  | comma | whenWord | thenWord | elseWord => rfl

theorem terminal_ne (m : Mark) : some m.terminal ≠ some .dot ∧ some m.terminal ≠ some .opening := by
  cases m <;> exact ⟨nofun, nofun⟩

end Mark

namespace Phrase

/-! ### One terminal at a time -/

theorem progress_eq_some {α : Type} {s : List Terminal} {r : Option (α × List Terminal)} {a : α}
    {rest : Shorter s} : progress s r = some (a, rest) ↔ r = some (a, rest.val) := by
  obtain ⟨rest, hlt⟩ := rest
  cases r with
  | none => exact ⟨nofun, nofun⟩
  | some found =>
      obtain ⟨a', rest'⟩ := found
      constructor
      · intro h
        by_cases hlt' : rest'.length < s.length
        · rw [progress, dif_pos hlt'] at h
          cases h
          rfl
        · rw [progress, dif_neg hlt'] at h
          cases h
      · intro h
        cases h
        exact dif_pos hlt

/-- There is no progress only where nothing has been taken, if taking anything is progress. -/
theorem eq_none_of_progress {α : Type} {s : List Terminal} {r : Option (α × List Terminal)}
    (hr : ∀ a rest, r = some (a, rest) → rest.length < s.length) (h : progress s r = none) :
    r = none := by
  cases r with
  | none => rfl
  | some found =>
      obtain ⟨a, rest⟩ := found
      rw [progress, dif_pos (hr a rest rfl)] at h
      cases h


/-- A connector is taken for itself, unless it is an `IS` that a `NOT` follows. -/
theorem connector?_terminals {c : Connector} {s : List Terminal}
    (hs : c = .is false → s.head? ≠ some (.keyword .notWord)) :
    connector? (c.terminals ++ s) = some (c, s) := by
  cases c with
  | binary op => cases op <;> rfl
  | logical op => cases op <;> rfl
  | member negated => cases negated <;> rfl
  | escape => rfl
  | is negated =>
      cases negated with
      | true => rfl
      | false =>
          have hnot (rest : List Terminal) : s ≠ .keyword .notWord :: rest := by
            rintro rfl
            exact hs rfl rfl
          change connector? (.keyword .isWord :: s) = _
          unfold connector?
          split <;> simp_all

/-- What is taken for a connector has the connector's terminals. -/
theorem connector?_eq_some {c : Connector} {s rest : List Terminal}
    (h : connector? s = some (c, rest)) : c.terminals ++ rest = s := by
  unfold connector? at h
  split at h
  case h_9 =>
    split at h
    · next hop =>
        cases h
        exact congrArg (· ++ rest) hop
    · cases h
  case h_10 =>
    split at h
    · next hword =>
        cases h
        rw [hword]
        rfl
    · cases h
  case h_11 => cases h
  all_goals
    cases h
    rfl

theorem connector?_shortens {c : Connector} {s rest : List Terminal}
    (h : connector? s = some (c, rest)) : rest.length < s.length := by
  have hne : c.terminals ≠ [] := by
    cases c with
    | binary op => cases op <;> nofun
    | logical op => cases op <;> nofun
    | is negated | member negated => cases negated <;> nofun
    | escape => nofun
  have hpos : 0 < c.terminals.length := List.length_pos_iff.mpr hne
  rw [← connector?_eq_some h, List.length_append]
  omega

theorem mark?_eq_some {m : Mark} {s rest : List Terminal} :
    mark? s = some (m, rest) ↔ s = m.terminal :: rest ∧ m.fits rest.head? = true := by
  constructor
  · intro h
    unfold mark? at h
    split at h
    case h_1 =>
      split at h
      · next hfits =>
          cases h
          exact ⟨rfl, hfits⟩
      · cases h
    case h_6 => cases h
    all_goals
      cases h
      exact ⟨rfl, rfl⟩
  · rintro ⟨rfl, hfits⟩
    cases m with
    | name word => exact if_pos hfits
    | comma | whenWord | thenWord | elseWord => rfl

/-- A mark is no connector. -/
theorem connector?_mark {m : Mark} {s : List Terminal} (h : m.fits s.head? = true) :
    connector? (m.terminal :: s) = none := by
  cases m with
  | name word => exact if_neg (Mark.fits_name.mp h).1
  | comma | whenWord | thenWord | elseWord => rfl

/-- No connector goes on where contents end. -/
theorem connector?_of_ends {s : List Terminal} (h : ends s = true) : connector? s = none := by
  unfold ends at h
  split at h
  · rfl
  · rfl
  · rfl
  · cases h

theorem mark?_of_ends {s : List Terminal} (h : ends s = true) : mark? s = none := by
  unfold ends at h
  split at h
  · rfl
  · rfl
  · rfl
  · cases h

/-- What ends contents can be no argument and no column. -/
theorem head?_of_ends {s : List Terminal} (h : ends s = true) :
    s.head? ≠ some .dot ∧ s.head? ≠ some .opening := by
  unfold ends at h
  split at h
  · exact ⟨nofun, nofun⟩
  · exact ⟨nofun, nofun⟩
  · exact ⟨nofun, nofun⟩
  · cases h

/-- No connector follows that binds at least so tightly. -/
def Detached (p : Nat) (s : List Terminal) : Prop :=
  ∀ c rest, connector? s = some (c, rest) → c.strength < p

namespace Detached

variable {p p' : Nat} {s : List Terminal}

theorem of_none (h : connector? s = none) : Detached p s := by
  intro c rest hc
  rw [h] at hc
  cases hc

theorem mono (h : Detached p s) (hle : p ≤ p') : Detached p' s :=
  fun c rest hc => Nat.lt_of_lt_of_le (h c rest hc) hle

/-- Every connector binds more loosely than an atom holds together. -/
theorem leaf (s : List Terminal) : Detached 8 s :=
  fun c _ _ => Nat.lt_succ_of_lt c.strength_lt_leaf

/-- What ends a negation ends its operand. -/
theorem negation (h : Detached 3 s) : Detached 2 s := by
  intro c rest hc
  have hlt := h c rest hc
  have hne := c.strength_ne_negation
  omega

/-- Nothing is added to what stands before. -/
theorem extend_eq (h : Detached p s) (a : Phrase) : extend p a s = some (a, s) := by
  rw [extend]
  cases hc : progress s (connector? s) with
  | none => rfl
  | some found =>
      obtain ⟨c, rest⟩ := found
      have hlt := h c rest (progress_eq_some.mp hc)
      dsimp only
      rw [if_neg (Nat.not_le_of_lt hlt)]

end Detached

/-! ### The beginning of a phrase -/

/-- An expression begins here: no mark, not the end of the contents, and no dot. -/
structure Begins (s : List Terminal) : Prop where
  mark : mark? s = none
  ends : ends s = false
  dot : s.head? ≠ some .dot

theorem Begins.of_leaf {t : Terminal} (h : t.isLeaf = true) (s : List Terminal) :
    Begins (t :: s) := by
  cases t with
  | keyword k =>
      cases k with
      | nullWord | trueWord | falseWord => exact ⟨rfl, rfl, nofun⟩
      | andWord | orWord | notWord | inWord | isWord | likeWord | caseWord | whenWord | thenWord
      | elseWord | endWord => cases h
  | operator op => exact ⟨rfl, rfl, nofun⟩
  | identifier | literal | param | other => exact ⟨rfl, rfl, nofun⟩
  | name | opening | closing | comma | dot => cases h

/-- The name of a function is no mark before its arguments. -/
theorem Begins.of_function {f : String} (h : isFunctionName f = true) (s : List Terminal) :
    Begins (.name f :: .opening :: s) := by
  refine ⟨?_, rfl, nofun⟩
  have hclause : isClauseWord f = false := by
    simp only [isFunctionName, Bool.and_eq_true, Bool.not_eq_true'] at h
    exact h.2
  refine if_neg fun hfits => ?_
  rcases (Mark.fits_name.mp hfits).2.2 with h | h
  · rw [hclause] at h
    cases h
  · exact h rfl

/-- A qualifier is no mark before the dot. -/
theorem Begins.of_qualifier (q : String) (s : List Terminal) : Begins (.name q :: .dot :: s) := by
  refine ⟨?_, rfl, nofun⟩
  exact if_neg fun hfits => (Mark.fits_name.mp hfits).2.1 rfl

/-- What is said of an operation. -/
theorem fits_operation {c : Connector} {left right : Phrase} :
    (operation c left right).fits = true ↔ left.fits = true ∧ right.fits = true ∧
      c.strength ≤ left.strength ∧ c.strength < right.strength := by
  simp only [fits, Bool.and_eq_true, decide_eq_true_eq, and_assoc]

/-- A phrase that fits begins as an expression. -/
theorem begins : ∀ (a : Phrase), a.fits = true → ∀ s, Begins (a.terminals ++ s)
  | leaf _, h, s => .of_leaf h s
  | qualified q c, _, s => .of_qualifier q (.identifier c :: s)
  | bracketed none contents, _, s => ⟨rfl, rfl, nofun⟩
  | bracketed (some f) contents, h, s => by
    simp only [fits, Bool.and_eq_true] at h
    exact .of_function h.1 (terminalsAll contents ++ [.closing] ++ s)
  | distinction contents, _, s => ⟨rfl, rfl, nofun⟩
  | negation _, _, s => ⟨rfl, rfl, nofun⟩
  | operation c left right, h, s => by
    rw [terminals, List.append_assoc]
    exact begins left (fits_operation.mp h).1 _

/-- Only a phrase that holds together no more tightly than a negation begins with one. -/
theorem head?_ne_notWord : ∀ (a : Phrase), a.fits = true → 2 < a.strength → ∀ s,
    (a.terminals ++ s).head? ≠ some (.keyword .notWord)
  | leaf t, h, _, s => by
    rintro ht
    cases ht
    cases h
  | qualified .., _, _, s => nofun
  | bracketed none _, _, _, s => nofun
  | bracketed (some _) _, _, _, s => nofun
  | distinction _, _, _, s => nofun
  | negation _, _, hlt, s => absurd hlt (Nat.lt_irrefl 2)
  | operation c left right, h, hlt, s => by
    obtain ⟨hleft, -, hle, -⟩ := fits_operation.mp h
    rw [terminals, List.append_assoc]
    exact head?_ne_notWord left hleft (Nat.lt_of_lt_of_le hlt hle) _

theorem terminals_ne_nil : ∀ a : Phrase, a.terminals ≠ []
  | leaf _ | qualified .. | bracketed none _ | bracketed (some _) _ | distinction _ | negation _
  | mark _ => nofun
  | operation _ left _ => fun h => terminals_ne_nil left (List.append_eq_nil_iff.mp h).1

/-- What stands after contents that are not empty does not change how they begin. -/
theorem head?_terminalsAll_cons (a : Phrase) (ps : List Phrase) (s : List Terminal) :
    (terminalsAll (a :: ps) ++ s).head? = (terminalsAll (a :: ps)).head? := by
  have hne : terminalsAll (a :: ps) ≠ [] :=
    fun h => a.terminals_ne_nil (List.append_eq_nil_iff.mp h).1
  obtain ⟨t, ts, hts⟩ := List.exists_cons_of_ne_nil hne
  rw [hts]
  rfl

/-- A mark fits before the rest of the contents as it does before the rest and their end. -/
theorem fits_head?_iff {m : Mark} {ps : List Phrase} {s : List Terminal} (hs : ends s = true) :
    m.fits (terminalsAll ps ++ s).head? = true ↔ m.fits (terminalsAll ps).head? = true := by
  cases ps with
  | nil =>
      obtain ⟨hdot, hopening⟩ := head?_of_ends hs
      exact ⟨Mark.fits_none, fun h => Mark.fits_of_fits_none h hdot hopening⟩
  | cons a ps => rw [head?_terminalsAll_cons]

theorem eq_mark {a : Phrase} (h : a.isMark = true) : ∃ m, a = mark m := by
  cases a with
  | mark m => exact ⟨m, rfl⟩
  | leaf | qualified | bracketed | distinction | negation | operation => cases h

theorem fitsAll_cons {a : Phrase} {ps : List Phrase} (h : a.isMark = false) :
    fitsAll (a :: ps) = (a.fits && ps.head?.all isMark && fitsAll ps) := by
  cases a with
  | mark => cases h
  | leaf | qualified | bracketed | distinction | negation | operation => rfl

/-- Contents of which no expression comes first are followed by no connector. -/
theorem detached_terminalsAll {ps : List Phrase} {s : List Terminal} (p : Nat)
    (hps : fitsAll ps = true) (hmark : ps.head?.all isMark = true) (hs : ends s = true) :
    Detached p (terminalsAll ps ++ s) := by
  refine .of_none ?_
  cases ps with
  | nil => exact connector?_of_ends hs
  | cons a ps =>
      cases a with
      | mark m =>
          simp only [fitsAll, Bool.and_eq_true] at hps
          exact connector?_mark ((fits_head?_iff hs).mpr hps.1)
      | leaf | qualified | bracketed | distinction | negation | operation => cases hmark

/-! ### Printing and reading -/

theorem length_lt_terminals (a : Phrase) (s : List Terminal) :
    s.length < (a.terminals ++ s).length := by
  have hpos : 0 < a.terminals.length := List.length_pos_iff.mpr a.terminals_ne_nil
  rw [List.length_append]
  omega

/-- An expression begins with its first operand. -/
theorem expression_of_operand {p : Nat} {a : Phrase} {rest : List Terminal}
    (h : operand p (a.terminals ++ rest) = some (a, rest)) :
    expression p (a.terminals ++ rest) = extend p a rest := by
  have hprogress : progress (a.terminals ++ rest) (operand p (a.terminals ++ rest)) =
      some (a, ⟨rest, a.length_lt_terminals rest⟩) := progress_eq_some.mpr h
  rw [expression, hprogress]
  rfl

theorem operand_leaf {t : Terminal} (h : t.isLeaf = true) (p : Nat) (s : List Terminal) :
    operand p (t :: s) = some (leaf t, s) := by
  rw [operand.eq_def]
  cases t with
  | keyword k =>
      cases k with
      | nullWord | trueWord | falseWord => rfl
      | andWord | orWord | notWord | inWord | isWord | likeWord | caseWord | whenWord | thenWord
      | elseWord | endWord => cases h
  | operator op => exact if_pos h
  | identifier | literal | param | other => rfl
  | name | opening | closing | comma | dot => cases h

theorem operand_bracketed {ps : List Phrase} {s rest : List Terminal}
    (h : contents s = some (ps, .closing :: rest)) (p : Nat) :
    operand p (.opening :: s) = some (bracketed none ps, rest) := by
  rw [operand]
  dsimp only
  rw [h]
  rfl

theorem operand_function {f : String} (hf : isFunctionName f = true) {ps : List Phrase}
    {s rest : List Terminal} (h : contents s = some (ps, .closing :: rest)) (p : Nat) :
    operand p (.name f :: .opening :: s) = some (bracketed (some f) ps, rest) := by
  rw [operand]
  dsimp only
  rw [hf, h]
  rfl

theorem operand_distinction {ps : List Phrase} {s rest : List Terminal}
    (h : contents s = some (ps, .keyword .endWord :: rest)) (p : Nat) :
    operand p (.keyword .caseWord :: s) = some (distinction ps, rest) := by
  rw [operand]
  dsimp only
  rw [h]
  rfl

theorem operand_negation {a : Phrase} {s rest : List Terminal}
    (h : expression 2 s = some (a, rest)) {p : Nat} (hp : p ≤ 2) :
    operand p (.keyword .notWord :: s) = some (negation a, rest) := by
  rw [operand]
  dsimp only
  rw [if_pos hp, h]
  rfl

theorem extend_operation {p : Nat} {a b : Phrase} {c : Connector} {s rest : List Terminal}
    (hc : connector? s = some (c, b.terminals ++ rest)) (hp : p ≤ c.strength)
    (hb : expression (c.strength + 1) (b.terminals ++ rest) = some (b, rest)) :
    extend p a s = extend p (operation c a b) rest := by
  have hconnector : progress s (connector? s) =
      some (c, ⟨b.terminals ++ rest, connector?_shortens hc⟩) := progress_eq_some.mpr hc
  have hprogress : progress (b.terminals ++ rest)
      (expression (c.strength + 1) (b.terminals ++ rest)) =
        some (b, ⟨rest, b.length_lt_terminals rest⟩) := progress_eq_some.mpr hb
  rw [extend, hconnector]
  dsimp only
  rw [if_pos hp, hprogress]
  rfl

theorem contents_mark {m : Mark} {ps : List Phrase} {s rest : List Terminal}
    (hm : m.fits s.head? = true) (h : contents s = some (ps, rest)) :
    contents (m.terminal :: s) = some (mark m :: ps, rest) := by
  have hmark : progress (m.terminal :: s) (mark? (m.terminal :: s)) =
      some (m, ⟨s, Nat.lt_succ_self s.length⟩) :=
    progress_eq_some.mpr (mark?_eq_some.mpr ⟨rfl, hm⟩)
  rw [contents, hmark]
  dsimp only
  rw [h]
  rfl

theorem contents_expression {a : Phrase} {ps : List Phrase} {s rest : List Terminal}
    (hs : Begins (a.terminals ++ s)) (ha : expression 0 (a.terminals ++ s) = some (a, s))
    (h : contents s = some (ps, rest)) (hps : ps.head?.all isMark = true) :
    contents (a.terminals ++ s) = some (a :: ps, rest) := by
  have hprogress : progress (a.terminals ++ s) (expression 0 (a.terminals ++ s)) =
      some (a, ⟨s, a.length_lt_terminals s⟩) := progress_eq_some.mpr ha
  have hmark : progress (a.terminals ++ s) (mark? (a.terminals ++ s)) = none := by
    rw [hs.mark]
    rfl
  rw [contents, hmark]
  dsimp only
  rw [hs.ends, if_neg Bool.false_ne_true, hprogress]
  dsimp only [Option.bind_eq_bind, Option.bind_some]
  rw [h]
  exact if_pos hps

mutual

/-- A phrase that fits is read up to its end, and what has been read goes on as it would. -/
theorem expression_terminals : ∀ (a : Phrase), a.fits = true → ∀ {p : Nat}, p ≤ a.strength →
    ∀ {s : List Terminal}, Detached (a.strength + 1) s →
      expression p (a.terminals ++ s) = extend p a s
  | leaf t, h, p, _, s, _ => expression_of_operand (operand_leaf h p s)
  | qualified q c, _, p, _, s, _ => expression_of_operand (by rw [operand.eq_def]; rfl)
  | bracketed none ps, h, p, _, s, _ => by
    have hcontents : contents (terminalsAll ps ++ .closing :: s) = some (ps, .closing :: s) :=
      contents_terminals ps h rfl
    refine expression_of_operand ?_
    rw [terminals, List.cons_append, List.append_assoc]
    exact operand_bracketed hcontents p
  | bracketed (some f) ps, h, p, _, s, _ => by
    simp only [fits, Bool.and_eq_true] at h
    have hcontents : contents (terminalsAll ps ++ .closing :: s) = some (ps, .closing :: s) :=
      contents_terminals ps h.2 rfl
    refine expression_of_operand ?_
    rw [terminals, List.cons_append, List.cons_append, List.append_assoc]
    exact operand_function h.1 hcontents p
  | distinction ps, h, p, _, s, _ => by
    have hcontents : contents (terminalsAll ps ++ .keyword .endWord :: s) =
        some (ps, .keyword .endWord :: s) := contents_terminals ps h rfl
    refine expression_of_operand ?_
    rw [terminals, List.cons_append, List.append_assoc]
    exact operand_distinction hcontents p
  | negation a, h, p, hp, s, hs => by
    simp only [fits, Bool.and_eq_true, decide_eq_true_eq] at h
    have hdetached : Detached 2 s := hs.negation
    have ha : expression 2 (a.terminals ++ s) = some (a, s) := by
      rw [expression_terminals a h.1 h.2 (hdetached.mono (Nat.le_succ_of_le h.2))]
      exact hdetached.extend_eq a
    refine expression_of_operand ?_
    rw [terminals, List.cons_append]
    exact operand_negation ha hp
  | operation c left right, h, p, hp, s, hs => by
    obtain ⟨hleft, hright, hle, hlt⟩ := fits_operation.mp h
    -- The right operand ends before the next connector, which binds no more tightly than this one.
    have hoperand : expression (c.strength + 1) (right.terminals ++ s) = some (right, s) := by
      rw [expression_terminals right hright hlt (hs.mono (Nat.le_succ_of_le hlt))]
      exact hs.extend_eq right
    have hc : connector? (c.terminals ++ (right.terminals ++ s)) =
        some (c, right.terminals ++ s) := by
      refine connector?_terminals fun his => ?_
      rw [his] at hlt
      exact right.head?_ne_notWord hright (Nat.lt_trans (by decide) hlt) s
    have hdetached : Detached (left.strength + 1) (c.terminals ++ (right.terminals ++ s)) := by
      intro c' rest hc'
      rw [hc] at hc'
      cases hc'
      exact Nat.lt_succ_of_le hle
    rw [terminals, List.append_assoc, List.append_assoc,
      expression_terminals left hleft (Nat.le_trans hp hle) hdetached]
    exact extend_operation hc hp hoperand

/-- Contents that fit are read up to their end. -/
theorem contents_terminals : ∀ (ps : List Phrase), fitsAll ps = true →
    ∀ {s : List Terminal}, ends s = true → contents (terminalsAll ps ++ s) = some (ps, s)
  | [], _, s, hs => by
    change contents s = _
    rw [contents, mark?_of_ends hs]
    exact if_pos hs
  | a :: ps, h, s, hs => by
    rw [terminalsAll, List.append_assoc]
    cases ha : a.isMark with
    | true =>
        obtain ⟨m, rfl⟩ := eq_mark ha
        simp only [fitsAll, Bool.and_eq_true] at h
        exact contents_mark ((fits_head?_iff hs).mpr h.1) (contents_terminals ps h.2 hs)
    | false =>
        rw [fitsAll_cons ha] at h
        simp only [Bool.and_eq_true] at h
        obtain ⟨⟨hfits, hmark⟩, hps⟩ := h
        refine contents_expression (a.begins hfits _) ?_ (contents_terminals ps hps hs) hmark
        rw [expression_terminals a hfits (Nat.zero_le _) (detached_terminalsAll _ hps hmark hs)]
        exact (detached_terminalsAll 0 hps hmark hs).extend_eq a

end

/-! ### What has been read -/

/-- The phrase has been taken off the front of these terminals. -/
structure Taken (p : Nat) (s : List Terminal) (a : Phrase) (rest : List Terminal) : Prop where
  fits : a.fits = true
  strength : p ≤ a.strength
  terminals : a.terminals ++ rest = s

/-- These contents have been taken off the front of these terminals, up to their end. -/
structure TakenAll (s : List Terminal) (ps : List Phrase) (rest : List Terminal) : Prop where
  fits : fitsAll ps = true
  terminals : terminalsAll ps ++ rest = s
  ends : ends rest = true

theorem expect_eq_some {t : Terminal} {s : List Terminal} {r : Unit × List Terminal}
    (h : Grammar.expect t s = some r) : s = t :: r.2 := by
  cases s with
  | nil => cases h
  | cons t' s =>
      by_cases ht : t' = t
      · rw [ht, Grammar.expect_self] at h
        cases h
        rw [ht]
      · rw [Grammar.expect, if_neg ht] at h
        cases h

namespace Taken

variable {p : Nat} {s s' rest : List Terminal} {a b : Phrase} {ps : List Phrase}

theorem leaf {t : Terminal} (h : t.isLeaf = true) (hp : p ≤ 7) : Taken p (t :: s) (leaf t) s :=
  ⟨h, hp, rfl⟩

theorem bracketed (h : TakenAll s ps (.closing :: rest)) (hp : p ≤ 7) :
    Taken p (.opening :: s) (bracketed none ps) rest := by
  refine ⟨h.fits, hp, ?_⟩
  rw [← h.terminals, Phrase.terminals, List.cons_append, List.append_assoc, List.singleton_append]

theorem function {f : String} (hf : isFunctionName f = true) (h : TakenAll s ps (.closing :: rest))
    (hp : p ≤ 7) : Taken p (.name f :: .opening :: s) (.bracketed (some f) ps) rest := by
  refine ⟨?_, hp, ?_⟩
  · rw [Phrase.fits, hf, h.fits]
    rfl
  · rw [← h.terminals, Phrase.terminals, List.cons_append, List.cons_append, List.append_assoc,
      List.singleton_append]

theorem distinction (h : TakenAll s ps (.keyword .endWord :: rest)) (hp : p ≤ 7) :
    Taken p (.keyword .caseWord :: s) (.distinction ps) rest := by
  refine ⟨h.fits, hp, ?_⟩
  rw [← h.terminals, Phrase.terminals, List.cons_append, List.append_assoc, List.singleton_append]

theorem negation (h : Taken 2 s a rest) (hp : p ≤ 2) :
    Taken p (.keyword .notWord :: s) (.negation a) rest := by
  refine ⟨?_, hp, ?_⟩
  · rw [Phrase.fits, h.fits, decide_eq_true h.strength]
    rfl
  · rw [← h.terminals, Phrase.terminals, List.cons_append]

/-- A connector with its right operand is taken after the left operand. -/
theorem operation {c : Connector} (hc : connector? s = some (c, s'))
    (ha : a.fits = true) (hle : c.strength ≤ a.strength) (h : Taken (c.strength + 1) s' b rest) :
    (Phrase.operation c a b).fits = true ∧
      (Phrase.operation c a b).terminals ++ rest = a.terminals ++ s := by
  refine ⟨fits_operation.mpr ⟨ha, h.fits, hle, h.strength⟩, ?_⟩
  rw [← connector?_eq_some hc, ← h.terminals, Phrase.terminals, List.append_assoc,
    List.append_assoc]

end Taken

namespace TakenAll

variable {s s' rest : List Terminal} {a : Phrase} {ps : List Phrase}

theorem mark {m : Mark} (hm : m.fits s.head? = true) (h : TakenAll s ps rest) :
    TakenAll (m.terminal :: s) (.mark m :: ps) rest := by
  refine ⟨?_, ?_, h.ends⟩
  · have hfits : m.fits (terminalsAll ps).head? = true :=
      (fits_head?_iff h.ends).mp (h.terminals ▸ hm)
    rw [fitsAll, hfits, h.fits]
    rfl
  · rw [← h.terminals]
    rfl

theorem expression (ha : Taken 0 s a s') (h : TakenAll s' ps rest)
    (hps : ps.head?.all isMark = true) : TakenAll s (a :: ps) rest := by
  have hmark : a.isMark = false := by
    cases a with
    | mark => cases ha.fits
    | leaf | qualified | bracketed | distinction | negation | operation => rfl
  refine ⟨?_, ?_, h.ends⟩
  · rw [fitsAll_cons hmark, ha.fits, hps, h.fits]
    rfl
  · rw [← ha.terminals, ← h.terminals, terminalsAll, List.append_assoc]

end TakenAll

/-- Contents are taken up to the terminal that closes them. -/
theorem takenAll_of_closed {t : Terminal} {build : List Phrase → Phrase} {s : List Terminal}
    {r : Phrase × List Terminal} (hcontents : ∀ {r}, contents s = some r → TakenAll s r.1 r.2)
    (h : ((contents s).bind fun x => (Grammar.expect t x.2).bind fun y =>
      some (build x.1, y.2)) = some r) :
    ∃ ps rest, r = (build ps, rest) ∧ TakenAll s ps (t :: rest) := by
  obtain ⟨⟨ps, s'⟩, hps, hrest⟩ := Option.bind_eq_some_iff.mp h
  obtain ⟨⟨⟨⟩, rest⟩, hclosing, hr⟩ := Option.bind_eq_some_iff.mp hrest
  refine ⟨ps, rest, (Option.some.inj hr).symm, ?_⟩
  rw [← expect_eq_some hclosing]
  exact hcontents hps

mutual

/-- What is taken off the front is an expression that fits, and no connector that it would take is
left behind. -/
theorem taken_of_expression {p : Nat} {s : List Terminal} {r : Phrase × List Terminal}
    (h : expression p s = some r) (hp : p ≤ 7) : Taken p s r.1 r.2 ∧ Detached p r.2 := by
  rw [expression] at h
  obtain ⟨⟨a, ⟨rest, hlt⟩⟩, ha, hr⟩ := Option.bind_eq_some_iff.mp h
  obtain ⟨htaken, hdetached⟩ := taken_of_operand (progress_eq_some.mp ha) hp
  rw [← htaken.terminals]
  exact taken_of_extend hr htaken.fits htaken.strength hdetached
termination_by (s.length, 1)

theorem taken_of_extend {p : Nat} {a : Phrase} {s : List Terminal} {r : Phrase × List Terminal}
    (h : extend p a s = some r) (hfits : a.fits = true) (hle : p ≤ a.strength)
    (hdetached : Detached (a.strength + 1) s) :
    Taken p (a.terminals ++ s) r.1 r.2 ∧ Detached p r.2 := by
  rw [extend] at h
  cases hc : progress s (connector? s) with
  | none =>
      rw [hc] at h
      cases h
      have hconnector : connector? s = none :=
        eq_none_of_progress (fun _ _ => connector?_shortens) hc
      exact ⟨⟨hfits, hle, rfl⟩, .of_none hconnector⟩
  | some found =>
      obtain ⟨c, ⟨s', hlt⟩⟩ := found
      have hconnector : connector? s = some (c, s') := progress_eq_some.mp hc
      rw [hc] at h
      dsimp only at h
      split at h
      · next hp =>
          obtain ⟨⟨b, ⟨rest, hlt'⟩⟩, hb, hr⟩ := Option.bind_eq_some_iff.mp h
          obtain ⟨htaken, hrest⟩ := taken_of_expression (progress_eq_some.mp hb) c.strength_lt_leaf
          obtain ⟨hfits', hs⟩ :=
            Taken.operation hconnector hfits (Nat.le_of_lt_succ (hdetached c s' hconnector)) htaken
          rw [← hs]
          exact taken_of_extend hr hfits' hp hrest
      · next hp =>
          cases h
          refine ⟨⟨hfits, hle, rfl⟩, fun c' rest hc' => ?_⟩
          rw [hconnector] at hc'
          cases hc'
          exact Nat.lt_of_not_le hp
termination_by (s.length, 0)

theorem taken_of_operand {p : Nat} {s : List Terminal} {r : Phrase × List Terminal}
    (h : operand p s = some r) (hp : p ≤ 7) :
    Taken p s r.1 r.2 ∧ Detached (r.1.strength + 1) r.2 := by
  rw [operand.eq_def] at h
  split at h
  · split at h
    · next hle =>
        obtain ⟨⟨a, rest⟩, ha, hr⟩ := Option.bind_eq_some_iff.mp h
        cases hr
        obtain ⟨htaken, hrest⟩ := taken_of_expression ha (by decide)
        exact ⟨htaken.negation hle, hrest.mono (Nat.le_succ 2)⟩
    · cases h
  · obtain ⟨ps, rest, rfl, hps⟩ := takenAll_of_closed takenAll_of_contents h
    exact ⟨.bracketed hps hp, .leaf _⟩
  · obtain ⟨ps, rest, rfl, hps⟩ := takenAll_of_closed takenAll_of_contents h
    exact ⟨.distinction hps hp, .leaf _⟩
  · cases h
    exact ⟨⟨rfl, hp, rfl⟩, .leaf _⟩
  · split at h
    · next hf =>
        obtain ⟨ps, rest, rfl, hps⟩ := takenAll_of_closed takenAll_of_contents h
        exact ⟨.function hf hps hp, .leaf _⟩
    · cases h
  · split at h
    · next hleaf =>
        cases h
        exact ⟨.leaf hleaf hp, .leaf _⟩
    · cases h
  · cases h
termination_by (s.length, 0)

theorem takenAll_of_contents {s : List Terminal} {r : List Phrase × List Terminal}
    (h : contents s = some r) : TakenAll s r.1 r.2 := by
  rw [contents] at h
  cases hm : progress s (mark? s) with
  | some found =>
      obtain ⟨m, ⟨s', hlt⟩⟩ := found
      rw [hm] at h
      obtain ⟨⟨ps, rest⟩, hps, hr⟩ := Option.bind_eq_some_iff.mp h
      cases hr
      obtain ⟨hs, hfits⟩ := mark?_eq_some.mp (progress_eq_some.mp hm)
      rw [hs]
      exact .mark hfits (takenAll_of_contents hps)
  | none =>
      rw [hm] at h
      dsimp only at h
      split at h
      · next hends =>
          cases h
          exact ⟨rfl, rfl, hends⟩
      · obtain ⟨⟨a, ⟨s', hlt⟩⟩, ha, hr⟩ := Option.bind_eq_some_iff.mp h
        obtain ⟨⟨ps, rest⟩, hps, hr⟩ := Option.bind_eq_some_iff.mp hr
        dsimp only at hr
        split at hr
        · next hmark =>
            cases hr
            have htaken := (taken_of_expression (progress_eq_some.mp ha) (Nat.zero_le _)).1
            exact .expression htaken (takenAll_of_contents hps) hmark
        · cases hr
termination_by (s.length, 2)

end

/-- Terminals are read as a phrase if and only if it fits and these are its terminals. -/
theorem read_eq_some_iff {ts : List Terminal} {a : Phrase} :
    read ts = some a ↔ a.fits = true ∧ a.terminals = ts := by
  have hdetached (p : Nat) : Detached p [] := .of_none rfl
  constructor
  · intro h
    unfold read at h
    split at h
    · next a' hexpression =>
        cases h
        obtain ⟨htaken, -⟩ := taken_of_expression hexpression (Nat.zero_le _)
        exact ⟨htaken.fits, by simpa using htaken.terminals⟩
    · cases h
  · rintro ⟨hfits, rfl⟩
    have hexpression : expression 0 a.terminals = some (a, []) := by
      have hwhole := expression_terminals a hfits (Nat.zero_le _) (hdetached _)
      rw [List.append_nil] at hwhole
      rw [hwhole]
      exact (hdetached 0).extend_eq a
    unfold read
    rw [hexpression]

/-- Terminals are read as contents if and only if these fit and have these terminals. -/
theorem readAll_eq_some_iff {ts : List Terminal} {ps : List Phrase} :
    readAll ts = some ps ↔ fitsAll ps = true ∧ terminalsAll ps = ts := by
  constructor
  · intro h
    unfold readAll at h
    split at h
    · next ps' hcontents =>
        cases h
        have htaken := takenAll_of_contents hcontents
        exact ⟨htaken.fits, by simpa using htaken.terminals⟩
    · cases h
  · rintro ⟨hfits, rfl⟩
    have hcontents := contents_terminals ps hfits (s := []) rfl
    rw [List.append_nil] at hcontents
    unfold readAll
    rw [hcontents]

end Phrase

end RecordStore
