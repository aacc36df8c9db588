import RecordStore.Proofs.Sql.FromClause
import RecordStore.Proofs.Sql.Truth
import RecordStore.Proofs.Sql.Unbound

/-! # Membership in long lists

A list of values that is longer than the database takes is cut into pieces, and the operand is
tested against each piece: one test after the other between `OR`, or between `AND` where the test is
negated, in parentheses where there are several.  `Resolve.memberOf` does this for pieces of any
size, and tests against lists are resolved by it (`Resolve.expr_inValues`).  The tests bind the
values of the list in their order, and in print they are read as an expression that is as true as
one test against the whole list (`Resolve.membership_split`). -/

namespace RecordStore

open Lexeme

/-! ### Tests in print -/

/-- A term in print as the operand of an operator. -/
def Term.operandLexemes (dialect : Dialect) (t : Term) : List Lexeme :=
  grouped t.isComposite (t.lexemes dialect)

theorem chunksLexemes_eq_map (dialect : Dialect) (negated : Bool)
    (pieces : List (Term × List Value)) :
    chunksLexemes dialect negated pieces = pieces.map fun c =>
      membership negated (c.1.operandLexemes dialect) (valueLexemes c.2) := by
  induction pieces with
  | nil => rfl
  | cons c pieces ih =>
      rw [chunksLexemes, ih, List.map_cons]
      rfl

namespace Phrase

/-- Tests of operands that hold together next to them. -/
theorem fits_memberTests {negated : Bool} {pieces : List (Phrase × List Value)} (hne : pieces ≠ [])
    (h : ∀ piece ∈ pieces, piece.1.fits = true ∧
      (Connector.member negated).strength ≤ piece.1.strength) :
    (memberTests negated pieces).fits = true := by
  have htest : ∀ piece ∈ pieces, (memberTest negated piece.1 piece.2).fits = true := by
    intro piece hpiece
    obtain ⟨hfits, hstrength⟩ := h piece hpiece
    exact (fits_operation_of_lt hstrength (Connector.strength_lt_leaf _)).mpr
      ⟨hfits, fitsAll_values _⟩
  have hmark : (chained (.logical (splitOp negated))
      (pieces.map fun piece => memberTest negated piece.1 piece.2)).isMark = false := by
    obtain ⟨piece, rest, rfl⟩ := List.exists_cons_of_ne_nil hne
    exact isMark_foldl _ rfl _
  refine (fits_grouped _ hmark).mpr ((fits_chained (by simpa using hne) ?_).mpr ?_)
  · intro test hmem
    obtain ⟨piece, -, rfl⟩ := List.mem_map.mp hmem
    have hloose : (Connector.logical (splitOp negated)).strength < 3 :=
      Nat.lt_of_le_of_lt (Connector.logical_le _) (by decide)
    exact hloose
  · intro test hmem
    obtain ⟨piece, hpiece, rfl⟩ := List.mem_map.mp hmem
    exact htest piece hpiece

/-- Several tests hold together as one does. -/
theorem strength_memberTests {negated : Bool} {pieces : List (Phrase × List Value)}
    (hne : pieces ≠ []) :
    (Connector.member negated).strength ≤ (memberTests negated pieces).strength := by
  obtain ⟨piece, rest, rfl⟩ := List.exists_cons_of_ne_nil hne
  cases rest with
  | nil => exact Nat.le_refl _
  | cons piece' rest =>
      have hseveral : 1 < (piece :: piece' :: rest).length := by simp
      rw [memberTests, decide_eq_true hseveral]
      exact Nat.le_of_lt (Connector.strength_lt_leaf _)

end Phrase

/-- The terminals of tests in print, where the operands have those of these phrases. -/
theorem terminals_memberTests {dialect : Dialect} {negated : Bool} {read : Term → Phrase}
    {pieces : List (Term × List Value)} (hne : pieces ≠ [])
    (h : ∀ c ∈ pieces, terminals (c.1.operandLexemes dialect) = (read c.1).terminals) :
    terminals ((Term.inChunks negated pieces).lexemes dialect) =
      (Phrase.memberTests negated (pieces.map fun c => (read c.1, c.2))).terminals := by
  have htests : (chunksLexemes dialect negated pieces).map terminals =
      ((pieces.map fun c => (read c.1, c.2)).map fun piece =>
        Phrase.memberTest negated piece.1 piece.2).map Phrase.terminals := by
    rw [chunksLexemes_eq_map, List.map_map, List.map_map, List.map_map]
    exact List.map_congr_left fun c hc =>
      terminals_membership_phrase negated (h c hc) (terminals_valueLexemes c.2)
  rw [Term.lexemes, chunkLexemes, length_chunksLexemes, Phrase.memberTests, List.length_map]
  refine terminals_grouped_phrase _ (terminals_chained ?_ (by simpa using hne) htests)
  cases negated <;> rfl

/-- An operand that is all written as phrases is read as its phrase, and holds together next to a
test. -/
theorem Term.read_operand {dialect : Dialect} {t : Term} (h : PrintAsPhrases dialect t.subterms)
    (negated : Bool) :
    Phrase.read (terminals (t.operandLexemes dialect)) =
        some (Phrase.grouped t.isComposite (t.phrase dialect)) ∧
      (Connector.member negated).strength ≤
        (Phrase.grouped t.isComposite (t.phrase dialect)).strength := by
  constructor
  · refine Phrase.read_eq_some_iff.mpr ⟨?_, ?_⟩
    · exact (Phrase.fits_grouped _ (t.isMark_phrase dialect)).mpr
        ((t.fits_phrase dialect).mpr fun s hs => (h s hs).1)
    · exact (terminals_grouped_phrase _ (t.terminals_phrase h)).symm
  · rw [t.strength_operand dialect]
    exact Nat.le_of_lt (Connector.strength_lt_leaf _)

/-! ### Tests against pieces of a list -/

namespace Resolve

/-- The test of an operand against a list of values that is cut into pieces of this size, with the
operand resolved anew for each piece. -/
def memberOf (size : Nat) (negated : Bool) (operand : Resolve Term) (values : List Value) :
    Resolve Term :=
  if values.isEmpty then return .inNothing negated
  else return .inChunks negated (← (chunks size values).mapM fun piece => do
    return (← operand, piece))

variable {dialect : Dialect} {overriding : Bool} {scopes : Scopes} {e : Expr}

/-- Where lists are not bound as arrays, a test is resolved in pieces of the size that the dialect
takes. -/
theorem expr_inValues (h : dialect.bindsListAsArray = false) (negated : Bool)
    (values : List Value) : expr dialect overriding scopes (.inValues negated e values) =
      memberOf dialect.maxInList negated (expr dialect overriding scopes e) values := by
  unfold expr memberOf
  rw [exprWith, h]
  rfl

/-- The operands of these pieces, resolved one after the other: each is what resolving the operand
comes to somewhere, and binds nothing. -/
def Pieces (dialect : Dialect) (operand : Resolve Term) :
    List (List Value) → List (Term × List Value) → Prop :=
  List.Forall₂ fun piece c =>
    ((∃ first last, operand first = .ok c.1 last) ∧ c.1.bindings dialect = []) ∧ c.2 = piece

/-- An operand that resolves whatever aliases are free resolves for each piece. -/
theorem exists_pieces {operand : Resolve Term}
    (h : ∀ first, ∃ t last, operand first = .ok t last ∧ t.bindings dialect = [])
    (pieces : List (List Value)) (next : Alias) :
    ∃ cs n, (pieces.mapM fun piece => do return (← operand, piece) : Resolve _) next = .ok cs n ∧
      Pieces dialect operand pieces cs := by
  refine exists_mapM_eq_ok (fun piece _ first => ?_) next
  obtain ⟨t, last, ht, hfree⟩ := h first
  exact ⟨(t, piece), last, bind_eq_ok.mpr ⟨t, last, ht, rfl⟩, ⟨⟨first, last, ht⟩, hfree⟩, rfl⟩

/-- What the tests of an operand against the pieces of a list do. -/
structure SplitTest (dialect : Dialect) (operand : Resolve Term) (size : Nat) (negated : Bool)
    (values : List Value) (pieces : List (Term × List Value)) : Prop where
  /-- The operand of each piece is the operand, resolved anew. -/
  operands : ∀ c ∈ pieces, ∃ first last, operand first = .ok c.1 last
  /-- The pieces put together are the list. -/
  together : pieces.flatMap (·.2) = values
  /-- There are as many pieces as are needed. -/
  count : pieces.length = (values.length + max size 1 - 1) / max size 1
  /-- No piece is empty or too long. -/
  lengths : ∀ c ∈ pieces, 1 ≤ c.2.length ∧ c.2.length ≤ max size 1
  /-- The values of the list are bound in their order, and nothing else is. -/
  bindings : (Term.inChunks negated pieces).bindings dialect = values.map .value
  /-- Several tests stand between words and in one pair of parentheses. -/
  printed : (Term.inChunks negated pieces).lexemes dialect =
    Lexeme.grouped (decide (1 < pieces.length))
      (wordSeparated (if negated then "AND" else "OR") (pieces.map fun c =>
        membership negated (c.1.operandLexemes dialect) (valueLexemes c.2)))
  /-- An operand in which nothing has words of its own in the dialect, and whose functions have the
  names of functions, is read in print as its phrase and holds together next to a test. -/
  readable : ∀ c ∈ pieces,
    (∀ s ∈ c.1.subterms, s.isPhrased dialect = true ∧ ∀ f ∈ s.function?, isFunctionName f = true) →
      Phrase.read (terminals (c.1.operandLexemes dialect)) =
          some (Phrase.grouped c.1.isComposite (c.1.phrase dialect)) ∧
        (Connector.member negated).strength ≤
          (Phrase.grouped c.1.isComposite (c.1.phrase dialect)).strength
  /-- Where the operands in print are read as expressions that hold together next to a test, the
  whole is read as an expression that holds together as a test does.  If the operands have the same
  value, it is as true as one test of an operand with this value against the whole list. -/
  truth : ∀ read : Term → Phrase,
    (∀ c ∈ pieces, Phrase.read (terminals (c.1.operandLexemes dialect)) = some (read c.1) ∧
      (Connector.member negated).strength ≤ (read c.1).strength) →
    ∃ p, Phrase.read (terminals ((Term.inChunks negated pieces).lexemes dialect)) = some p ∧
      (Connector.member negated).strength ≤ p.strength ∧
      ∀ (I : Interpretation) (a : Phrase), (∀ c ∈ pieces, (read c.1).value I = a.value I) →
        p.truth I = (Phrase.memberTest negated a values).truth I

/-- No list is empty in what an expression resolves to. -/
theorem filled_of_expr {t : Term} {first last : Alias}
    (h : expr dialect overriding scopes e first = .ok t last) : Filled t.subterms := by
  cases overriding with
  | false => exact exprWith_keeps Filled.lawful_plain e h
  | true => exact exprWith_keeps (Filled.lawful_overridden dialect) e h

theorem splitTest_of_pieces {operand : Resolve Term} {size : Nat} {negated : Bool}
    {values : List Value} {pieces : List (Term × List Value)} (hne : values ≠ [])
    (hfilled : ∀ {first t last}, operand first = .ok t last → Filled t.subterms)
    (h : Pieces dialect operand (chunks size values) pieces) :
    SplitTest dialect operand size negated values pieces := by
  obtain ⟨hoperands, hpiece⟩ := (List.forall₂_and_left pieces _).mp h.flip
  have hvalues : pieces.map (·.2) = chunks size values :=
    List.forall₂_eq_eq_eq ▸ List.forall₂_map_left_iff.mpr hpiece
  have hsize : 0 < max size 1 := Nat.lt_of_lt_of_le Nat.one_pos (Nat.le_max_right size 1)
  have hchunks : chunks size values = chunks (max size 1) values := by
    unfold chunks
    rw [Nat.max_eq_left (Nat.le_max_right size 1)]
  have hflat : pieces.flatMap (·.2) = values := by
    rw [List.flatMap_def, hvalues, flatten_chunks]
  have hpieces : pieces ≠ [] := by
    rintro rfl
    exact hne hflat.symm
  refine {
    operands := fun c hc => (hoperands c hc).1
    together := hflat
    count := ?count
    lengths := ?lengths
    bindings := ?bindings
    printed := ?printed
    readable := ?readable
    truth := ?truth }
  case count =>
    rw [← length_chunks hsize values, ← hchunks, ← hvalues, List.length_map]
  case lengths =>
    intro c hc
    have hmem : c.2 ∈ chunks (max size 1) values := by
      rw [← hchunks, ← hvalues]
      exact List.mem_map_of_mem hc
    exact length_of_mem_chunks hsize hmem
  case bindings =>
    have hpiece : ∀ c ∈ pieces, c.1.bindings dialect ++ c.2.map Binding.value =
        c.2.map .value := by
      intro c hc
      rw [(hoperands c hc).2, List.nil_append]
    rw [Term.bindings_inChunks, List.flatMap_congr hpiece, ← hflat, List.map_flatMap]
  case printed =>
    rw [Term.lexemes, chunkLexemes, length_chunksLexemes, chunksLexemes_eq_map]
  case readable =>
    intro c hc hphrased
    obtain ⟨⟨first, last, hoperand⟩, hfree⟩ := hoperands c hc
    have hwhole := Term.stayWhole_of_unbound hfree (hfilled hoperand) fun s hs => (hphrased s hs).2
    exact Term.read_operand (fun s hs => ⟨hwhole s hs, (hphrased s hs).1⟩) negated
  case truth =>
    intro read hread
    have hoperand (c : Term × List Value) (hc : c ∈ pieces) :=
      Phrase.read_eq_some_iff.mp (hread c hc).1
    have hphrases : pieces.map (fun c => (read c.1, c.2)) ≠ [] := by simpa using hpieces
    refine ⟨Phrase.memberTests negated (pieces.map fun c => (read c.1, c.2)), ?_,
      Phrase.strength_memberTests hphrases, fun I a ha => ?_⟩
    · refine Phrase.read_eq_some_iff.mpr ⟨Phrase.fits_memberTests hphrases ?_, ?_⟩
      · exact List.forall_mem_map.mpr fun c hc => ⟨(hoperand c hc).1, (hread c hc).2⟩
      · exact (terminals_memberTests hpieces fun c hc => (hoperand c hc).2.symm).symm
    · rw [Phrase.truth_memberTests I hphrases (List.forall_mem_map.mpr ha), List.flatMap_map, hflat,
        Phrase.truth_memberTest]

/-- A test of an operand that binds nothing, against a list of any length in pieces of any size: it
resolves, whatever aliases are free, to tests against pieces as `SplitTest` says, and against the
empty list to a truth value.  Tests against lists are resolved this way, in pieces of the size that
the dialect takes. -/
theorem membership_split {t : Term} {next n : Alias}
    (h : expr dialect overriding scopes e next = .ok t n) (hfree : t.bindings dialect = []) :
    (dialect.bindsListAsArray = false → ∀ negated values,
      expr dialect overriding scopes (.inValues negated e values) =
        memberOf dialect.maxInList negated (expr dialect overriding scopes e) values) ∧
    ∀ (size : Nat) (negated : Bool) (next' : Alias),
      (∀ values, values ≠ [] → ∃ pieces n',
        memberOf size negated (expr dialect overriding scopes e) values next' =
            .ok (.inChunks negated pieces) n' ∧
          SplitTest dialect (expr dialect overriding scopes e) size negated values pieces) ∧
      memberOf size negated (expr dialect overriding scopes e) [] next' =
          .ok (.inNothing negated) next' ∧
        ∃ p, Phrase.read (terminals ((Term.inNothing negated).lexemes dialect)) = some p ∧
          ∀ I, p.truth I = .ofBool negated := by
  refine ⟨expr_inValues, fun size negated next' => ⟨fun values hne => ?_, rfl, ?_⟩⟩
  · have hagain (first : Alias) : ∃ t' last,
        expr dialect overriding scopes e first = .ok t' last ∧ t'.bindings dialect = [] := by
      obtain ⟨t', last, ht', hbindings⟩ := expr_again h first
      exact ⟨t', last, ht', hbindings.trans hfree⟩
    obtain ⟨pieces, n', hpieces, hpiece⟩ :=
      exists_pieces hagain (chunks size values) next'
    refine ⟨pieces, n', ?_, splitTest_of_pieces hne filled_of_expr hpiece⟩
    unfold memberOf
    rw [if_neg (by simpa using hne)]
    exact bind_eq_ok.mpr ⟨pieces, n', hpieces, rfl⟩
  · refine ⟨.leaf (.ofLiteral (.bool negated)), Phrase.read_eq_some_iff.mpr ?_, ?_⟩
    · cases negated <;> exact ⟨rfl, rfl⟩
    · cases negated <;> exact fun _ => rfl

end Resolve

namespace Sample

/-- Items with none of these numbers, two of them at a time: both tests together are as true as one
test against the whole list, whether or not an item has a number. -/
theorem itemIds_split :
    let values : List Value := [.integer 1, .null, .integer 1]
    let id : Phrase := .qualified "t0" "item_id"
    ∃ pieces n p, Resolve.memberOf 2 true
        (Resolve.expr .sqlite true [⟨[(schema.type, 0)], schema.type, [], true⟩]
          (.col schema.type "id")) values 1 = .ok (.inChunks true pieces) n ∧
      pieces.length = 2 ∧
      Phrase.read (terminals ((Term.inChunks true pieces).lexemes .sqlite)) = some p ∧
      ∀ I, p.truth I = (Phrase.memberTest true id values).truth I := by
  have hid (first : Alias) :
      Resolve.expr .sqlite true [⟨[(schema.type, 0)], schema.type, [], true⟩]
        (.col schema.type "id") first =
          .ok (.column ⟨schema.type, "id"⟩ (some 0) "item_id") first := rfl
  obtain ⟨-, hsplit⟩ := Resolve.membership_split (hid 0) rfl
  obtain ⟨pieces, n, hpieces, htest⟩ :=
    (hsplit 2 true 1).1 [.integer 1, .null, .integer 1] (List.cons_ne_nil _ _)
  have hoperand : ∀ c ∈ pieces, c.1 = .column ⟨schema.type, "id"⟩ (some 0) "item_id" := by
    intro c hc
    obtain ⟨first, last, hfirst⟩ := htest.operands c hc
    rw [hid first] at hfirst
    injection hfirst with hcolumn
    exact hcolumn.symm
  obtain ⟨p, hread, -, htruth⟩ := htest.truth (fun t => t.phrase .sqlite) fun c hc => by
    have hcolumn := htest.readable c hc
    rw [hoperand c hc] at hcolumn ⊢
    exact hcolumn (by decide)
  refine ⟨pieces, n, p, hpieces, htest.count, hread, fun I => htruth I _ fun c hc => ?_⟩
  rw [hoperand c hc]
  rfl

end Sample

end RecordStore
