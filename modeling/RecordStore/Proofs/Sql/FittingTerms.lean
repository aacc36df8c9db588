import RecordStore.Proofs.Sql.PhraseReading
import RecordStore.Proofs.Sql.PrintedPhrases

/-! # Which terms fit

The phrase that a term is meant to be read as fits if and only if the term and all terms inside it
stay whole (`Term.fits_phrase`).  Operands of operators always fit, for the printer puts in
parentheses what binds too loosely; what is left are the columns of searches
(`Term.strength_iff_not_loose`), the names of functions, and lists without items. -/

namespace RecordStore

theorem forall_mem_some {α : Type} {p : α → Prop} {a : α} : (∀ b ∈ some a, p b) ↔ p a := by
  simp only [Option.mem_some_iff, forall_eq']

namespace Phrase

variable {a b : Phrase} {ps tail : List Phrase}

/-! ### Contents -/

/-- Nothing that begins with an expression. -/
def startsMarked (ps : List Phrase) : Bool := ps.head?.all isMark

theorem fitsAll_mark {m : Mark} :
    fitsAll (mark m :: ps) = true ↔ m.fits (terminalsAll ps).head? = true ∧ fitsAll ps = true := by
  rw [fitsAll, Bool.and_eq_true]

theorem fitsAll_expression (h : a.isMark = false) :
    fitsAll (a :: ps) = true ↔ a.fits = true ∧ startsMarked ps = true ∧ fitsAll ps = true := by
  rw [fitsAll_cons h, Bool.and_eq_true, Bool.and_eq_true, and_assoc]
  rfl

theorem fitsAll_singleton (h : a.isMark = false) : fitsAll [a] = true ↔ a.fits = true := by
  rw [fitsAll_expression h]
  exact ⟨fun h => h.1, fun h => ⟨h, rfl, rfl⟩⟩

/-- A mark fits before marks as it does at the end. -/
theorem fits_before_marks {m : Mark} (h : startsMarked tail = true) :
    m.fits (terminalsAll tail).head? = true ↔ m.fits none = true := by
  refine ⟨Mark.fits_none, fun hm => ?_⟩
  cases tail with
  | nil => exact hm
  | cons b tail =>
      obtain ⟨m', rfl⟩ := eq_mark h
      exact Mark.fits_of_fits_none hm m'.terminal_ne.1 m'.terminal_ne.2

/-- Contents fit before marks as they do by themselves. -/
theorem fitsAll_append (h : startsMarked tail = true) (ps : List Phrase) :
    fitsAll (ps ++ tail) = true ↔ fitsAll ps = true ∧ fitsAll tail = true := by
  induction ps with
  | nil => exact ⟨fun h => ⟨rfl, h⟩, fun h => h.2⟩
  | cons a ps ih =>
      have hnext : startsMarked (ps ++ tail) = true ↔ startsMarked ps = true := by
        cases ps with
        | nil => exact ⟨fun _ => rfl, fun _ => h⟩
        | cons b ps => exact Iff.rfl
      rw [List.cons_append]
      cases hmark : a.isMark with
      | true =>
          obtain ⟨m, rfl⟩ := eq_mark hmark
          have hfits : m.fits (terminalsAll (ps ++ tail)).head? = true ↔
              m.fits (terminalsAll ps).head? = true := by
            cases ps with
            | nil => exact fits_before_marks h
            | cons b ps => rw [terminalsAll_append, head?_terminalsAll_cons]
          rw [fitsAll_mark, fitsAll_mark, ih, hfits, and_assoc]
      | false =>
          rw [fitsAll_expression hmark, fitsAll_expression hmark, hnext, ih, and_assoc, and_assoc]

theorem fitsAll_listed (items : List (List Phrase)) :
    fitsAll (listed items) = true ↔ ∀ item ∈ items, fitsAll item = true := by
  unfold listed
  induction items with
  | nil => exact ⟨fun _ => nofun, fun _ => rfl⟩
  | cons item items ih =>
      cases items with
      | nil => rw [List.intercalate_singleton, List.forall_mem_singleton]
      | cons item' items =>
          rw [List.intercalate_cons_cons, List.append_assoc, fitsAll_append rfl,
            List.forall_mem_cons, ← ih]
          exact and_congr_right fun _ => fitsAll_mark.trans ⟨fun h => h.2, fun h => ⟨rfl, h⟩⟩

/-- Single phrases between commas. -/
theorem fitsAll_listed_singletons (h : ∀ a ∈ ps, a.isMark = false) :
    fitsAll (listed (ps.map ([·]))) = true ↔ ∀ a ∈ ps, a.fits = true := by
  rw [fitsAll_listed, List.forall_mem_map]
  exact forall₂_congr fun a ha => fitsAll_singleton (h a ha)

/-- A word of a clause fits before whatever fits. -/
theorem fitsAll_clauseWord {w : String} (hclause : isClauseWord w = true) (hne : w ≠ "ESCAPE")
    (ps : List Phrase) : fitsAll (word w :: ps) = true ↔ fitsAll ps = true := by
  refine fitsAll_mark.trans ⟨fun h => h.2, fun h => ⟨?_, h⟩⟩
  have hdot : (terminalsAll ps).head? ≠ some .dot := by
    cases ps with
    | nil => nofun
    | cons a ps =>
        cases hmark : a.isMark with
        | true =>
            obtain ⟨m, rfl⟩ := eq_mark hmark
            exact m.terminal_ne.1
        | false => exact (begins a ((fitsAll_expression hmark).mp h).1 (terminalsAll ps)).dot
  exact Mark.fits_name.mpr ⟨hne, hdot, .inl hclause⟩

/-! ### Operations -/

theorem fits_grouped (needed : Bool) (h : a.isMark = false) :
    (grouped needed a).fits = true ↔ a.fits = true := by
  cases needed with
  | false => exact Iff.rfl
  | true => exact fitsAll_singleton h

/-- An operation on operands that hold together. -/
theorem fits_operation_of_lt {c : Connector} (h : c.strength ≤ a.strength)
    (h' : c.strength < b.strength) :
    (operation c a b).fits = true ↔ a.fits = true ∧ b.fits = true := by
  rw [fits_operation]
  exact ⟨fun hfits => ⟨hfits.1, hfits.2.1⟩, fun hfits => ⟨hfits.1, hfits.2, h, h'⟩⟩

theorem fits_foldl {c : Connector} (h : c.strength ≤ a.strength)
    (hps : ∀ b ∈ ps, c.strength < b.strength) :
    (ps.foldl (operation c) a).fits = true ↔ a.fits = true ∧ ∀ b ∈ ps, b.fits = true := by
  induction ps generalizing a with
  | nil => simp
  | cons b ps ih =>
      obtain ⟨hb, hps⟩ := List.forall_mem_cons.mp hps
      have hle : c.strength ≤ (operation c a b).strength := Nat.le_refl _
      rw [List.foldl_cons, ih hle hps, fits_operation_of_lt h hb, List.forall_mem_cons, and_assoc]

/-- A chain of operands that hold together. -/
theorem fits_chained {c : Connector} (hne : ps ≠ []) (hps : ∀ b ∈ ps, c.strength < b.strength) :
    (chained c ps).fits = true ↔ ∀ b ∈ ps, b.fits = true := by
  cases ps with
  | nil => exact absurd rfl hne
  | cons a ps =>
      obtain ⟨ha, hps⟩ := List.forall_mem_cons.mp hps
      rw [List.forall_mem_cons]
      exact fits_foldl (Nat.le_of_lt ha) hps

theorem strength_foldl (c : Connector) (a b : Phrase) (ps : List Phrase) :
    ((b :: ps).foldl (operation c) a).strength = c.strength := by
  induction ps generalizing a b with
  | nil => rfl
  | cons b' ps ih => exact ih (operation c a b) b'

theorem isMark_foldl (c : Connector) (h : a.isMark = false) (ps : List Phrase) :
    (ps.foldl (operation c) a).isMark = false := by
  induction ps generalizing a with
  | nil => exact h
  | cons b ps ih => exact ih rfl

/-! ### Pieces -/

theorem fits_function {f : String} (hf : isFunctionName f = true) :
    (bracketed (some f) ps).fits = true ↔ fitsAll ps = true := by
  rw [fits, hf, Bool.true_and]

/-- The alias of a table is no operator. -/
theorem fitsAll_table (t : TableItem) : fitsAll (table t) = true := by
  have hne : "t" ++ toString t.label ≠ "ESCAPE" := by
    intro h
    have hlist := congrArg String.toList h
    rw [String.toList_append] at hlist
    exact absurd (List.cons.inj hlist).1 (by decide)
  have hfits : (Mark.name ("t" ++ toString t.label)).fits none = true :=
    Mark.fits_name.mpr ⟨hne, nofun, .inr nofun⟩
  exact (fitsAll_expression rfl).mpr ⟨rfl, rfl, fitsAll_mark.mpr ⟨hfits, rfl⟩⟩

theorem fitsAll_pair (s : String) (h : a.isMark = false) :
    fitsAll (listed [[text s], [a]]) = true ↔ a.fits = true := by
  rw [fitsAll_listed, List.forall_mem_cons, List.forall_mem_singleton, fitsAll_singleton h]
  exact ⟨fun h => h.2, fun h => ⟨rfl, h⟩⟩

theorem fits_formattedNumber (format : String) (h : a.isMark = false) :
    (formattedNumber format a).fits = true ↔ a.fits = true := by
  unfold formattedNumber
  rw [fits_function rfl, fitsAll_expression rfl, fits_function rfl, fitsAll_pair _ h]
  exact ⟨fun h => h.1, fun h => ⟨h, rfl, rfl⟩⟩

theorem fits_extracted {field : String} (hfield : field ≠ "ESCAPE") (h : a.isMark = false) :
    (extracted field a).fits = true ↔ a.fits = true := by
  have hmark : (Mark.name field).fits (some (.name "FROM")) = true :=
    Mark.fits_name.mpr ⟨hfield, nofun, .inr nofun⟩
  have hcontents : fitsAll [word "FROM", a] = true ↔ a.fits = true := by
    rw [fitsAll_clauseWord rfl (by decide), fitsAll_singleton h]
  unfold extracted
  rw [fits_function rfl, word, fitsAll_mark, hcontents]
  exact ⟨fun h => h.2, fun h => ⟨hmark, h⟩⟩

theorem fits_temporal (dialect : Dialect) (op : TemporalOp) (h : a.isMark = false) :
    (temporal dialect a op).fits = true ↔ a.fits = true := by
  cases op with
  | part unit =>
      cases dialect with
      | sqlite => exact fits_formattedNumber _ h
      | generic | postgres | mysql => exact fits_extracted (by cases unit <;> decide) h
  | start unit =>
      cases dialect with
      | sqlite | generic | postgres | mysql => exact (fits_function rfl).trans (fitsAll_pair _ h)
  | epoch =>
      cases dialect with
      | sqlite => exact fits_formattedNumber _ h
      | generic | postgres | mysql => exact fits_extracted (by decide) h

/-- A test fits if the column does and holds together. -/
theorem fits_containsTest (query : String) :
    (containsTest query a).fits = true ↔ a.fits = true ∧ 3 ≤ a.strength := by
  unfold containsTest
  rw [fits_operation]
  exact ⟨fun h => ⟨h.1, h.2.2.1⟩, fun h => ⟨h.1, rfl, h.2, (by decide : 3 < 4)⟩⟩

theorem fits_containsScore (query : String) :
    (containsScore query a).fits = true ↔ a.fits = true ∧ 3 ≤ a.strength := by
  have hcontents : (containsScore query a).fits = true ↔ (containsTest query a).fits = true := by
    unfold containsScore
    rw [fits, fitsAll_mark, fitsAll_expression rfl]
    exact ⟨fun h => h.2.1, fun h => ⟨rfl, h, rfl, rfl⟩⟩
  rw [hcontents, fits_containsTest]

/-- A search fits if its columns do and hold together. -/
theorem fits_search (mode : SearchMode) (query : String) (hne : ps ≠ []) :
    (search mode query ps).fits = true ↔ ∀ a ∈ ps, a.fits = true ∧ 3 ≤ a.strength := by
  cases mode with
  | «matches» =>
      have htests : ∀ b ∈ ps.map (containsTest query),
          (Connector.logical .or).strength < b.strength := by
        rw [List.forall_mem_map]
        exact fun a _ => (by decide : 0 < 3)
      refine (fits_chained (by simpa using hne) htests).trans ?_
      rw [List.forall_mem_map]
      exact forall₂_congr fun a _ => fits_containsTest query
  | rank =>
      have hscores : ∀ b ∈ ps.map (containsScore query),
          (Connector.binary .add).strength < b.strength := by
        rw [List.forall_mem_map]
        exact fun a _ => (by decide : 5 < 7)
      have hsum : (chained (.binary .add) (ps.map (containsScore query))).isMark = false := by
        cases ps with
        | nil => rfl
        | cons a ps => exact isMark_foldl _ rfl _
      refine (fitsAll_singleton hsum).trans ((fits_chained (by simpa using hne) hscores).trans ?_)
      rw [List.forall_mem_map]
      exact forall₂_congr fun a _ => fits_containsScore query

/-! ### Queries -/

/-- The operand of a case distinction, if there is one. -/
theorem fitsAll_toList {a? : Option Phrase} (h : ∀ a ∈ a?, a.isMark = false) :
    fitsAll a?.toList = true ↔ ∀ a ∈ a?, a.fits = true := by
  cases a? with
  | none => exact ⟨fun _ => nofun, fun _ => rfl⟩
  | some a =>
      rw [forall_mem_some]
      exact fitsAll_singleton (h a rfl)

/-- What stands after `ELSE`, if there is anything. -/
theorem fitsAll_else {a? : Option Phrase} (h : ∀ a ∈ a?, a.isMark = false) :
    startsMarked ((a?.map fun a => [mark .elseWord, a]).getD []) = true ∧
      (fitsAll ((a?.map fun a => [mark .elseWord, a]).getD []) = true ↔
        ∀ a ∈ a?, a.fits = true) := by
  cases a? with
  | none => exact ⟨rfl, fun _ => nofun, fun _ => rfl⟩
  | some a =>
      rw [forall_mem_some]
      exact ⟨rfl, fitsAll_mark.trans ((and_iff_right rfl).trans (fitsAll_singleton (h a rfl)))⟩

/-- A condition, if there is one. -/
theorem fitsAll_optional {a? : Option Phrase} (h : ∀ a ∈ a?, a.isMark = false) :
    (∀ c ∈ a?.map ([·]), fitsAll c = true) ↔ ∀ a ∈ a?, a.fits = true := by
  cases a? with
  | none => exact ⟨fun _ => nofun, fun _ => nofun⟩
  | some a =>
      rw [Option.map_some, forall_mem_some, forall_mem_some]
      exact fitsAll_singleton (h a rfl)

theorem fitsAll_join (kind : JoinKind) (item : TableItem) :
    fitsAll (join kind ++ table item) = true := by
  have hjoin : fitsAll (word "JOIN" :: table item) = true :=
    fitsAll_mark.mpr ⟨rfl, fitsAll_table item⟩
  cases kind with
  | inner => exact fitsAll_mark.mpr ⟨rfl, hjoin⟩
  | left | right => exact fitsAll_mark.mpr ⟨rfl, fitsAll_mark.mpr ⟨rfl, hjoin⟩⟩

theorem startsMarked_sources (tables : List TableItem) (joins : List Phrase) :
    startsMarked (sources tables joins) = true := by
  unfold sources
  cases tables.isEmpty <;> rfl

theorem fitsAll_sources (tables : List TableItem) {joins : List Phrase}
    (hjoins : startsMarked joins = true) :
    fitsAll (sources tables joins) = true ↔ (tables.isEmpty = false → fitsAll joins = true) := by
  have htables : fitsAll (listed (tables.map table)) = true := by
    rw [fitsAll_listed, List.forall_mem_map]
    exact fun t _ => fitsAll_table t
  unfold sources
  cases tables.isEmpty with
  | true => exact ⟨fun _ => nofun, fun _ => rfl⟩
  | false =>
      rw [if_neg Bool.false_ne_true, fitsAll_append hjoins, fitsAll_clauseWord rfl (by decide)]
      exact ⟨fun h _ => h.2, fun h => ⟨htables, h rfl⟩⟩

theorem startsMarked_clause (w : String) (ws : List String) (contents : Option (List Phrase)) :
    startsMarked (clause (w :: ws) contents) = true := by
  cases contents <;> rfl

/-- A clause whose last keyword may stand before a parenthesis. -/
theorem fitsAll_clause {ws : List String} (hws : ∀ contents,
      fitsAll (ws.map word ++ contents) = true ↔ fitsAll contents = true)
    (contents : Option (List Phrase)) :
    fitsAll (clause ws contents) = true ↔ ∀ c ∈ contents, fitsAll c = true := by
  cases contents with
  | none => exact ⟨fun _ => nofun, fun _ => rfl⟩
  | some c => exact (hws c).trans ⟨fun h c' hc' => Option.mem_some.mp hc' ▸ h, fun h => h c rfl⟩

theorem fitsAll_where (contents : List Phrase) :
    fitsAll (["WHERE"].map word ++ contents) = true ↔ fitsAll contents = true :=
  fitsAll_clauseWord rfl (by decide) contents

/-- A word before `BY`. -/
theorem fitsAll_by {w : String} (hne : w ≠ "ESCAPE") (contents : List Phrase) :
    fitsAll ([w, "BY"].map word ++ contents) = true ↔ fitsAll contents = true := by
  have hmark : (Mark.name w).fits (some (.name "BY")) = true :=
    Mark.fits_name.mpr ⟨hne, nofun, .inr nofun⟩
  have hby : fitsAll (word "BY" :: contents) = true ↔ fitsAll contents = true :=
    fitsAll_clauseWord rfl (by decide) contents
  change fitsAll (mark (.name w) :: word "BY" :: contents) = true ↔ _
  rw [fitsAll_mark, hby]
  exact ⟨fun h => h.2, fun h => ⟨hmark, h⟩⟩

theorem fitsAll_lists (items? : Option (List (List Phrase))) :
    (∀ c ∈ items?.map listed, fitsAll c = true) ↔
      ∀ items ∈ items?, ∀ item ∈ items, fitsAll item = true := by
  cases items? with
  | none => exact ⟨fun _ => nofun, fun _ => nofun⟩
  | some items => simp only [Option.map_some, Option.mem_some_iff, forall_eq', fitsAll_listed]

theorem window_marked (limit : Option Window) :
    startsMarked ((limit.map window).getD []) = true ∧
      fitsAll ((limit.map window).getD []) = true := by
  cases limit with
  | none => exact ⟨rfl, rfl⟩
  | some w =>
      obtain ⟨count, offset⟩ := w
      cases offset <;> exact ⟨rfl, rfl⟩

/-- A query fits if its clauses do. -/
theorem fitsAll_query (dialect : Dialect) (counted distinct locking : Bool)
    {output grouping ordering : Option (List (List Phrase))} {sources : List Phrase}
    {filter : Option (List Phrase)} {limit : Option Window}
    (hsources : startsMarked sources = true) :
    fitsAll (query dialect counted distinct locking output sources filter grouping ordering limit)
        = true ↔
      (∀ items ∈ output, ∀ item ∈ items, fitsAll item = true) ∧ fitsAll sources = true ∧
        (∀ c ∈ filter, fitsAll c = true) ∧
        (∀ items ∈ grouping, ∀ item ∈ items, fitsAll item = true) ∧
        ∀ items ∈ ordering, ∀ item ∈ items, fitsAll item = true := by
  have hlock : startsMarked (if locking && dialect.locksRows then [word "FOR", word "UPDATE"]
        else []) = true ∧ fitsAll (if locking && dialect.locksRows then [word "FOR", word "UPDATE"]
        else []) = true := by
    cases locking && dialect.locksRows <;> exact ⟨rfl, rfl⟩
  have hselect (columns : List Phrase) :
      fitsAll (word "SELECT" :: (if distinct then [word "DISTINCT"] else []) ++ columns) = true ↔
        fitsAll columns = true := by
    rw [List.cons_append, fitsAll_clauseWord rfl (by decide)]
    cases distinct with
    | false => exact Iff.rfl
    | true => exact fitsAll_clauseWord rfl (by decide) columns
  have houtput : fitsAll ((output.map listed).getD [rowCount]) = true ↔
      ∀ items ∈ output, ∀ item ∈ items, fitsAll item = true := by
    cases output with
    | none => exact ⟨fun _ => nofun, fun _ => rfl⟩
    | some items =>
        simp only [Option.map_some, Option.getD_some, fitsAll_listed, Option.mem_some_iff,
          forall_eq']
  have hrows : fitsAll (query dialect false distinct locking output sources filter grouping ordering
      limit) = true ↔ (∀ items ∈ output, ∀ item ∈ items, fitsAll item = true) ∧
        fitsAll sources = true ∧ (∀ c ∈ filter, fitsAll c = true) ∧
        (∀ items ∈ grouping, ∀ item ∈ items, fitsAll item = true) ∧
        ∀ items ∈ ordering, ∀ item ∈ items, fitsAll item = true := by
    unfold query
    dsimp only
    rw [if_neg Bool.false_ne_true, fitsAll_append hlock.1, fitsAll_append (window_marked limit).1,
      fitsAll_append (startsMarked_clause _ _ _), fitsAll_append (startsMarked_clause _ _ _),
      fitsAll_append (startsMarked_clause _ _ _), fitsAll_append hsources, hselect, houtput,
      fitsAll_clause fitsAll_where, fitsAll_clause (fitsAll_by (by decide)),
      fitsAll_clause (fitsAll_by (by decide)), fitsAll_lists, fitsAll_lists]
    simp only [hlock.2, (window_marked limit).2, and_true, and_assoc]
  cases counted with
  | false => exact hrows
  | true =>
      refine Iff.trans ?_ hrows
      change fitsAll (word "SELECT" :: rowCount :: word "FROM" :: bracketed none (query dialect
        false distinct locking output sources filter grouping ordering limit) ::
          [word "sub"]) = true ↔ _
      rw [fitsAll_clauseWord rfl (by decide), fitsAll_expression rfl,
        fitsAll_clauseWord rfl (by decide), fitsAll_expression rfl]
      exact ⟨fun h => h.2.2.1, fun h => ⟨rfl, rfl, h, rfl, rfl⟩⟩

end Phrase

open Phrase

/-! ### How tightly terms hold together -/

theorem Phrase.isMark_grouped (needed : Bool) {a : Phrase} (h : a.isMark = false) :
    (grouped needed a).isMark = false := by
  cases needed with
  | false => exact h
  | true => rfl

theorem Phrase.strength_grouped {needed : Bool} {a : Phrase}
    (h : needed = false → a.strength = 7) : (grouped needed a).strength = 7 := by
  cases needed with
  | false => exact h rfl
  | true => rfl

theorem Phrase.temporal_atom (dialect : Dialect) (a : Phrase) (op : TemporalOp) :
    (temporal dialect a op).isMark = false ∧ (temporal dialect a op).strength = 7 := by
  cases op <;> cases dialect <;> exact ⟨rfl, rfl⟩

theorem Connector.comparison_le_binary (op : BinaryOp) : 3 ≤ (Connector.binary op).strength := by
  cases op <;> decide

theorem Connector.logical_le (op : LogicalOp) : (Connector.logical op).strength ≤ 1 := by
  cases op <;> decide

namespace Term

variable (dialect : Dialect)

theorem isMark_phrase : ∀ t : Term, (t.phrase dialect).isMark = false
  | column _ none _ | column _ (some _) _ => rfl
  | override _ _ body => isMark_grouped _ body.isMark_phrase
  | logical _ [operand] => operand.isMark_phrase
  | logical _ (first :: _ :: _) => isMark_foldl _ (isMark_grouped _ first.isMark_phrase) _
  | inChunks _ [] | search .matches [] _ => rfl
  | inChunks _ (_ :: _) => isMark_grouped _ (isMark_foldl _ rfl _)
  | search .matches (_ :: _) _ => isMark_foldl _ rfl _
  | temporal op _ => (temporal_atom dialect _ op).1
  | definition .. | missing _ | literal _ | param _ | interval .. | wildcard | call .. | binary ..
  | logical _ [] | not _ | isNull .. | inNothing _ | inArray .. | inTerms .. | inQuery ..
  | caseWhen .. | search .rank .. | subquery _ | existsRow _ => rfl

/-- What stands without parentheses as an operand is no operation. -/
theorem strength_of_not_composite : ∀ t : Term, t.isComposite = false →
    (t.phrase dialect).strength = 7
  | column _ none _, _ | column _ (some _) _, _ => rfl
  | override _ _ body, _ => strength_grouped body.strength_of_not_composite
  | logical _ [operand], h => operand.strength_of_not_composite h
  | temporal op _, _ => (temporal_atom dialect _ op).2
  | definition .., _ | missing _, _ | literal _, _ | param _, _ | interval .., _ | wildcard, _
  | call .., _ | caseWhen .., _ | search .rank .., _ | subquery _, _ | existsRow _, _ => rfl
  | logical _ [], h | logical _ (_ :: _ :: _), h | binary .., h | not _, h | isNull .., h
  | inNothing _, h | inChunks .., h | inArray .., h | inTerms .., h | inQuery .., h
  | search .matches .., h => by cases h

/-- An operand of an operator is no operation of its own. -/
theorem strength_operand (t : Term) : (grouped t.isComposite (t.phrase dialect)).strength = 7 :=
  strength_grouped (t.strength_of_not_composite dialect)

/-- A term is loose if a comparison binds more tightly than the term holds together. -/
theorem strength_iff_not_loose : ∀ t : Term,
    3 ≤ (t.phrase dialect).strength ↔ t.isLoose = false
  | column _ none _ | column _ (some _) _ | definition .. | missing _ | literal _ | param _
  | interval .. | wildcard | call .. | inNothing _ | caseWhen .. | search .rank .. | subquery _
  | existsRow _ | inChunks _ [] | inChunks _ (_ :: _ :: _) | search .matches [] _ =>
    ⟨fun _ => rfl, fun _ => (by decide : 3 ≤ 7)⟩
  | override _ _ body => by
    have hstrength := body.strength_operand dialect
    exact ⟨fun _ => rfl, fun _ => Nat.le_trans (by decide : 3 ≤ 7) (Nat.le_of_eq hstrength.symm)⟩
  | temporal op operand => by
    have hstrength := (temporal_atom dialect (operand.phrase dialect) op).2
    exact ⟨fun _ => rfl, fun _ => Nat.le_trans (by decide : 3 ≤ 7) (Nat.le_of_eq hstrength.symm)⟩
  | binary op _ _ => ⟨fun _ => rfl, fun _ => Connector.comparison_le_binary op⟩
  | isNull .. | inArray true .. | inArray false .. | inTerms .. | inQuery .. | logical _ []
  | inChunks _ [_] | search .matches [_] _ => ⟨fun _ => rfl, fun _ => Nat.le_refl 3⟩
  | logical _ [operand] => operand.strength_iff_not_loose
  | logical op (_ :: _ :: _) => by
    refine ⟨fun h => ?_, fun h => by cases h⟩
    have hle := Connector.logical_le op
    rw [phrase, chained, strength_foldl] at h
    omega
  | search .matches (first :: second :: rest) query => by
    refine ⟨fun h => ?_, fun h => by cases h⟩
    have hstrength : ((search .matches (first :: second :: rest) query).phrase dialect).strength =
        0 := strength_foldl (.logical .or) _ _ _
    omega
  | not _ => ⟨fun h => absurd h (by decide : ¬ 3 ≤ 2), fun h => by cases h⟩

/-- What is loose and no connective is a negation. -/
theorem strength_of_loose : ∀ t : Term, t.isLoose = true → t.needsGrouping = false →
    (t.phrase dialect).strength = 2
  | logical _ [operand], h, h' => operand.strength_of_loose h h'
  | not _, _, _ => rfl
  | logical _ (_ :: _ :: _), _, h' => by cases h'
  | search .matches columns _, h, h' => by
    change decide (1 < columns.length) = true at h
    change decide (1 < columns.length) = false at h'
    rw [h] at h'
    cases h'
  | column .., h, _ | definition .., h, _ | missing _, h, _ | override .., h, _ | literal _, h, _
  | param _, h, _ | interval .., h, _ | wildcard, h, _ | call .., h, _ | binary .., h, _
  | logical _ [], h, _ | isNull .., h, _ | inNothing _, h, _ | inChunks .., h, _ | inArray .., h, _
  | inTerms .., h, _ | inQuery .., h, _ | caseWhen .., h, _ | search .rank .., h, _
  | temporal .., h, _ | subquery _, h, _ | existsRow _, h, _ => by cases h

/-- What stands without parentheses among the operands of a connective is no connective. -/
theorem strength_of_not_grouped (t : Term) (h : t.needsGrouping = false) :
    2 ≤ (t.phrase dialect).strength := by
  cases hloose : t.isLoose with
  | true => exact Nat.le_of_eq (t.strength_of_loose dialect hloose h).symm
  | false => exact Nat.le_of_succ_le ((t.strength_iff_not_loose dialect).mpr hloose)

/-- An operand of a connective binds more tightly than the connective. -/
theorem strength_grouped_operand (op : LogicalOp) (t : Term) :
    (Connector.logical op).strength <
      (grouped t.needsGrouping (t.phrase dialect)).strength := by
  have hop := Connector.logical_le op
  cases hgrouped : t.needsGrouping with
  | true => exact Nat.lt_of_le_of_lt hop (by decide : 1 < 7)
  | false => exact Nat.lt_of_le_of_lt hop (t.strength_of_not_grouped dialect hgrouped)

/-- An operation on a term fits if the term and the right operand do. -/
theorem fits_leftOperand (c : Connector) (t : Term) {b : Phrase} (hb : b.strength = 7) :
    (operation c (grouped t.isComposite (t.phrase dialect)) b).fits = true ↔
      (t.phrase dialect).fits = true ∧ b.fits = true := by
  have hle : c.strength ≤ (grouped t.isComposite (t.phrase dialect)).strength := by
    rw [strength_operand]
    exact Nat.le_of_lt c.strength_lt_leaf
  have hlt : c.strength < b.strength := by
    rw [hb]
    exact c.strength_lt_leaf
  rw [fits_operation_of_lt hle hlt, fits_grouped _ (t.isMark_phrase dialect)]

end Term

theorem phrases_eq_map (dialect : Dialect) (ts : List Term) :
    phrases dialect ts = ts.map (Term.phrase dialect) := by
  induction ts with
  | nil => rfl
  | cons t ts ih => rw [phrases, ih, List.map_cons]

/-- The terms of a list fit between commas if each of them fits. -/
theorem fitsAll_phrases (dialect : Dialect) (ts : List Term) :
    fitsAll (listed ((phrases dialect ts).map ([·]))) = true ↔
      ∀ a ∈ phrases dialect ts, a.fits = true := by
  refine fitsAll_listed_singletons fun a ha => ?_
  rw [phrases_eq_map] at ha
  obtain ⟨t, -, rfl⟩ := List.mem_map.mp ha
  exact t.isMark_phrase dialect

theorem fitsAll_values (values : List Value) :
    fitsAll (listed (values.map fun v => [leaf (.param (.value v))])) = true := by
  rw [fitsAll_listed, List.forall_mem_map]
  exact fun _ _ => rfl

theorem stayWhole_cons {t : Term} {ts : List Term} :
    StayWhole (t :: ts) ↔ t.staysWhole = true ∧ StayWhole ts := List.forall_mem_cons

theorem stayWhole_append {ts ts' : List Term} :
    StayWhole (ts ++ ts') ↔ StayWhole ts ∧ StayWhole ts' := List.forall_mem_append

/-- A term that stays whole adds nothing to the terms inside it. -/
theorem stayWhole_subterms {t : Term} (h : t.staysWhole = true) :
    StayWhole t.subterms ↔ StayWhole t.inner :=
  stayWhole_cons.trans (and_iff_right h)

/-! ### Lists of operands -/

/-- Every operand of a connective binds more tightly than the connective. -/
theorem strength_operandPhrases (dialect : Dialect) (op : LogicalOp) (ts : List Term) :
    ∀ b ∈ operandPhrases dialect ts, (Connector.logical op).strength < b.strength := by
  induction ts with
  | nil => nofun
  | cons t ts ih => exact List.forall_mem_cons.mpr ⟨t.strength_grouped_operand dialect op, ih⟩

theorem strength_chunkPhrases (dialect : Dialect) (negated : Bool) (op : LogicalOp)
    (chunks : List (Term × List Value)) :
    ∀ b ∈ chunkPhrases dialect negated chunks, (Connector.logical op).strength < b.strength := by
  have hop : (Connector.logical op).strength < 3 :=
    Nat.lt_of_le_of_lt (Connector.logical_le op) (by decide)
  induction chunks with
  | nil => nofun
  | cons chunk chunks ih => exact List.forall_mem_cons.mpr ⟨hop, ih⟩

theorem isMark_optionalPhrase (dialect : Dialect) (t? : Option Term) :
    ∀ a ∈ optionalPhrase dialect t?, a.isMark = false := by
  cases t? with
  | none => nofun
  | some t => exact forall_mem_some.mpr (t.isMark_phrase dialect)

theorem startsMarked_branchPhrases (dialect : Dialect) (branches : List (Term × Term)) :
    startsMarked (branchPhrases dialect branches) = true := by
  cases branches <;> rfl

theorem startsMarked_joinPhrases (dialect : Dialect) (joins : List JoinedTable) :
    startsMarked (joinPhrases dialect joins) = true := by
  cases joins with
  | nil => rfl
  | cons j joins =>
      obtain ⟨kind, item, on⟩ := j
      cases kind <;> rfl

/-- A search stays whole if each of its columns is read whole before `LIKE`. -/
theorem staysWhole_search (dialect : Dialect) (mode : SearchMode) (query : String)
    {columns : List Term} (hne : columns ≠ []) :
    (Term.search mode columns query).staysWhole = true ↔
      ∀ a ∈ phrases dialect columns, 3 ≤ a.strength := by
  rw [phrases_eq_map, List.forall_mem_map]
  simp [Term.staysWhole, hne, Term.strength_iff_not_loose]

section

variable (dialect : Dialect)

mutual

/-- The phrase of a term fits if and only if the term and all terms inside it stay whole. -/
theorem Term.fits_phrase : ∀ t : Term,
    (t.phrase dialect).fits = true ↔ StayWhole t.subterms
  | .column _ none _ | .column _ (some _) _ | .definition .. | .missing _ | .param _ | .interval ..
  | .wildcard | .literal .null | .literal (.bool true) | .literal (.bool false)
  | .literal (.integer _) | .literal (.real _) | .literal (.text _) | .literal (.blob _)
  | .literal (.timestamp _) | .inNothing true | .inNothing false | .logical _ [] =>
    ⟨fun _ => List.forall_mem_singleton.mpr rfl, fun _ => rfl⟩
  | .override _ _ body => by
    rw [stayWhole_subterms rfl, Term.phrase, fits_grouped _ (body.isMark_phrase dialect)]
    exact body.fits_phrase
  | .call function args => by
    have hname : (Term.call function args).staysWhole = isFunctionName function := rfl
    rw [Term.phrase, fits, Bool.and_eq_true, fitsAll_phrases, fits_phrases args, ← hname]
    exact stayWhole_cons.symm
  | .binary op left right => by
    have hright := right.strength_operand dialect
    rw [stayWhole_subterms rfl, Term.phrase, Term.fits_leftOperand dialect _ left hright,
      fits_grouped _ (right.isMark_phrase dialect), left.fits_phrase, right.fits_phrase]
    exact stayWhole_append.symm
  | .logical _ [operand] => by
    rw [stayWhole_subterms rfl, Term.phrase, operand.fits_phrase]
    exact (List.append_nil operand.subterms).symm ▸ Iff.rfl
  | .logical op (first :: second :: rest) => by
    have hstrength : ∀ b ∈ grouped first.needsGrouping (first.phrase dialect) ::
        grouped second.needsGrouping (second.phrase dialect) :: operandPhrases dialect rest,
          (Connector.logical op).strength < b.strength :=
      strength_operandPhrases dialect op (first :: second :: rest)
    rw [stayWhole_subterms rfl, Term.phrase, fits_chained (List.cons_ne_nil _ _) hstrength,
      List.forall_mem_cons, List.forall_mem_cons, fits_grouped _ (first.isMark_phrase dialect),
      fits_grouped _ (second.isMark_phrase dialect), first.fits_phrase, second.fits_phrase,
      fits_operandPhrases rest, ← stayWhole_append, ← stayWhole_append]
    exact Iff.rfl
  | .not operand => by
    have hstrength : 2 ≤ (grouped operand.isComposite (operand.phrase dialect)).strength := by
      rw [operand.strength_operand]
      decide
    rw [stayWhole_subterms rfl, Term.phrase, fits, Bool.and_eq_true,
      fits_grouped _ (operand.isMark_phrase dialect), operand.fits_phrase]
    exact and_iff_left (decide_eq_true hstrength)
  | .isNull negated operand => by
    rw [stayWhole_subterms rfl, Term.phrase, Term.fits_leftOperand dialect _ operand rfl,
      operand.fits_phrase]
    exact and_iff_left rfl
  | .inChunks negated [] => ⟨nofun, fun h => absurd (stayWhole_cons.mp h).1 nofun⟩
  | .inChunks negated (chunk :: chunks) => by
    have hmark : (chained (.logical (if negated then .and else .or))
        (chunkPhrases dialect negated (chunk :: chunks))).isMark = false := isMark_foldl _ rfl _
    rw [stayWhole_subterms rfl, Term.phrase, fits_grouped _ hmark,
      fits_chained (chunkPhrases_ne_nil dialect negated (List.cons_ne_nil _ _))
        (strength_chunkPhrases dialect negated _ _)]
    exact fits_chunkPhrases negated (chunk :: chunks)
  | .inArray negated operand values => by
    have hvalues : (bracketed (some (if negated then "ALL" else "ANY"))
        [leaf (.param (.value (.array values)))]).fits = true := by cases negated <;> rfl
    rw [stayWhole_subterms rfl, Term.phrase, Term.fits_leftOperand dialect _ operand rfl,
      operand.fits_phrase]
    exact and_iff_left hvalues
  | .inTerms negated operand items => by
    rw [stayWhole_subterms rfl, Term.phrase, Term.fits_leftOperand dialect _ operand rfl, fits,
      fitsAll_phrases, operand.fits_phrase, fits_phrases items]
    exact stayWhole_append.symm
  | .inQuery negated operand query => by
    rw [stayWhole_subterms rfl, Term.phrase, Term.fits_leftOperand dialect _ operand rfl, fits,
      operand.fits_phrase, fits_queryPhrases query]
    exact stayWhole_append.symm
  | .caseWhen operand branches otherwise => by
    rw [stayWhole_subterms rfl, Term.phrase, fits, fitsAll_append (fitsAll_else
        (isMark_optionalPhrase dialect otherwise)).1,
      fitsAll_append (startsMarked_branchPhrases dialect branches),
      fitsAll_toList (isMark_optionalPhrase dialect operand),
      (fitsAll_else (isMark_optionalPhrase dialect otherwise)).2, fits_optionalPhrase operand,
      fits_branchPhrases branches, fits_optionalPhrase otherwise, ← stayWhole_append,
      ← stayWhole_append]
    exact Iff.rfl
  | .search .matches [] _ | .search .rank [] _ =>
    ⟨nofun, fun h => absurd (stayWhole_cons.mp h).1 nofun⟩
  | .search mode (column :: columns) query => by
    have hwhole : (Term.search mode (column :: columns) query).staysWhole = true ↔
        ∀ a ∈ phrases dialect (column :: columns), 3 ≤ a.strength :=
      staysWhole_search dialect mode query (List.cons_ne_nil _ _)
    rw [Term.phrase, fits_search mode query (phrases_ne_nil dialect (List.cons_ne_nil _ _)),
      forall₂_and, ← hwhole, fits_phrases (column :: columns), and_comm]
    exact stayWhole_cons.symm
  | .temporal op operand => by
    rw [stayWhole_subterms rfl, Term.phrase, fits_temporal _ _ (operand.isMark_phrase dialect)]
    exact operand.fits_phrase
  | .subquery query => by
    rw [stayWhole_subterms rfl, Term.phrase, fits]
    exact fits_queryPhrases query
  | .existsRow query => by
    rw [stayWhole_subterms rfl, Term.phrase, fits_function rfl]
    exact fits_queryPhrases query

theorem fits_phrases : ∀ ts : List Term,
    (∀ a ∈ phrases dialect ts, a.fits = true) ↔ StayWhole (innerAll ts)
  | [] => ⟨fun _ => nofun, fun _ => nofun⟩
  | t :: ts => by
    rw [phrases, List.forall_mem_cons, t.fits_phrase, fits_phrases ts]
    exact stayWhole_append.symm

theorem fits_operandPhrases : ∀ ts : List Term,
    (∀ a ∈ operandPhrases dialect ts, a.fits = true) ↔ StayWhole (innerAll ts)
  | [] => ⟨fun _ => nofun, fun _ => nofun⟩
  | t :: ts => by
    rw [operandPhrases, List.forall_mem_cons, fits_grouped _ (t.isMark_phrase dialect),
      t.fits_phrase, fits_operandPhrases ts]
    exact stayWhole_append.symm

theorem fits_optionalPhrase : ∀ t? : Option Term,
    (∀ a ∈ optionalPhrase dialect t?, a.fits = true) ↔ StayWhole (innerOptional t?)
  | none => ⟨fun _ => nofun, fun _ => nofun⟩
  | some t => forall_mem_some.trans t.fits_phrase

theorem fits_chunkPhrases (negated : Bool) : ∀ chunks : List (Term × List Value),
    (∀ a ∈ chunkPhrases dialect negated chunks, a.fits = true) ↔ StayWhole (innerChunks chunks)
  | [] => ⟨fun _ => nofun, fun _ => nofun⟩
  | (operand, values) :: rest => by
    rw [chunkPhrases, List.forall_mem_cons, Term.fits_leftOperand dialect _ operand rfl, fits,
      operand.fits_phrase, fits_chunkPhrases negated rest, and_iff_left (fitsAll_values values)]
    exact stayWhole_append.symm

theorem fits_branchPhrases : ∀ branches : List (Term × Term),
    fitsAll (branchPhrases dialect branches) = true ↔ StayWhole (innerBranches branches)
  | [] => ⟨fun _ => nofun, fun _ => rfl⟩
  | (condition, result) :: rest => by
    have hbranch : fitsAll [mark .whenWord, condition.phrase dialect, mark .thenWord,
        result.phrase dialect] = true ↔
          (condition.phrase dialect).fits = true ∧ (result.phrase dialect).fits = true := by
      rw [fitsAll_mark, fitsAll_expression (condition.isMark_phrase dialect), fitsAll_mark,
        fitsAll_singleton (result.isMark_phrase dialect)]
      exact ⟨fun h => ⟨h.2.1, h.2.2.2.2⟩, fun h => ⟨rfl, h.1, rfl, rfl, h.2⟩⟩
    rw [branchPhrases, fitsAll_append (startsMarked_branchPhrases dialect rest), hbranch,
      condition.fits_phrase, result.fits_phrase, fits_branchPhrases rest, ← stayWhole_append,
      ← stayWhole_append]
    exact Iff.rfl

theorem fits_outputPhrases (labelled : Bool) : ∀ columns : List (FieldExprOf Term),
    (∀ item ∈ outputPhrases dialect labelled columns, fitsAll item = true) ↔
      StayWhole (innerOutput columns)
  | [] => ⟨fun _ => nofun, fun _ => nofun⟩
  | { field, expr } :: rest => by
    have hcolumn : fitsAll (expr.phrase dialect ::
        if labelled then [word "AS", leaf (.identifier field)] else []) = true ↔
          (expr.phrase dialect).fits = true := by
      rw [fitsAll_expression (expr.isMark_phrase dialect)]
      cases labelled <;> exact and_iff_left ⟨rfl, rfl⟩
    rw [outputPhrases, List.forall_mem_cons, hcolumn, expr.fits_phrase,
      fits_outputPhrases labelled rest]
    exact stayWhole_append.symm

theorem fits_joinPhrases : ∀ joins : List (JoinedTableOf Term),
    fitsAll (joinPhrases dialect joins) = true ↔ StayWhole (innerJoins joins)
  | [] => ⟨fun _ => nofun, fun _ => rfl⟩
  | { kind, item, on } :: rest => by
    have hitem : fitsAll (join kind ++ table item) = true := fitsAll_join kind item
    have hon : fitsAll [word "ON", on.phrase dialect] = true ↔
        (on.phrase dialect).fits = true := by
      rw [fitsAll_clauseWord rfl (by decide), fitsAll_singleton (on.isMark_phrase dialect)]
    rw [joinPhrases, fitsAll_append (startsMarked_joinPhrases dialect rest), fitsAll_append rfl,
      and_iff_right hitem, hon, on.fits_phrase, fits_joinPhrases rest]
    exact stayWhole_append.symm

theorem fits_sortKeyPhrases : ∀ keys : List (SortKeyOf Term),
    (∀ item ∈ sortKeyPhrases dialect keys, fitsAll item = true) ↔ StayWhole (innerSortKeys keys)
  | [] => ⟨fun _ => nofun, fun _ => nofun⟩
  | { expr, descending } :: rest => by
    have hkey : fitsAll [expr.phrase dialect, word (if descending then "DESC" else "ASC")] = true ↔
        (expr.phrase dialect).fits = true := by
      rw [fitsAll_expression (expr.isMark_phrase dialect)]
      cases descending <;> exact and_iff_left ⟨rfl, rfl⟩
    rw [sortKeyPhrases, List.forall_mem_cons, hkey, expr.fits_phrase, fits_sortKeyPhrases rest]
    exact stayWhole_append.symm

theorem fits_resultPhrases (labelled : Bool) : ∀ columns? : Option (List (FieldExprOf Term)),
    (∀ items ∈ resultPhrases dialect labelled columns?, ∀ item ∈ items, fitsAll item = true) ↔
      StayWhole (innerResults columns?)
  | none => ⟨fun _ => nofun, fun _ => nofun⟩
  | some columns => forall_mem_some.trans (fits_outputPhrases labelled columns)

theorem fits_groupingPhrases : ∀ ts? : Option (List Term),
    (∀ items ∈ groupingPhrases dialect ts?, ∀ item ∈ items, fitsAll item = true) ↔
      StayWhole (innerGrouping ts?)
  | none => ⟨fun _ => nofun, fun _ => nofun⟩
  | some ts => by
    refine forall_mem_some.trans (Iff.trans ?_ (fits_phrases ts))
    rw [← fitsAll_listed, fitsAll_phrases]

theorem fits_orderingPhrases : ∀ keys? : Option (List (SortKeyOf Term)),
    (∀ items ∈ orderingPhrases dialect keys?, ∀ item ∈ items, fitsAll item = true) ↔
      StayWhole (innerOrdering keys?)
  | none => ⟨fun _ => nofun, fun _ => nofun⟩
  | some keys => forall_mem_some.trans (fits_sortKeyPhrases keys)

/-- The contents of a query fit if and only if all terms inside it stay whole. -/
theorem fits_queryPhrases : ∀ q : QueryOf Term,
    fitsAll (queryPhrases dialect q) = true ↔ StayWhole (innerQuery q)
  | { counted, labelled, distinct, output, tables, joins, filter, grouping, ordering, limit,
      locking, .. } => by
    have hjoins : fitsAll (sources tables (joinPhrases dialect joins)) = true ↔
        StayWhole (if tables.isEmpty then [] else innerJoins joins) := by
      rw [fitsAll_sources tables (startsMarked_joinPhrases dialect joins), fits_joinPhrases joins]
      cases tables.isEmpty with
      | true => exact ⟨fun _ => nofun, fun _ => nofun⟩
      | false => exact ⟨fun h => h rfl, fun h _ => h⟩
    have hfilter : (∀ c ∈ (optionalPhrase dialect filter).map ([·]), fitsAll c = true) ↔
        StayWhole (innerOptional filter) := by
      rw [← fits_optionalPhrase filter]
      exact fitsAll_optional (isMark_optionalPhrase dialect filter)
    rw [queryPhrases, fitsAll_query _ _ _ _ (startsMarked_sources _ _),
      fits_resultPhrases labelled output, hjoins, hfilter, fits_groupingPhrases grouping,
      fits_orderingPhrases ordering]
    unfold innerQuery
    simp only [stayWhole_append, and_assoc]

end

end

end RecordStore
