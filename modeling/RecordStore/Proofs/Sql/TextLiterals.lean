import RecordStore.Compiler

/-! # Text literals as databases read them

A database reads a text literal up to the quote that closes it.  A quote that is written twice
stands for one quote everywhere.  MySQL, as it is configured from the start, also takes a backslash
as the beginning of an escape (`Dialect.readText`).

Text is written with its quotes doubled and its backslashes as they are.  It is read back as the
same text in every dialect, except in MySQL where it has a backslash that the database does not keep
(`Compiler.text_read_back`). -/

namespace RecordStore

open Text

namespace Dialect

/-- A backslash inside a text literal begins an escape. -/
def escapesByBackslash : Dialect → Bool
  | mysql => true
  | generic | sqlite | postgres => false

/-- What an escape of this character stands for.  The backslash is kept before the wildcards of
patterns, and dropped before any other character that has no meaning of its own. -/
def escaped : Char → List Char
  | '0' => ['\x00']
  | 'b' => ['\x08']
  | 'n' => ['\n']
  | 'r' => ['\r']
  | 't' => ['\t']
  | 'Z' => ['\x1a']
  | '%' => ['\\', '%']
  | '_' => ['\\', '_']
  | c => [c]

/-- The rest of a text literal after its opening quote, and what follows the closing one; nothing if
it is not closed. -/
def readText (dialect : Dialect) : List Char → Option (List Char × List Char)
  | [] => none
  | [c] => if c = '\x27' then some ([], []) else none
  | c :: c' :: rest =>
    if c = '\x27' then
      if c' = '\x27' then (dialect.readText rest).map (Prod.map (c :: ·) id)
      else some ([], c' :: rest)
    else if c = '\\' ∧ dialect.escapesByBackslash then
      (dialect.readText rest).map (Prod.map (escaped c' ++ ·) id)
    else (dialect.readText (c' :: rest)).map (Prod.map (c :: ·) id)

/-- The value of the text literal that a text begins with, and what follows the literal. -/
def readLiteral (dialect : Dialect) (text : String) : Option (String × String) :=
  match text.toList with
  | [] => none
  | c :: cs =>
    if c = '\x27' then (dialect.readText cs).map (Prod.map String.ofList String.ofList) else none

end Dialect

/-- Every backslash stands before a wildcard of patterns. -/
def keepsBackslashes : List Char → Bool
  | [] => true
  | c :: cs => (c != '\\' || cs.head? == some '%' || cs.head? == some '_') && keepsBackslashes cs

namespace Dialect

variable {dialect : Dialect} {c : Char} {cs s rest : List Char}

/-! ### Reading character by character -/

theorem map_eq_some {read? : Option (List Char × List Char)} {f : List Char → List Char} :
    read?.map (Prod.map f id) = some (s, rest) ↔
      ∃ read, read? = some (read, rest) ∧ f read = s := by
  simp only [Option.map_eq_some_iff, Prod.exists, Prod.map_apply, id, Prod.mk.injEq]
  constructor
  · rintro ⟨read, left, hread, hs, rfl⟩
    exact ⟨read, hread, hs⟩
  · rintro ⟨read, hread, hs⟩
    exact ⟨read, rest, hread, hs, rfl⟩

theorem readText_closing (h : rest.head? ≠ some '\x27') :
    dialect.readText ('\x27' :: rest) = some ([], rest) := by
  cases rest with
  | nil => rfl
  | cons c cs =>
      have hc : c ≠ '\x27' := fun heq => h (congrArg some heq)
      rw [readText, if_pos rfl, if_neg hc]

theorem readText_doubled (dialect : Dialect) (cs : List Char) :
    dialect.readText ('\x27' :: '\x27' :: cs) =
      (dialect.readText cs).map (Prod.map ('\x27' :: ·) id) := by
  rw [readText, if_pos rfl, if_pos rfl]

theorem readText_escape (h : dialect.escapesByBackslash = true) :
    dialect.readText ('\\' :: c :: cs) =
      (dialect.readText cs).map (Prod.map (escaped c ++ ·) id) := by
  rw [readText, if_neg (by decide), if_pos ⟨rfl, h⟩]

theorem readText_plain (hquote : c ≠ '\x27')
    (hescape : ¬ (c = '\\' ∧ dialect.escapesByBackslash = true)) :
    dialect.readText (c :: cs) = (dialect.readText cs).map (Prod.map (c :: ·) id) := by
  cases cs with
  | nil => exact if_neg hquote
  | cons c' cs => rw [readText, if_neg hquote, if_neg hescape]

/-! ### Text between quotes -/

/-- A text as it is written up to its closing quote, and what follows that. -/
def written (s rest : List Char) : List Char := s.flatMap (doubled '\x27') ++ '\x27' :: rest

theorem written_quote (s rest : List Char) :
    written ('\x27' :: s) rest = '\x27' :: '\x27' :: written s rest := rfl

theorem written_cons (h : c ≠ '\x27') (s rest : List Char) :
    written (c :: s) rest = c :: written s rest := by
  unfold written
  rw [List.flatMap_cons, doubled, if_neg h]
  rfl

theorem length_written (s rest : List Char) :
    (written s rest).length = s.length + s.count '\x27' + rest.length + 1 := by
  induction s with
  | nil => simp [written]
  | cons c cs ih =>
      by_cases hquote : c = '\x27'
      · subst hquote
        rw [written_quote, List.count_cons_self]
        simp only [List.length_cons, ih]
        omega
      · rw [written_cons hquote, List.count_cons_of_ne hquote]
        simp only [List.length_cons, ih]
        omega

/-- Text is read back if it has no backslash that is not kept. -/
theorem readText_of_keepsBackslashes (hrest : rest.head? ≠ some '\x27') (s : List Char)
    (hs : dialect.escapesByBackslash = true → keepsBackslashes s = true) :
    dialect.readText (written s rest) = some (s, rest) := by
  induction s with
  | nil => exact readText_closing hrest
  | cons c cs ih =>
      have ih := ih fun h => (Bool.and_eq_true_iff.mp (hs h)).2
      by_cases hquote : c = '\x27'
      · subst hquote
        rw [written_quote, readText_doubled, ih]
        rfl
      · rw [written_cons hquote]
        by_cases hescape : c = '\\' ∧ dialect.escapesByBackslash = true
        · obtain ⟨rfl, hescapes⟩ := hescape
          -- The wildcard is read together with the backslash, and again on its own in `ih`.
          obtain ⟨w, cs', rfl, hw⟩ : ∃ w cs', cs = w :: cs' ∧ (w = '%' ∨ w = '_') := by
            have hhead := (Bool.and_eq_true_iff.mp (hs hescapes)).1
            cases cs with
            | nil => cases hhead
            | cons w cs' => exact ⟨w, cs', rfl, by simpa using hhead⟩
          have hplain : w ≠ '\x27' ∧ w ≠ '\\' ∧ escaped w = ['\\', w] := by
            rcases hw with rfl | rfl <;> decide
          rw [written_cons hplain.1] at ih ⊢
          rw [readText_plain hplain.1 fun h => hplain.2.1 h.1, map_eq_some] at ih
          obtain ⟨read, hread, heq⟩ := ih
          rw [readText_escape hescapes, map_eq_some]
          refine ⟨read, hread, ?_⟩
          rw [hplain.2.2, ← heq]
          rfl
        · rw [readText_plain hquote hescape, ih]
          rfl

/-! ### Text that is read as another one -/

theorem length_escaped (c : Char) : (escaped c).length + (escaped c).count '\x27' ≤ 2 := by
  unfold escaped
  split <;> simp [List.count_singleton]
  split <;> omega

/-- A quote in the value takes two characters of the text. -/
theorem length_of_readText {cs : List Char} (h : dialect.readText cs = some (s, rest)) :
    s.length + s.count '\x27' + rest.length < cs.length := by
  fun_induction readText dialect cs generalizing s rest with
  | case1 => cases h
  | case2 => cases h; decide
  | case3 => cases h
  | case4 cs ih =>
      obtain ⟨read, hread, rfl⟩ := map_eq_some.mp h
      have hlt := ih hread
      simp only [List.length_cons, List.count_cons_self]
      omega
  | case5 c cs hquote =>
      cases h
      simp
  | case6 c c' cs hquote hescape ih =>
      obtain ⟨read, hread, rfl⟩ := map_eq_some.mp h
      have hlt := ih hread
      have hescaped := length_escaped c'
      simp only [List.length_cons, List.length_append, List.count_append]
      omega
  | case7 c c' cs hquote hescape ih =>
      obtain ⟨read, hread, rfl⟩ := map_eq_some.mp h
      have hlt := ih hread
      rw [List.count_cons_of_ne hquote]
      simp only [List.length_cons] at hlt ⊢
      omega

/-- An escape stands for a text that begins with a backslash in three cases. -/
theorem escaped_eq_backslash {c : Char} {cs cs' : List Char}
    (h : escaped c ++ cs = '\\' :: cs') :
    (c = '\\' ∧ cs = cs') ∨ ((c = '%' ∨ c = '_') ∧ c :: cs = cs') := by
  unfold escaped at h
  split at h <;> simp_all

/-- Text that is read back has no backslash that is not kept. -/
theorem keepsBackslashes_of_readText (hescapes : dialect.escapesByBackslash = true) :
    ∀ s : List Char, dialect.readText (written s rest) = some (s, rest) →
      keepsBackslashes s = true
  | [], _ => rfl
  | c :: cs, h => by
    by_cases hquote : c = '\x27'
    · subst hquote
      rw [written_quote, readText_doubled, map_eq_some] at h
      obtain ⟨read, hread, heq⟩ := h
      rw [List.tail_eq_of_cons_eq heq] at hread
      exact keepsBackslashes_of_readText hescapes cs hread
    · rw [written_cons hquote] at h
      by_cases hslash : c = '\\'
      · subst hslash
        cases cs with
        | nil =>
            -- The backslash takes the closing quote away.
            change dialect.readText ('\\' :: '\x27' :: rest) = _ at h
            rw [readText_escape hescapes, map_eq_some] at h
            obtain ⟨read, -, heq⟩ := h
            rcases escaped_eq_backslash heq with ⟨h, -⟩ | ⟨h | h, -⟩ <;> cases h
        | cons c' cs =>
            by_cases hquote' : c' = '\x27'
            · subst hquote'
              rw [written_quote, readText_escape hescapes, map_eq_some] at h
              obtain ⟨read, -, heq⟩ := h
              rcases escaped_eq_backslash heq with ⟨h, -⟩ | ⟨h | h, -⟩ <;> cases h
            · rw [written_cons hquote', readText_escape hescapes, map_eq_some] at h
              obtain ⟨read, hread, heq⟩ := h
              rcases escaped_eq_backslash heq with ⟨rfl, rfl⟩ | ⟨hw, heq⟩
              · -- The rest of the text is too short for the second backslash.
                have hlt := length_of_readText hread
                rw [length_written, List.count_cons_of_ne (by decide), List.length_cons] at hlt
                omega
              · rw [List.tail_eq_of_cons_eq heq] at hread
                have hkept := keepsBackslashes_of_readText hescapes cs hread
                rcases hw with rfl | rfl <;> exact hkept
      · rw [readText_plain hquote fun hescape => hslash hescape.1, map_eq_some] at h
        obtain ⟨read, hread, heq⟩ := h
        rw [List.tail_eq_of_cons_eq heq] at hread
        have hkept := keepsBackslashes_of_readText hescapes cs hread
        rw [keepsBackslashes, hkept, Bool.and_true, bne_iff_ne.mpr hslash]
        rfl

/-- A text literal is read back exactly if the dialect takes no backslash for an escape or the text
has only backslashes that are kept. -/
theorem readLiteral_quoted (dialect : Dialect) (s : String) {rest : String}
    (hrest : rest.toList.head? ≠ some '\x27') :
    dialect.readLiteral (Literal.quoted s ++ rest) = some (s, rest) ↔
      (dialect.escapesByBackslash = true → keepsBackslashes s.toList = true) := by
  have htext : (Literal.quoted s ++ rest).toList = '\x27' :: written s.toList rest.toList := by
    unfold Literal.quoted delimited written
    simp
  have hread : dialect.readLiteral (Literal.quoted s ++ rest) = some (s, rest) ↔
      dialect.readText (written s.toList rest.toList) = some (s.toList, rest.toList) := by
    unfold readLiteral
    rw [htext]
    dsimp only
    rw [if_pos rfl, Option.map_eq_some_iff]
    constructor
    · rintro ⟨⟨read, left⟩, hread, heq⟩
      obtain ⟨rfl, rfl⟩ := Prod.mk.inj heq
      simpa using hread
    · intro hread
      exact ⟨_, hread, by simp⟩
  rw [hread]
  exact ⟨fun h hescapes => keepsBackslashes_of_readText hescapes _ h,
    fun h => readText_of_keepsBackslashes hrest _ h⟩

end Dialect

/-- A text that is written into a statement is read back as this text by the database, whatever
follows it but another quote, except that in MySQL this takes a text whose backslashes are kept. -/
theorem Compiler.text_read_back (c : Compiler) (s : String) {rest : String}
    (hrest : rest.toList.head? ≠ some '\x27') :
    ∃ text, Compiler.expr (.literal (.text s)) c =
        .ok () { c with tokens := c.tokens ++ [.text text] } ∧
      (c.dialect.readLiteral (text ++ rest) = some (s, rest) ↔
        (c.dialect = .mysql → keepsBackslashes s.toList = true)) := by
  have hmysql : c.dialect.escapesByBackslash = true ↔ c.dialect = .mysql := by
    cases c.dialect <;> decide
  refine ⟨Literal.quoted s, rfl, ?_⟩
  rw [c.dialect.readLiteral_quoted s hrest, hmysql]

namespace Sample

/-- A text with a quote and a backslash that MySQL keeps. -/
theorem discount_read_back : " AND 1 = 1".toList.head? ≠ some '\x27' ∧
    ∃ text, Compiler.expr (.literal (.text "100\\% 'off'")) { dialect := .mysql } =
        .ok () { dialect := .mysql, tokens := [.text text] } ∧
      Dialect.mysql.readLiteral (text ++ " AND 1 = 1") =
        some ("100\\% 'off'", " AND 1 = 1") := by
  have hrest : " AND 1 = 1".toList.head? ≠ some '\x27' := by decide
  obtain ⟨text, hexpr, hread⟩ :=
    Compiler.text_read_back { dialect := .mysql } "100\\% 'off'" hrest
  exact ⟨hrest, text, hexpr, hread.mpr fun _ => by decide⟩

/-- In MySQL a backslash before a quote lets a text leave its literal. -/
theorem alternative_left_over :
    Compiler.expr (.literal (.text "\\' OR 1 = 1 -- ")) { dialect := .mysql } =
        .ok () { dialect := .mysql, tokens := [.text "'\\'' OR 1 = 1 -- '"] } ∧
      Dialect.mysql.readLiteral "'\\'' OR 1 = 1 -- '" = some ("'", " OR 1 = 1 -- '") := by
  constructor
  · rfl
  · decide

end Sample

end RecordStore
