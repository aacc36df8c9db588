import Mathlib
import RecordStore.Proofs.Sql.TextLiterals
import RecordStore.Proofs.Time.WrittenInstants

/-! # Values told apart by their literals

Integers, texts and blobs are written into a statement in full, so two of them are written alike
only if they are equal.  Instants are written to the millisecond: instants with the same minute, the
same second of it and the same millisecond of that have one literal, and no others have
(`Compiler.literals_apart`). -/

namespace RecordStore

namespace Literal

/-- Quotes are doubled, so that a text between quotes says which text it is. -/
theorem quoted_inj {s t : String} : quoted s = quoted t ↔ s = t := by
  constructor
  · intro h
    have hread (s : String) : Dialect.generic.readLiteral (quoted s ++ "") = some (s, "") :=
      (Dialect.readLiteral_quoted .generic s (by decide)).mpr nofun
    have hboth := hread s
    rw [h, hread t] at hboth
    exact congrArg Prod.fst (Option.some.inj hboth.symm)
  · rintro rfl
    rfl

theorem hexDigit_inj {n m : Nat} (hn : n < 16) (hm : m < 16) (h : hexDigit n = hexDigit m) :
    n = m := by
  have hall : ∀ n < 16, ∀ m < 16, hexDigit n = hexDigit m → n = m := by decide
  exact hall n hn m hm h

theorem hexByte_inj {b b' : UInt8} : hexByte b = hexByte b' ↔ b = b' := by
  constructor
  · intro h
    unfold hexByte at h
    obtain ⟨hhigh, hlow⟩ := List.cons_eq_cons.mp h
    have hb := b.toNat_lt
    have hb' := b'.toNat_lt
    have hhigh := hexDigit_inj (by omega) (by omega) hhigh
    have hlow := hexDigit_inj (by omega) (by omega) (List.cons_eq_cons.mp hlow).1
    exact UInt8.toNat_inj.mp (by omega)
  · rintro rfl
    rfl

/-- Each byte has two digits, so the digits of a blob say which bytes it has. -/
theorem hexBytes_inj {bytes bytes' : List UInt8} :
    bytes.flatMap hexByte = bytes'.flatMap hexByte ↔ bytes = bytes' := by
  constructor
  · intro h
    induction bytes generalizing bytes' with
    | nil =>
        cases bytes' with
        | nil => rfl
        | cons b' bytes' => cases h
    | cons b bytes ih =>
        cases bytes' with
        | nil => cases h
        | cons b' bytes' =>
            rw [List.flatMap_cons, List.flatMap_cons] at h
            obtain ⟨hbyte, hbytes⟩ := List.append_inj h rfl
            rw [hexByte_inj.mp hbyte, ih hbytes]
  · rintro rfl
    rfl

end Literal

namespace Value

/-- The values are instants of one minute, of one second in this minute as it is written, and of one
millisecond of this second. -/
def SameMillisecond (v w : Value) : Prop :=
  ∃ t t' : Instant, v = timestamp t ∧ w = timestamp t' ∧ t.seconds / 60 = t'.seconds / 60 ∧
    t.second = t'.second ∧ t.fraction / 1_000_000 = t'.fraction / 1_000_000

/-- Only instants are ever of one millisecond. -/
theorem eq_or_sameMillisecond_iff {v w : Value} (h : v.type ≠ .timestamp) :
    v = w ∨ v.SameMillisecond w ↔ v = w := by
  refine or_iff_left ?_
  rintro ⟨t, t', rfl, -⟩
  exact h rfl

theorem timestamp_eq_or_sameMillisecond_iff {t t' : Instant} :
    timestamp t = timestamp t' ∨ (timestamp t).SameMillisecond (timestamp t') ↔
      t.seconds / 60 = t'.seconds / 60 ∧ t.second = t'.second ∧
        t.fraction / 1_000_000 = t'.fraction / 1_000_000 := by
  constructor
  · rintro (h | ⟨u, u', h, h', hsame⟩)
    · cases h
      exact ⟨rfl, rfl, rfl⟩
    · cases h
      cases h'
      exact hsame
  · exact fun h => .inr ⟨t, t', rfl, rfl, h⟩

end Value

/-- Two integers, texts, blobs or instants are written into a statement by one text each, whatever
the dialect, and the texts are the same exactly if the values are equal or instants of one
millisecond. -/
theorem Compiler.literals_apart {v w : Value} (htype : v.type = w.type)
    (hwritten : v.type ∈ [.integer, .text, .blob, .timestamp]) :
    ∃ text text' : String,
      (∀ c : Compiler, Compiler.expr (.literal v) c =
        .ok () { c with tokens := c.tokens ++ [.text text] }) ∧
      (∀ c : Compiler, Compiler.expr (.literal w) c =
        .ok () { c with tokens := c.tokens ++ [.text text'] }) ∧
      (text = text' ↔ v = w ∨ v.SameMillisecond w) := by
  cases v with
  | null | bool | real | array => simp [Value.type] at hwritten
  | integer n =>
      cases w with
      | integer m =>
          refine ⟨_, _, fun c => rfl, fun c => rfl, ?_⟩
          rw [Value.eq_or_sameMillisecond_iff (fun h => by cases h), Value.integer.injEq,
            ← Int64.toInt_inj]
          exact Int.repr_inj
      | _ => cases htype
  | text s =>
      cases w with
      | text t =>
          refine ⟨_, _, fun c => rfl, fun c => rfl, ?_⟩
          rw [Value.eq_or_sameMillisecond_iff (fun h => by cases h), Value.text.injEq]
          exact Literal.quoted_inj
      | _ => cases htype
  | blob bytes =>
      cases w with
      | blob bytes' =>
          refine ⟨_, _, fun c => rfl, fun c => rfl, ?_⟩
          rw [Value.eq_or_sameMillisecond_iff (fun h => by cases h), Value.blob.injEq,
            ← Literal.hexBytes_inj]
          exact (String.append_right_inj _).trans (Literal.quoted_inj.trans String.ofList_inj)
      | _ => cases htype
  | timestamp t =>
      cases w with
      | timestamp t' =>
          refine ⟨_, _, fun c => rfl, fun c => rfl, ?_⟩
          rw [Value.timestamp_eq_or_sameMillisecond_iff, ← Instant.write_millis_inj]
          exact Literal.quoted_inj
      | _ => cases htype

namespace Sample

/-- The last second of 2016, which a leap second follows, after a number of nanoseconds. -/
def endOf2016 (nanos : Nat) (h : nanos < 2_000_000_000) : Instant :=
  ⟨1483228799, nanos, h, by decide, by decide⟩

/-- A leap second has another literal than the second before it. -/
theorem leap_second_apart :
    ∃ text text' : String, text ≠ text' ∧
      ∀ c : Compiler,
        Compiler.expr (.literal (.timestamp (endOf2016 500_000_000 (by decide)))) c =
          .ok () { c with tokens := c.tokens ++ [.text text] } ∧
        Compiler.expr (.literal (.timestamp (endOf2016 1_500_000_000 (by decide)))) c =
          .ok () { c with tokens := c.tokens ++ [.text text'] } := by
  obtain ⟨text, text', htext, htext', hsame⟩ := Compiler.literals_apart
    (v := .timestamp (endOf2016 500_000_000 (by decide)))
    (w := .timestamp (endOf2016 1_500_000_000 (by decide))) rfl (by decide)
  refine ⟨text, text', fun heq => ?_, fun c => ⟨htext c, htext' c⟩⟩
  rw [hsame, Value.timestamp_eq_or_sameMillisecond_iff] at heq
  exact absurd heq.2.1 (by decide)

/-- Half past twelve on a day in March, after a whole second in nanoseconds. -/
def afterHalfPast : Instant := ⟨1709296200, 1_000_000_000, by decide, by decide, by decide⟩

/-- The second after half past twelve on this day. -/
def nextSecond : Instant := ⟨1709296201, 0, Instant.epoch.nanos_lt, by decide, by decide⟩

/-- Instants that are a nanosecond apart are different values with one literal, and so are a second
and the one before it after a whole second in nanoseconds. -/
theorem nanosecond_lost :
    (Value.timestamp (endOf2016 0 (by decide)) ≠ .timestamp (endOf2016 1 (by decide)) ∧
      ∀ c : Compiler,
        Compiler.expr (.literal (.timestamp (endOf2016 0 (by decide)))) c =
          .ok () { c with tokens := c.tokens ++ [.text "'2016-12-31T23:59:59.000Z'"] } ∧
        Compiler.expr (.literal (.timestamp (endOf2016 1 (by decide)))) c =
          .ok () { c with tokens := c.tokens ++ [.text "'2016-12-31T23:59:59.000Z'"] }) ∧
    Value.timestamp afterHalfPast ≠ .timestamp nextSecond ∧
      ∀ c : Compiler,
        Compiler.expr (.literal (.timestamp afterHalfPast)) c =
          .ok () { c with tokens := c.tokens ++ [.text "'2024-03-01T12:30:01.000Z'"] } ∧
        Compiler.expr (.literal (.timestamp nextSecond)) c =
          .ok () { c with tokens := c.tokens ++ [.text "'2024-03-01T12:30:01.000Z'"] } := by
  refine ⟨⟨by decide, fun c => ⟨?_, ?_⟩⟩, by decide, fun c => ⟨?_, ?_⟩⟩ <;> rfl

end Sample

end RecordStore
