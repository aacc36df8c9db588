import Mathlib.Data.Nat.Digits.Lemmas
import RecordStore.Time.Written

/-! # Instants told apart by their text

A day is counted again from its date (`Date.toDays_ofDays`), and numbers of a fixed width are told
apart by their digits (`padded_inj`).  So the text of an instant with a fraction in milliseconds
says which minute it is in, which second of the minute, a leap second being second 60, and which
millisecond of that, and nothing finer (`Instant.write_millis_inj`). -/

namespace RecordStore

/-! ### Days and dates -/

namespace Date

/-- A day is found in a cycle of 400 years by a year of the cycle and a day of this year, both of
which begin in March. -/
theorem year_of_day {day year century dayOfCentury : Int} (hcentury : 0 ≤ century ∧ century ≤ 3)
    (hrest : 0 ≤ dayOfCentury ∧ dayOfCentury < 36524) (hday : day = 36524 * century + dayOfCentury)
    (hyear : year = (day - day / 1460 + century) / 365) :
    (0 ≤ year ∧ year ≤ 399) ∧ 0 ≤ day - (365 * year + year / 4 - year / 100) ∧
      day - (365 * year + year / 4 - year / 100) ≤ 365 := by
  have hcenturies : year / 100 = century := by omega
  have hleaps : year / 4 = 25 * century + dayOfCentury / 1461 := by omega
  refine ⟨by omega, by omega, by omega⟩

/-- The last day of a cycle is the only one that does not belong to a full century. -/
theorem year_of_dayOfCycle {day year : Int} (hday : 0 ≤ day ∧ day < cycleDays)
    (hyear : year = (day - day / 1460 + day / 36524 - day / 146096) / 365) :
    (0 ≤ year ∧ year ≤ 399) ∧ 0 ≤ day - (365 * year + year / 4 - year / 100) ∧
      day - (365 * year + year / 4 - year / 100) ≤ 365 := by
  unfold cycleDays at hday
  by_cases hlast : day = 146096
  · subst hlast
    subst hyear
    decide
  · have hcentury : 0 ≤ day / 36524 ∧ day / 36524 ≤ 3 := by omega
    have hrest : 0 ≤ day % 36524 ∧ day % 36524 < 36524 := by omega
    refine year_of_day hcentury hrest (by omega) ?_
    rw [hyear, show day / 146096 = 0 by omega, sub_zero]

/-- The date of a day, by its cycle, the year of this and the day of the year. -/
theorem exists_ofDays (days : Int) : ∃ cycle year dayOfYear : Int,
    days + epochShift = cycle * cycleDays + (year * 365 + year / 4 - year / 100 + dayOfYear) ∧
      (0 ≤ year ∧ year ≤ 399) ∧ (0 ≤ dayOfYear ∧ dayOfYear ≤ 365) ∧
      let monthFromMarch := (5 * dayOfYear + 2) / 153
      let month := if monthFromMarch < 10 then monthFromMarch + 3 else monthFromMarch - 9
      ofDays days =
        ⟨year + cycle * 400 + if month ≤ 2 then 1 else 0, month.toNat,
          (dayOfYear - (153 * monthFromMarch + 2) / 5 + 1).toNat⟩ := by
  have hcycle : 0 ≤ (days + epochShift) % cycleDays ∧
      (days + epochShift) % cycleDays < cycleDays := by
    unfold cycleDays
    omega
  obtain ⟨hyear, hday⟩ := year_of_dayOfCycle hcycle rfl
  refine ⟨(days + epochShift) / cycleDays, _, _, ?_, hyear, hday, rfl⟩
  have hdiv := Int.mul_ediv_add_emod (days + epochShift) cycleDays
  rw [mul_comm cycleDays] at hdiv
  omega

/-- Months and days have two digits. -/
theorem ofDays_lt (days : Int) : (ofDays days).month < 100 ∧ (ofDays days).day < 100 := by
  obtain ⟨cycle, year, dayOfYear, -, -, hday, hdate⟩ := exists_ofDays days
  rw [hdate]
  dsimp only
  constructor
  · split <;> omega
  · omega

/-- A day has the number that is counted from its date. -/
theorem toDays_ofDays (days : Int) : (ofDays days).toDays = days := by
  obtain ⟨cycle, year, dayOfYear, hdays, hyear, hday, hdate⟩ := exists_ofDays days
  rw [hdate]
  unfold toDays
  dsimp only
  generalize hmonth : (5 * dayOfYear + 2) / 153 = monthFromMarch
  unfold epochShift cycleDays at *
  by_cases hspring : monthFromMarch < 10
  · simp only [if_pos hspring]
    rw [if_neg (show ¬ monthFromMarch + 3 ≤ 2 by omega),
      if_neg (show ¬ (monthFromMarch + 3).toNat ≤ 2 by omega),
      if_neg (show ¬ (monthFromMarch + 3).toNat ≤ 2 by omega)]
    omega
  · simp only [if_neg hspring]
    rw [if_pos (show monthFromMarch - 9 ≤ 2 by omega),
      if_pos (show (monthFromMarch - 9).toNat ≤ 2 by omega),
      if_pos (show (monthFromMarch - 9).toNat ≤ 2 by omega)]
    omega

end Date

/-! ### Numbers of a fixed width -/

theorem length_padded {width n : Nat} (hwidth : 0 < width) (h : n < 10 ^ width) :
    (padded width n).length = width := by
  have hle : (Nat.toDigits 10 n).length ≤ width :=
    (Nat.length_toDigits_le_iff (by decide) hwidth).mpr h
  unfold padded
  rw [List.length_append, List.length_replicate]
  omega

theorem ofDigitChars_padded (width n : Nat) : Nat.ofDigitChars 10 (padded width n) 0 = n := by
  unfold padded
  rw [Nat.ofDigitChars_append, Nat.ofDigitChars_replicate_zero, Nat.mul_zero,
    Nat.ofDigitChars_toDigits (by decide) (by decide)]

theorem padded_inj {width n m : Nat} : padded width n = padded width m ↔ n = m := by
  constructor
  · intro h
    rw [← ofDigitChars_padded width n, h, ofDigitChars_padded]
  · rintro rfl
    rfl

theorem isDigit_of_mem_padded {width n : Nat} {c : Char} (h : c ∈ padded width n) :
    c.isDigit = true := by
  rcases List.mem_append.mp h with h | h
  · rw [List.eq_of_mem_replicate h]
    rfl
  · exact Nat.isDigit_of_mem_toDigits (by decide) (by decide) h

/-- What begins with a sign is no number of a fixed width. -/
theorem padded_ne_cons {width n : Nat} {sign : Char} {cs : List Char} (h : sign.isDigit = false) :
    padded width n ≠ sign :: cs := by
  intro heq
  have hdigit := isDigit_of_mem_padded (heq ▸ List.mem_cons_self : sign ∈ padded width n)
  rw [h] at hdigit
  cases hdigit

namespace Instant

theorem writeYear_inj {year year' : Int} : writeYear year = writeYear year' ↔ year = year' := by
  constructor
  · intro h
    have hsign (y : Int) : (if y < 0 then '-' else '+' : Char).isDigit = false := by
      split <;> rfl
    unfold writeYear at h
    by_cases hplain : 0 ≤ year ∧ year ≤ 9999
    · rw [if_pos hplain] at h
      by_cases hplain' : 0 ≤ year' ∧ year' ≤ 9999
      · rw [if_pos hplain', padded_inj] at h
        omega
      · rw [if_neg hplain'] at h
        exact absurd h (padded_ne_cons (hsign year'))
    · rw [if_neg hplain] at h
      by_cases hplain' : 0 ≤ year' ∧ year' ≤ 9999
      · rw [if_pos hplain'] at h
        exact absurd h.symm (padded_ne_cons (hsign year))
      · rw [if_neg hplain', List.cons.injEq, padded_inj] at h
        obtain ⟨hsigns, habs⟩ := h
        by_cases hneg : year < 0 <;> by_cases hneg' : year' < 0
        · omega
        · rw [if_pos hneg, if_neg hneg'] at hsigns
          cases hsigns
        · rw [if_neg hneg, if_pos hneg'] at hsigns
          cases hsigns
        · omega
  · rintro rfl
    rfl

/-! ### Fields of an instant -/

variable (t : Instant)

theorem secondOfDay_lt : t.secondOfDay < 86400 := by
  unfold secondOfDay
  omega

theorem hour_lt : t.hour < 100 := by
  have := t.secondOfDay_lt
  unfold hour
  omega

theorem minute_lt : t.minute < 100 := by
  unfold minute
  omega

theorem second_lt : t.second < 100 := by
  have := t.nanos_lt
  unfold second
  omega

theorem fraction_lt : t.fraction / 1_000_000 < 1000 := by
  unfold fraction
  omega

variable {t} {t' : Instant}

/-- The date, the hour and the minute of the hour say which minute it is. -/
theorem minute_inj : (t.date = t'.date ∧ t.hour = t'.hour ∧ t.minute = t'.minute) ↔
    t.seconds / 60 = t'.seconds / 60 := by
  constructor
  · rintro ⟨hdate, hhour, hminute⟩
    have hdays : t.seconds / 86400 = t'.seconds / 86400 := by
      rw [← Date.toDays_ofDays (t.seconds / 86400), ← Date.toDays_ofDays (t'.seconds / 86400)]
      exact congrArg Date.toDays hdate
    unfold hour secondOfDay at hhour
    unfold minute secondOfDay at hminute
    omega
  · intro h
    have hdays : t.seconds / 86400 = t'.seconds / 86400 := by omega
    refine ⟨congrArg Date.ofDays hdays, ?_, ?_⟩
    · unfold hour secondOfDay
      omega
    · unfold minute secondOfDay
      omega

/-- Instants are written alike with a fraction in milliseconds exactly if they are in one minute and
have the same second of it and the same millisecond of the second. -/
theorem write_millis_inj {offset : OffsetStyle} :
    t.write .millis offset = t'.write .millis offset ↔
      t.seconds / 60 = t'.seconds / 60 ∧ t.second = t'.second ∧
        t.fraction / 1_000_000 = t'.fraction / 1_000_000 := by
  constructor
  · intro h
    have h := String.ofList_injective h
    have hwidth {n m : Nat} {c : Char} (hn : n < 100) (hm : m < 100) :
        (c :: padded 2 n).length = (c :: padded 2 m).length := by
      rw [List.length_cons, List.length_cons, length_padded (by decide) hn,
        length_padded (by decide) hm]
    have hfractionWidth : (writeFraction .millis t.fraction).length =
        (writeFraction .millis t'.fraction).length := by
      unfold writeFraction
      rw [List.length_cons, List.length_cons, length_padded (by decide) t.fraction_lt,
        length_padded (by decide) t'.fraction_lt]
    have hdate := Date.ofDays_lt (t.seconds / 86400)
    have hdate' := Date.ofDays_lt (t'.seconds / 86400)
    -- Everything after the year has a fixed width, so the parts are taken off from the right.
    obtain ⟨h, -⟩ := List.append_inj' h rfl
    obtain ⟨h, hfraction⟩ := List.append_inj' h hfractionWidth
    obtain ⟨h, hsecond⟩ := List.append_inj' h (hwidth t.second_lt t'.second_lt)
    obtain ⟨h, hminute⟩ := List.append_inj' h (hwidth t.minute_lt t'.minute_lt)
    obtain ⟨h, hhour⟩ := List.append_inj' h (hwidth t.hour_lt t'.hour_lt)
    obtain ⟨h, hday⟩ := List.append_inj' h (hwidth hdate.2 hdate'.2)
    obtain ⟨hyear, hmonth⟩ := List.append_inj' h (hwidth hdate.1 hdate'.1)
    rw [writeYear_inj] at hyear
    unfold writeFraction at hfraction
    simp only [List.cons.injEq, true_and, padded_inj] at hfraction hsecond hminute hhour hday hmonth
    have hdate : t.date = t'.date := Date.mk.injEq .. |>.mpr ⟨hyear, hmonth, hday⟩
    exact ⟨minute_inj.mp ⟨hdate, hhour, hminute⟩, hsecond, hfraction⟩
  · rintro ⟨hminutes, hsecond, hfraction⟩
    obtain ⟨hdate, hhour, hminute⟩ := minute_inj.mpr hminutes
    unfold write writeFraction
    rw [hdate, hhour, hminute, hsecond, hfraction]

end Instant

end RecordStore
