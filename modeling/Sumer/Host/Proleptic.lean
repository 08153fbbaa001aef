import Sumer.Host.Calendar

set_option relaxedAutoImplicit false
set_option autoImplicit false

/-!
# The host's calendar in all years

`civil_from_days` and `days_from_civil` (`core/host/src/time.rs`) on every day count and every year,
those before the year zero too.

## Main results

* `Sumer.Host.isDate_civilFromDays`, `Sumer.Host.daysFromCivil_civilFromDays`: every day count is
  that of a date.
* `Sumer.Host.civilFromDays_succ`: the next day count is that of the next date.
* `Sumer.Host.civilFromDays_daysFromCivil_iff_isDate`: the round trip from a date.
-/

namespace Sumer.Host

open Gregorian

section Places

variable {year month day : ℤ}

/-- A date has its place in an era.

**Proof sketch.** From March on, the year is split by 400, 100 and 4; January and February belong to
the year before. The bounds of the place are those of the remainders, and the last day of a cycle
needs a leap year. -/
lemma exists_inEra_of_isDate (h : IsDate (year, month, day)) :
    ∃ era century cycle inCycle march, InEra century cycle inCycle march day ∧
      year = 400 * era + 100 * century + 4 * cycle + inCycle + (if march ≤ 9 then 0 else 1) ∧
      month = if march ≤ 9 then march + 3 else march - 9 := by
  obtain ⟨hmonth, hday, hshort, hfebruary, hleap⟩ := isDate_iff.mp h
  unfold IsLeapYear at hleap
  by_cases hmarch : 3 ≤ month
  · refine ⟨year / 400, year % 400 / 100, year % 100 / 4, year % 4, month - 3,
      ⟨by omega, by omega, by omega, by omega, by omega, by omega, by omega, by omega⟩, ?_, ?_⟩
    · rw [if_pos (by omega)]
      omega
    · rw [if_pos (by omega)]
      omega
  · refine ⟨(year - 1) / 400, (year - 1) % 400 / 100, (year - 1) % 100 / 4, (year - 1) % 4,
      month + 9, ⟨by omega, by omega, by omega, by omega, by omega, by omega, by omega, ?_⟩, ?_, ?_⟩
    · intro hlast hday
      have := hleap (by omega) (by omega)
      omega
    · rw [if_neg (by omega)]
      omega
    · rw [if_neg (by omega)]
      omega

/-- What a place in an era is, is a date. -/
lemma InEra.isDate {century cycle inCycle march era : ℤ} (h : InEra century cycle inCycle march day)
    (hyear : year = 400 * era + 100 * century + 4 * cycle + inCycle +
      (if march ≤ 9 then 0 else 1))
    (hmonth : month = if march ≤ 9 then march + 3 else march - 9) :
    IsDate (year, month, day) := by
  obtain ⟨hcenturies, hcycles, hyears, hmonths, hdays, hshort, hfebruary, hleap⟩ := h
  rw [isDate_iff, IsLeapYear]
  split_ifs at hyear hmonth with hmarch
  · exact ⟨by omega, by omega, by omega, by omega, by omega⟩
  · refine ⟨by omega, by omega, by omega, by omega, fun hmonth' hday => ?_⟩
    have := hleap (by omega) (by omega)
    omega

/-- A day count has its place in an era. -/
lemma exists_inEra_of_days (days : ℤ) :
    ∃ era century cycle inCycle march day, InEra century cycle inCycle march day ∧
      days = era * 146097 + dayOfEra century cycle inCycle march day - 719468 := by
  obtain ⟨century, cycle, inCycle, march, day, hplace, hday⟩ :=
    @exists_inEra ((days + 719468) % 146097) (by omega)
  exact ⟨(days + 719468) / 146097, century, cycle, inCycle, march, day, hplace, by omega⟩

end Places

/-- **Every day count is that of a date.** -/
lemma isDate_civilFromDays (days : ℤ) : IsDate (civilFromDays days) := by
  obtain ⟨era, century, cycle, inCycle, march, day, hplace, rfl⟩ := exists_inEra_of_days days
  rw [hplace.civilFromDays_eq]
  exact hplace.isDate rfl rfl

/-- **The day count of its date is the day count.** -/
lemma daysFromCivil_civilFromDays (days : ℤ) :
    daysFromCivil (civilFromDays days).1 (civilFromDays days).2.1 (civilFromDays days).2.2 =
      days := by
  obtain ⟨era, century, cycle, inCycle, march, day, hplace, rfl⟩ := exists_inEra_of_days days
  rw [hplace.civilFromDays_eq]
  exact hplace.daysFromCivil_eq era

/-- The date of the day count of a date is the date, and that of nothing else is what it was. -/
lemma civilFromDays_daysFromCivil_iff_isDate {year month day : ℤ} :
    civilFromDays (daysFromCivil year month day) = (year, month, day) ↔
      IsDate (year, month, day) := by
  constructor
  · intro heq
    exact heq ▸ isDate_civilFromDays _
  · intro h
    obtain ⟨era, century, cycle, inCycle, march, hplace, rfl, rfl⟩ := exists_inEra_of_isDate h
    rw [hplace.daysFromCivil_eq, hplace.civilFromDays_eq]

/-- The dates of the years from zero on. -/
lemma isDate_natCast_iff {year month day : ℕ} :
    IsDate ((year : ℤ), (month : ℤ), (day : ℤ)) ↔ Valid year month day := by
  rw [isDate_iff, valid_iff, IsLeapYear]
  omega

/-- The day count in closed form, years from March on. -/
lemma daysFromCivil_closed {year month : ℤ} (hmonth : 1 ≤ month ∧ month ≤ 12) (day : ℤ) :
    daysFromCivil year month day =
      365 * (year - if month ≤ 2 then 1 else 0) + (year - if month ≤ 2 then 1 else 0) / 4 -
        (year - if month ≤ 2 then 1 else 0) / 100 + (year - if month ≤ 2 then 1 else 0) / 400 +
        (153 * (if month > 2 then month - 3 else month + 9) + 2) / 5 + day - 1 - 719468 := by
  unfold daysFromCivil
  dsimp only
  generalize year - (if month ≤ 2 then 1 else 0) = y
  have hyoe : 0 ≤ y - y / 400 * 400 := by omega
  have hmp : 0 ≤ 153 * (if month > 2 then month - 3 else month + 9) + 2 := by
    split_ifs <;> omega
  rw [Int.tdiv_eq_ediv_of_nonneg hyoe, Int.tdiv_eq_ediv_of_nonneg hyoe,
    Int.tdiv_eq_ediv_of_nonneg hmp]
  generalize (153 * (if month > 2 then month - 3 else month + 9) + 2) / 5 = march
  have hfourth : (y - y / 400 * 400) / 4 = y / 4 - 100 * (y / 400) := by omega
  have hhundredth : (y - y / 400 * 400) / 100 = y / 100 - 4 * (y / 400) := by omega
  omega

/-- The leap days of all years up to one. -/
lemma leap_days (year : ℤ) :
    year / 4 - year / 100 + year / 400 = (year - 1) / 4 - (year - 1) / 100 + (year - 1) / 400 +
      if IsLeapYear year then 1 else 0 := by
  unfold IsLeapYear
  split_ifs <;> omega

/-- The next date is one day later.

**Proof sketch.** Within a month the day number grows by one with the day. At the end of a month it
grows by one more than the days of that month allow, which is what the closed form gives; only
February depends on the year, and a leap day belongs to the year that ends with it. At the end of
December the next year begins. -/
lemma daysFromCivil_nextDay {date : ℤ × ℤ × ℤ} (h : IsDate date) :
    daysFromCivil (nextDay date).1 (nextDay date).2.1 (nextDay date).2.2 =
      daysFromCivil date.1 date.2.1 date.2.2 + 1 := by
  obtain ⟨year, month, day⟩ := date
  obtain ⟨hmonth, hday, hlast⟩ := h
  simp only at hmonth hday hlast
  simp only [nextDay]
  split_ifs with hshort hyear
  · rw [daysFromCivil_closed hmonth, daysFromCivil_closed hmonth]
    ring
  · obtain rfl : day = monthLength year month := by omega
    rw [daysFromCivil_closed hmonth, @daysFromCivil_closed year (month + 1) (by omega), monthLength]
    obtain ⟨hlow, -⟩ := hmonth
    have hleap := leap_days year
    clear hday hlast hshort
    by_cases hfebruary : month = 2
    · -- a leap day belongs to the year that ends in February
      subst hfebruary
      simp only [if_true, le_refl] at hleap ⊢
      by_cases hyes : IsLeapYear year
      · simp [hyes] at hleap ⊢
        omega
      · simp [hyes] at hleap ⊢
        omega
    · interval_cases month <;> simp at hfebruary ⊢ <;> omega
  · obtain rfl : month = 12 := by omega
    obtain rfl : day = 31 := by
      have h31 : monthLength year 12 = 31 := rfl
      omega
    rw [@daysFromCivil_closed (year + 1) 1 (by decide),
      @daysFromCivil_closed year 12 (by decide)]
    simp
    ring

/-- **The next day count is that of the next date.** -/
lemma civilFromDays_succ (days : ℤ) :
    civilFromDays (days + 1) = nextDay (civilFromDays days) := by
  have hdate := isDate_civilFromDays days
  have hnext := daysFromCivil_nextDay hdate
  rw [daysFromCivil_civilFromDays] at hnext
  exact hnext ▸ civilFromDays_daysFromCivil_iff_isDate.mpr (isDate_nextDay hdate)

/-- Later day counts have later dates, in the order of year, month and day. -/
lemma strictMono_civilFromDays : StrictMono fun days : ℤ =>
    toLex ((civilFromDays days).1, toLex (civilFromDays days).2) := by
  refine strictMono_int_of_lt_succ fun days => ?_
  simp only [civilFromDays_succ]
  exact lt_nextDay _

end Sumer.Host
