import Sumer.Host.Time
import Sumer.Lib.Gregorian

set_option relaxedAutoImplicit false
set_option autoImplicit false

/-!
# The host's calendar

`days_from_civil` and `civil_from_days` (`core/host/src/time.rs`) count days from a year that
begins in March, in eras of four hundred years. On the dates that exist they are the Gregorian
day count and its inverse, and what the second returns is always a date that exists.

## Main definitions

* `Sumer.Host.InEra`: a day of an era, by century, leap cycle, year, month and day.

## Main results

* `Sumer.Host.daysFromCivil_eq`: the day count is the Gregorian one.
* `Sumer.Host.civilFromDays_daysFromCivil_iff`: the round trip holds exactly of the dates that
  exist.
-/

namespace Sumer.Host

open Gregorian

/-- A day of an era that begins on the first of March: the century, the leap cycle in it, the year
in that, the month from March on and the day. The last day of February is a leap day. -/
structure InEra (century cycle year month day : ℤ) : Prop where
  centuries : 0 ≤ century ∧ century ≤ 3
  cycles : 0 ≤ cycle ∧ cycle ≤ 24
  years : 0 ≤ year ∧ year ≤ 3
  months : 0 ≤ month ∧ month ≤ 11
  days : 1 ≤ day ∧ day ≤ 31
  short : month = 1 ∨ month = 3 ∨ month = 6 ∨ month = 8 → day ≤ 30
  february : month = 11 → day ≤ 29
  leap : month = 11 → day = 29 → year = 3 ∧ (cycle ≠ 24 ∨ century = 3)

/-- The number of a day in its era. -/
def dayOfEra (century cycle year month day : ℤ) : ℤ :=
  36524 * century + 1461 * cycle + 365 * year + ((153 * month + 2) / 5 + day - 1)

section InEra

variable {century cycle year month day : ℤ}

/-- The days of a year from March on. -/
lemma InEra.dayOfYear (h : InEra century cycle year month day) :
    0 ≤ (153 * month + 2) / 5 + day - 1 ∧ (153 * month + 2) / 5 + day - 1 ≤ 365 ∧
      ((153 * month + 2) / 5 + day - 1 = 365 → year = 3 ∧ (cycle ≠ 24 ∨ century = 3)) ∧
      (5 * ((153 * month + 2) / 5 + day - 1) + 2) / 153 = month := by
  obtain ⟨-, -, -, hmonth, hday, hshort, hfebruary, hleap⟩ := h
  have hlast : month ≤ 10 ∨ month = 11 := by omega
  rcases hlast with hlast | rfl
  · obtain ⟨hlow, -⟩ := hmonth
    interval_cases month <;> omega
  · have := hfebruary rfl
    refine ⟨by omega, by omega, fun heq => hleap rfl (by omega), by omega⟩

/-- A day lies in its era: its number is one of the 146097 of it. -/
lemma InEra.dayOfEra_bounds (h : InEra century cycle year month day) :
    0 ≤ dayOfEra century cycle year month day ∧
      dayOfEra century cycle year month day ≤ 146096 := by
  obtain ⟨hlow, hhigh, hlast, -⟩ := h.dayOfYear
  obtain ⟨hcentury, hcycle, hyear, -⟩ := h
  unfold dayOfEra
  generalize (153 * month + 2) / 5 + day - 1 = doy at hlow hhigh hlast
  rcases hhigh.eq_or_lt with rfl | hhigh
  · have := hlast rfl
    omega
  · omega

/-- The year of a day in its era: the days of the leap years and centuries gone by are taken
off.

**Proof sketch.** The three quotients count the leap days and the last days of centuries that have
gone by: they come to the centuries, the cycles of four years and the years before the day. Only the
very last day of an era completes a fourth century, and that is taken off. -/
lemma InEra.yearOfEra (h : InEra century cycle year month day) {doe : ℤ}
    (hdoe : doe = dayOfEra century cycle year month day) :
    (doe - doe / 1460 + doe / 36524 - doe / 146096) / 365 = 100 * century + 4 * cycle + year := by
  obtain ⟨hlow, hhigh, hlast, -⟩ := h.dayOfYear
  obtain ⟨hcentury, hcycle, hyear, -⟩ := h
  unfold dayOfEra at hdoe
  generalize (153 * month + 2) / 5 + day - 1 = doy at hdoe hlow hhigh hlast
  -- only the last day of an era completes a fourth century
  have hend : doe = 146096 ∧ century = 3 ∨ 1461 * cycle + 365 * year + doy ≤ 36523 := by
    rcases hhigh.eq_or_lt with heq | hlt
    · have := hlast heq
      omega
    · right
      omega
  have hcenturies : doe / 36524 - doe / 146096 = century := by
    rcases hend with ⟨rfl, rfl⟩ | hend
    · decide
    · have hcentury' : doe / 36524 = century := by omega
      omega
  have hcycles : doe / 1460 = 25 * century + cycle +
      if 1460 ≤ 24 * century + cycle + 365 * year + doy then 1 else 0 := by
    split_ifs <;> omega
  split_ifs at hcycles <;> omega

/-- A year that is taken apart into an era, a century of it and the years of that is not a negative
one, since the parts are not. -/
lemma InEra.yearOfEra_nonneg (h : InEra century cycle year month day) :
    0 ≤ 100 * century + 4 * cycle + year := by
  obtain ⟨hcenturies, hcycles, hyears, -⟩ := h
  omega

/-- The leap years and the centuries gone by in an era. -/
lemma InEra.leaps (h : InEra century cycle year month day) :
    (100 * century + 4 * cycle + year) / 4 = 25 * century + cycle ∧
      (100 * century + 4 * cycle + year) / 100 = century := by
  obtain ⟨hcenturies, hcycles, hyears, -⟩ := h
  omega

/-- Every day of an era has its place.

**Proof sketch.** The day of the era is divided by the days of a century, of a cycle and of a year,
where the last of each is longer by a day; what is left is the day of the year, which is divided by
the months. -/
lemma exists_inEra {doe : ℤ} (h : 0 ≤ doe ∧ doe ≤ 146096) :
    ∃ century cycle year month day, InEra century cycle year month day ∧
      doe = dayOfEra century cycle year month day := by
  -- the last century, and the last year of a cycle, are one day longer
  let century := min (doe / 36524) 3
  let cycle := (doe - 36524 * century) / 1461
  let inCycle := doe - 36524 * century - 1461 * cycle
  let year := min (inCycle / 365) 3
  obtain ⟨doy, hdoy⟩ : ∃ doy, doy = inCycle - 365 * year := ⟨_, rfl⟩
  have hyears : doe = 36524 * century + 1461 * cycle + 365 * year + doy := by omega
  have hbounds : (0 ≤ century ∧ century ≤ 3) ∧ (0 ≤ cycle ∧ cycle ≤ 24) ∧ (0 ≤ year ∧ year ≤ 3) ∧
      (0 ≤ doy ∧ doy ≤ 365) ∧ (doy = 365 → year = 3 ∧ (cycle ≠ 24 ∨ century = 3)) := by omega
  obtain ⟨hcentury, hcycle, hyear, hrange, hlast⟩ := hbounds
  clear_value century cycle year
  refine ⟨century, cycle, year, (5 * doy + 2) / 153,
    doy - (153 * ((5 * doy + 2) / 153) + 2) / 5 + 1,
    ⟨hcentury, hcycle, hyear, by omega, by omega, by omega, by omega, fun _ _ => ?_⟩, ?_⟩
  · exact hlast (by omega)
  · rw [dayOfEra]
    omega

/-- The date of a day of an era. A year begins in March, so that its last two months are those of
the next calendar year.

**Proof sketch.** The day of the era determines the year of the era (`InEra.yearOfEra`), and what is
left of it is the day of the year, of which the month and the day are read off in the same way. All
quantities are non-negative, so that truncated division is the integer one, and the divisions come
out exact. -/
lemma InEra.civilFromDays_eq (h : InEra century cycle year month day) (era : ℤ) :
    civilFromDays (era * 146097 + dayOfEra century cycle year month day - 719468) =
      (400 * era + 100 * century + 4 * cycle + year + (if month ≤ 9 then 0 else 1),
        if month ≤ 9 then month + 3 else month - 9, day) := by
  generalize hdoe : dayOfEra century cycle year month day = doe
  have hyear := h.yearOfEra hdoe.symm
  obtain ⟨hlow, hhigh⟩ := hdoe ▸ h.dayOfEra_bounds
  have hdoy : doe - (365 * (100 * century + 4 * cycle + year) + (25 * century + cycle) - century) =
      (153 * month + 2) / 5 + day - 1 := by
    rw [← hdoe, dayOfEra]
    ring
  clear hdoe
  obtain ⟨hfourths, hhundredths⟩ := h.leaps
  obtain ⟨hdlow, -, -, hmonth⟩ := h.dayOfYear
  have hyoe := h.yearOfEra_nonneg
  have hmonths := h.months
  have hera : (era * 146097 + doe - 719468 + 719468) / 146097 = era := by
    clear * - hlow hhigh
    omega
  have hrest : era * 146097 + doe - 719468 + 719468 - era * 146097 = doe := by ring
  have hpos : 0 ≤ doe - doe / 1460 + doe / 36524 - doe / 146096 := by
    clear * - hlow hhigh
    omega
  have hscaled : 0 ≤ 5 * ((153 * month + 2) / 5 + day - 1) + 2 := by linarith
  have hmonthDays : 0 ≤ 153 * month + 2 := by linarith
  have hday : (153 * month + 2) / 5 + day - 1 - (153 * month + 2) / 5 + 1 = day := by ring
  have hlast : month < 10 ↔ month ≤ 9 := by
    clear * -
    omega
  simp only [civilFromDays, hera, hrest, Int.tdiv_eq_ediv_of_nonneg hlow,
    Int.tdiv_eq_ediv_of_nonneg hpos, hyear, Int.tdiv_eq_ediv_of_nonneg hyoe, hfourths,
    hhundredths, hdoy, Int.tdiv_eq_ediv_of_nonneg hscaled, hmonth,
    Int.tdiv_eq_ediv_of_nonneg hmonthDays, hday, hlast, Prod.mk.injEq, and_true]
  clear * - hmonths
  split_ifs <;> omega

/-- The day count of a date, by its place in its era.

**Proof sketch.** The year within the era, the leap days up to it and the months from March on are
what the source computes by division; the place in the era says what each quotient is. -/
lemma InEra.daysFromCivil_eq (h : InEra century cycle year month day) (era : ℤ) :
    daysFromCivil (400 * era + 100 * century + 4 * cycle + year + (if month ≤ 9 then 0 else 1))
        (if month ≤ 9 then month + 3 else month - 9) day =
      era * 146097 + dayOfEra century cycle year month day - 719468 := by
  obtain ⟨hfourths, hhundredths⟩ := h.leaps
  have hyoe := h.yearOfEra_nonneg
  obtain ⟨hcenturies, hcycles, hyears, hmonths, -⟩ := h
  have hyear : (400 * era + 100 * century + 4 * cycle + year + (if month ≤ 9 then 0 else 1)) -
      (if (if month ≤ 9 then month + 3 else month - 9) ≤ 2 then 1 else 0) =
      400 * era + (100 * century + 4 * cycle + year) := by
    split_ifs <;> omega
  have hmonth : (if (if month ≤ 9 then month + 3 else month - 9) > 2 then
      (if month ≤ 9 then month + 3 else month - 9) - 3
      else (if month ≤ 9 then month + 3 else month - 9) + 9) = month := by
    split_ifs <;> omega
  have hera : (400 * era + (100 * century + 4 * cycle + year)) / 400 = era := by omega
  have hrest : 400 * era + (100 * century + 4 * cycle + year) - era * 400 =
      100 * century + 4 * cycle + year := by omega
  have hmonthDays : 0 ≤ 153 * month + 2 := by omega
  simp only [daysFromCivil, hyear, hmonth, hera, hrest, Int.tdiv_eq_ediv_of_nonneg hyoe, hfourths,
    hhundredths, Int.tdiv_eq_ediv_of_nonneg hmonthDays, dayOfEra]
  ring

end InEra

/-- The dates of the calendar, in the terms of a year from March on. -/
lemma valid_iff {year month day : ℕ} :
    Valid year month day ↔ (1 ≤ month ∧ month ≤ 12) ∧ (1 ≤ day ∧ day ≤ 31) ∧
      (month = 4 ∨ month = 6 ∨ month = 9 ∨ month = 11 → day ≤ 30) ∧
      (month = 2 → day ≤ 29) ∧
      (month = 2 → day = 29 → year % 4 = 0 ∧ (year % 100 ≠ 0 ∨ year % 400 = 0)) := by
  rw [Valid, daysInMonth, ← isLeap_iff]
  by_cases hfebruary : month = 2
  · subst hfebruary
    by_cases hleap : isLeap year = true
    · simp [hleap]
      omega
    · simp [hleap]
      omega
  · by_cases hshort : month = 4 ∨ month = 6 ∨ month = 9 ∨ month = 11
    · simp [hfebruary, hshort]
      omega
    · simp [hfebruary, hshort]

/-- A date that exists has its place in an era.

**Proof sketch.** From March on, the year is split by 400, 100 and 4; January and February belong to
the year before. The bounds of the place are those of the remainders, and the last day of a cycle
needs a leap year. -/
lemma exists_inEra_of_valid {year month day : ℕ} (h : Valid year month day) :
    ∃ era century cycle inCycle march, InEra century cycle inCycle march day ∧
      (year : ℤ) = 400 * era + 100 * century + 4 * cycle + inCycle +
        (if march ≤ 9 then 0 else 1) ∧
      (month : ℤ) = if march ≤ 9 then march + 3 else march - 9 := by
  obtain ⟨hmonth, hday, hshort, hfebruary, hleap⟩ := valid_iff.mp h
  by_cases hmarch : 3 ≤ month
  · refine ⟨year / 400, year % 400 / 100, year % 100 / 4, year % 4, month - 3,
      ⟨by omega, by omega, by omega, by omega, by omega, by omega, by omega, by omega⟩, ?_, ?_⟩
    · rw [if_pos (by omega)]
      omega
    · rw [if_pos (by omega)]
      omega
  · refine ⟨((year : ℤ) - 1) / 400, ((year : ℤ) - 1) % 400 / 100, ((year : ℤ) - 1) % 100 / 4,
      ((year : ℤ) - 1) % 4, month + 9,
      ⟨by omega, by omega, by omega, by omega, by omega, by omega, by omega, ?_⟩, ?_, ?_⟩
    · intro hlast hday
      have := hleap (by omega) (by omega)
      omega
    · rw [if_neg (by omega)]
      omega
    · rw [if_neg (by omega)]
      omega

/-- What a place in an era is, is a date that exists. -/
lemma InEra.valid {century cycle inCycle march era : ℤ} {year month day : ℕ}
    (h : InEra century cycle inCycle march day)
    (hyear : (year : ℤ) = 400 * era + 100 * century + 4 * cycle + inCycle +
      (if march ≤ 9 then 0 else 1))
    (hmonth : (month : ℤ) = if march ≤ 9 then march + 3 else march - 9) :
    Valid year month day := by
  obtain ⟨hcenturies, hcycles, hyears, hmonths, hdays, hshort, hfebruary, hleap⟩ := h
  rw [valid_iff]
  split_ifs at hyear hmonth with hmarch
  · exact ⟨by omega, by omega, by omega, by omega, by omega⟩
  · refine ⟨by omega, by omega, by omega, by omega, fun hmonth' hday => ?_⟩
    have := hleap (by omega) (by omega)
    omega

/-- **The round trip holds exactly of the dates that exist.** -/
lemma civilFromDays_daysFromCivil_iff {year month day : ℕ} :
    civilFromDays (daysFromCivil year month day) = ((year : ℤ), (month : ℤ), (day : ℤ)) ↔
      Valid year month day := by
  constructor
  · intro heq
    set n := daysFromCivil year month day
    obtain ⟨century, cycle, inCycle, march, day', hplace, hday⟩ :=
      @exists_inEra ((n + 719468) % 146097) (by omega)
    have hn : n = (n + 719468) / 146097 * 146097 + dayOfEra century cycle inCycle march day' -
        719468 := by omega
    rw [hn, hplace.civilFromDays_eq, Prod.mk.injEq, Prod.mk.injEq] at heq
    obtain ⟨hyear, hmonth, rfl⟩ := heq
    exact hplace.valid hyear.symm hmonth.symm
  · intro h
    obtain ⟨era, century, cycle, inCycle, march, hplace, hyear, hmonth⟩ := exists_inEra_of_valid h
    rw [hyear, hmonth, hplace.daysFromCivil_eq, hplace.civilFromDays_eq]

/-- The day count of a date that exists is the Gregorian one, from the Unix epoch.

**Proof sketch.** A date has a place in an era, from which the count is computed in closed form. The
days before a year and before a month are computed in closed form too, and from March on and before
it the two agree. -/
lemma daysFromCivil_eq {year month day : ℕ} (h : Valid year month day) :
    daysFromCivil year month day = (dayNumber year month day : ℤ) - dayNumber 1970 1 1 := by
  have hepoch : dayNumber 1970 1 1 = 719528 := by
    rw [dayNumber, daysBeforeYear_eq]
    rfl
  obtain ⟨era, century, cycle, inCycle, march, hplace, hyear, hmonth⟩ := exists_inEra_of_valid h
  have hcount : daysFromCivil year month day =
      era * 146097 + dayOfEra century cycle inCycle march day - 719468 := by
    rw [hyear, hmonth, hplace.daysFromCivil_eq]
  obtain ⟨hcenturies, hcycles, hyears, hmonths, hdays, -⟩ := hplace
  have hday : 1 ≤ day := h.2.1
  rw [hcount, hepoch, dayNumber, dayOfEra]
  by_cases hmarch : march ≤ 9
  · rw [if_pos hmarch] at hyear hmonth
    have hrange : 3 ≤ month ∧ month ≤ 12 := by omega
    have hbefore := daysBeforeYear_add_leap year
    have hthis := @daysBeforeMonth_eq year month hrange
    omega
  · rw [if_neg hmarch] at hyear hmonth
    have hthis : daysBeforeMonth year month = 31 * (month - 1) := by
      obtain rfl | rfl : month = 1 ∨ month = 2 := by omega
      · rfl
      · rfl
    rw [hthis, daysBeforeYear_eq]
    omega

end Sumer.Host
