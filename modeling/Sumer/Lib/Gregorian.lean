import Mathlib.Tactic

set_option relaxedAutoImplicit false
set_option autoImplicit false

/-!
# The proleptic Gregorian calendar

The days since the first of January of the year zero, counted out year by year and month by
month.

## Main definitions

* `Gregorian.Valid`: the dates the calendar has.
* `Gregorian.dayNumber`: how many days precede a date.
* `Gregorian.IsDate`, `Gregorian.nextDay`: the dates of all years, before the year zero too, and the
  date after one.

## Main results

* `Gregorian.daysBeforeYear_eq`: the days before a year, in closed form.
-/

namespace Gregorian

/-- Every fourth year is a leap year, except every hundredth, except every four-hundredth. -/
def isLeap (year : ℕ) : Bool := year % 4 = 0 ∧ (year % 100 ≠ 0 ∨ year % 400 = 0)

/-- The days of a month. -/
def daysInMonth (year month : ℕ) : ℕ :=
  if month = 2 then if isLeap year then 29 else 28
  else if month = 4 ∨ month = 6 ∨ month = 9 ∨ month = 11 then 30
  else 31

/-- The days of a year. -/
def daysInYear (year : ℕ) : ℕ := if isLeap year then 366 else 365

/-- The dates that exist. -/
def Valid (year month day : ℕ) : Prop :=
  (1 ≤ month ∧ month ≤ 12) ∧ 1 ≤ day ∧ day ≤ daysInMonth year month

/-- Whether a date exists is decided by comparing its month and its day with their bounds. -/
instance (year month day : ℕ) : Decidable (Valid year month day) :=
  inferInstanceAs (Decidable (_ ∧ _))

/-- The days of all years before one. -/
def daysBeforeYear : ℕ → ℕ
  | 0 => 0
  | year + 1 => daysBeforeYear year + daysInYear year

/-- The days of the months of a year before one, months counted from `1`. -/
def daysBeforeMonth (year : ℕ) : ℕ → ℕ
  | 0 | 1 => 0
  | month + 1 => daysBeforeMonth year month + daysInMonth year month

/-- The days from the first of January of the year zero to a date. -/
def dayNumber (year month day : ℕ) : ℕ :=
  daysBeforeYear year + daysBeforeMonth year month + (day - 1)

variable {year month day : ℕ}

/-- The test a program makes of a leap year is the rule of the calendar: every fourth year, but of
the full centuries only every fourth. -/
lemma isLeap_iff : isLeap year = true ↔ year % 4 = 0 ∧ (year % 100 ≠ 0 ∨ year % 400 = 0) := by
  simp [isLeap]

/-- The months of a year add up to it. -/
example : daysBeforeMonth year 13 = daysInYear year := by
  by_cases h : isLeap year = true <;> simp [daysBeforeMonth, daysInMonth, daysInYear, h]

/-- The leap years before a year: the multiples of four, less those of a hundred, and those of
four hundred. -/
lemma daysBeforeYear_eq (year : ℕ) :
    daysBeforeYear year =
      365 * year + (year + 3) / 4 - (year + 99) / 100 + (year + 399) / 400 := by
  induction year with
  | zero => rfl
  | succ year ih =>
    rw [daysBeforeYear, ih, daysInYear]
    split_ifs with h <;> rw [isLeap_iff] at h <;> omega

/-- The same with the leap day of the year itself, for dates after it. -/
lemma daysBeforeYear_add_leap (year : ℕ) :
    daysBeforeYear year + (if isLeap year then 1 else 0) =
      365 * year + year / 4 - year / 100 + year / 400 + 1 := by
  have hnext := daysBeforeYear_eq (year + 1)
  have hfourth : (year + 1 + 3) / 4 = year / 4 + 1 := by omega
  have hhundredth : (year + 1 + 99) / 100 = year / 100 + 1 := by omega
  have hlast : (year + 1 + 399) / 400 = year / 400 + 1 := by omega
  have hle : year / 100 ≤ year / 4 := by omega
  rw [daysBeforeYear, daysInYear, hfourth, hhundredth, hlast] at hnext
  split_ifs at hnext ⊢ <;> omega

/-- The days before a month after February. -/
lemma daysBeforeMonth_eq (h : 3 ≤ month ∧ month ≤ 12) :
    daysBeforeMonth year month =
      (153 * (month - 3) + 2) / 5 + 59 + (if isLeap year then 1 else 0) := by
  obtain ⟨hlow, hhigh⟩ := h
  by_cases hleap : isLeap year = true <;> interval_cases month <;>
    simp [daysBeforeMonth, daysInMonth, hleap]

/-! ### All years -/

/-- The leap years, before the year zero too. -/
def IsLeapYear (year : ℤ) : Prop := year % 4 = 0 ∧ (year % 100 ≠ 0 ∨ year % 400 = 0)

/-- Whether a year is a leap year is decided by its remainders. -/
instance (year : ℤ) : Decidable (IsLeapYear year) := inferInstanceAs (Decidable (_ ∧ _))

/-- The days of a month. -/
def monthLength (year month : ℤ) : ℤ :=
  if month = 2 then if IsLeapYear year then 29 else 28
  else if month = 4 ∨ month = 6 ∨ month = 9 ∨ month = 11 then 30
  else 31

/-- The dates that exist, in any year. -/
def IsDate (date : ℤ × ℤ × ℤ) : Prop :=
  (1 ≤ date.2.1 ∧ date.2.1 ≤ 12) ∧ 1 ≤ date.2.2 ∧ date.2.2 ≤ monthLength date.1 date.2.1

/-- Whether a triple of integers is a date is decided by its bounds, as for the naturals. -/
instance (date : ℤ × ℤ × ℤ) : Decidable (IsDate date) := inferInstanceAs (Decidable (_ ∧ _))

/-- The date after a date. -/
def nextDay : ℤ × ℤ × ℤ → ℤ × ℤ × ℤ
  | (year, month, day) =>
    if day < monthLength year month then (year, month, day + 1)
    else if month < 12 then (year, month + 1, 1)
    else (year + 1, 1, 1)

section AllYears

variable {year month day : ℤ}

/-- Every month has 28 to 31 days, whatever its number and its year, so that the days of a month
never run over into the next but one. -/
lemma monthLength_bounds (year month : ℤ) :
    28 ≤ monthLength year month ∧ monthLength year month ≤ 31 := by
  unfold monthLength
  split_ifs <;> decide

/-- The dates of all years, by the months that are short. -/
lemma isDate_iff : IsDate (year, month, day) ↔
    (1 ≤ month ∧ month ≤ 12) ∧ (1 ≤ day ∧ day ≤ 31) ∧
      (month = 4 ∨ month = 6 ∨ month = 9 ∨ month = 11 → day ≤ 30) ∧
      (month = 2 → day ≤ 29) ∧ (month = 2 → day = 29 → IsLeapYear year) := by
  rw [IsDate, monthLength]
  by_cases hfebruary : month = 2
  · subst hfebruary
    by_cases hleap : IsLeapYear year
    · simp [hleap]
      omega
    · simp [hleap]
      omega
  · by_cases hshort : month = 4 ∨ month = 6 ∨ month = 9 ∨ month = 11
    · simp [hfebruary, hshort]
      omega
    · simp [hfebruary, hshort]

/-- After a date comes a date: the next day is within its month, or the first of the next one. -/
lemma isDate_nextDay {date : ℤ × ℤ × ℤ} (h : IsDate date) : IsDate (nextDay date) := by
  obtain ⟨year, month, day⟩ := date
  obtain ⟨⟨hlow, hhigh⟩, hday, hlast⟩ := h
  have hlength := monthLength_bounds year (month + 1)
  have hnext := monthLength_bounds (year + 1) 1
  simp only at hlow hhigh hday hlast
  simp only [nextDay]
  split_ifs with hshort hyear
  · exact ⟨⟨hlow, hhigh⟩, by simp only; omega, by simp only; omega⟩
  · exact ⟨⟨by simp only; omega, by simp only; omega⟩, le_rfl, by simp only; omega⟩
  · exact ⟨by simp, le_rfl, by simp only; omega⟩

/-- The date after a date is later: by its year, then its month, then its day. -/
lemma lt_nextDay (date : ℤ × ℤ × ℤ) :
    toLex (date.1, toLex date.2) < toLex ((nextDay date).1, toLex (nextDay date).2) := by
  obtain ⟨year, month, day⟩ := date
  simp only [nextDay, Prod.Lex.toLex_lt_toLex]
  split_ifs <;> simp

end AllYears

end Gregorian
