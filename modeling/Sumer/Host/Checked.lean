import Sumer.Host.Instant
import Sumer.Host.Proleptic
import Sumer.Lib.Machine

set_option relaxedAutoImplicit false
set_option autoImplicit false

/-!
# Instants in machine integers

`time::instant` (`core/host/src/time.rs`) once more, every result of its arithmetic put in the
type the source computes it in. On timestamps none of them overflows, and the outcome is the one
computed in unbounded integers. Indices into the text are at most nine past its length.

## Main definitions

* `Sumer.Host.Checked.instant`: the function, with every arithmetic result checked.

## Main results

* `Sumer.Host.Checked.instant_eq`: nothing overflows.
-/

namespace Sumer.Host.Checked

open Gregorian Sumer.Wire Machine

/-- `number`, in `i64`. -/
def number (bytes : List UInt8) : Except Overflow (Option ℤ) :=
  if bytes.isEmpty || !bytes.all isAsciiDigit then .ok none
  else do
    let n ← bytes.foldlM
      (fun n byte => do
        let shifted ← i64 (n * 10)
        i64 (shifted + (digitValue byte : ℤ)))
      0
    pure (some n)

/-- `civil_from_days`, in `i64`. -/
def civilFromDays (days : ℤ) : Except Overflow (ℤ × ℤ × ℤ) := do
  let z ← i64 (days + 719468)
  let era := z / 146097
  let eraDays ← i64 (era * 146097)
  let doe ← i64 (z - eraDays)
  let rest ← i64 (doe - doe.tdiv 1460)
  let rest ← i64 (rest + doe.tdiv 36524)
  let rest ← i64 (rest - doe.tdiv 146096)
  let yoe := rest.tdiv 365
  let eraYears ← i64 (era * 400)
  let y ← i64 (yoe + eraYears)
  let yearDays ← i64 (365 * yoe)
  let yearDays ← i64 (yearDays + yoe.tdiv 4)
  let yearDays ← i64 (yearDays - yoe.tdiv 100)
  let doy ← i64 (doe - yearDays)
  let scaled ← i64 (5 * doy)
  let scaled ← i64 (scaled + 2)
  let mp := scaled.tdiv 153
  let monthDays ← i64 (153 * mp)
  let monthDays ← i64 (monthDays + 2)
  let d ← i64 (doy - monthDays.tdiv 5)
  let d ← i64 (d + 1)
  let m ← if mp < 10 then i64 (mp + 3) else i64 (mp - 9)
  let y ← if m ≤ 2 then i64 (y + 1) else pure y
  pure (y, m, d)

/-- `days_from_civil`, in `i64`. -/
def daysFromCivil (year month day : ℤ) : Except Overflow ℤ := do
  let y ← i64 (year - (if month ≤ 2 then 1 else 0))
  let era := y / 400
  let eraYears ← i64 (era * 400)
  let yoe ← i64 (y - eraYears)
  let mp ← if month > 2 then i64 (month - 3) else i64 (month + 9)
  let monthDays ← i64 (153 * mp)
  let monthDays ← i64 (monthDays + 2)
  let doy ← i64 (monthDays.tdiv 5 + day)
  let doy ← i64 (doy - 1)
  let yearDays ← i64 (yoe * 365)
  let yearDays ← i64 (yearDays + yoe.tdiv 4)
  let yearDays ← i64 (yearDays - yoe.tdiv 100)
  let doe ← i64 (yearDays + doy)
  let eraDays ← i64 (era * 146097)
  let days ← i64 (eraDays + doe)
  i64 (days - 719468)

/-- The nine digits of the fraction, in `u32`. -/
def fractionNanos (b : List UInt8) (start stop : ℕ) : Except Overflow ℕ :=
  (List.range 9).foldlM
    (fun nanos slot => do
      let shifted ← u32 (nanos * 10)
      u32 (shifted +
        (if start + slot < stop then ((b[start + slot]?).map digitValue).getD 0 else 0)))
    0

/-- The fraction of a second, and where the offset starts. -/
def fraction (b : List UInt8) : Except Overflow (Option (ℕ × ℕ)) :=
  if b[19]? = some (ascii '.') then
    let start := 20
    let stop := digitsEnd b start
    if stop = start then .ok none
    else if ((slice b (start + 9) stop).getD []).any (· ≠ ascii '0') then .ok none
    else do
      let nanos ← fractionNanos b start stop
      pure (some (nanos, stop))
  else .ok (some (0, 19))

/-- A field of the text, read as a number. -/
def field (b : List UInt8) (i j : ℕ) : Except Overflow (Option ℤ) :=
  match slice b i j with
  | none => .ok none
  | some bytes => number bytes

/-- The numeric offset in seconds that starts at `i`, in `i64`. -/
def offsetSecs (b : List UInt8) (i : ℕ) : Except Overflow (Option ℤ) :=
  match b[i]? with
  | none => .ok none
  | some c =>
    if c = ascii 'Z' ∨ c = ascii 'z' then .ok (some 0)
    else if c = ascii '+' ∨ c = ascii '-' then do
      match ← field b (i + 1) (i + 3) with
      | none => pure none
      | some offHour =>
        match ← field b (i + 4) (i + 6) with
        | none => pure none
        | some offMin =>
          let hourSecs ← i64 (offHour * 3600)
          let minSecs ← i64 (offMin * 60)
          let magnitude ← i64 (hourSecs + minSecs)
          if c = ascii '+' then pure (some magnitude)
          else do
            let negated ← i64 (-magnitude)
            pure (some negated)
    else .ok none

/-- The seconds of a date, a time of day and an offset, in `i64`. -/
def seconds (days hour minute second offset : ℤ) : Except Overflow ℤ := do
  let daySecs ← i64 (days * 86400)
  let hourSecs ← i64 (hour * 3600)
  let secs ← i64 (daySecs + hourSecs)
  let minSecs ← i64 (minute * 60)
  let secs ← i64 (secs + minSecs)
  let secs ← i64 (secs + second)
  i64 (secs - offset)

/-- The instant a timestamp names, every arithmetic result in its type. -/
def instant (ts : Rfc3339) : Except Overflow (Option (ℤ × ℕ)) := do
  let b := asBytes ts.text
  let some year ← field b 0 4 | pure none
  let some month ← field b 5 7 | pure none
  let some day ← field b 8 10 | pure none
  let some hour ← field b 11 13 | pure none
  let some minute ← field b 14 16 | pure none
  let some second ← field b 17 19 | pure none
  if second = 60 then pure none
  else do
    let some (nanos, i) ← fraction b | pure none
    let some offset ← offsetSecs b i | pure none
    let days ← daysFromCivil year month day
    let date ← civilFromDays days
    if date ≠ (year, month, day) then pure none
    else do
      let secs ← seconds days hour minute second offset
      pure (some (secs, nanos))

/-! ### Nothing overflows -/

section Digits

/-- Digits that fit are read without overflow. -/
lemma foldlM_digits {bytes : List UInt8} (h : ∀ x ∈ bytes, isAsciiDigit x = true) (k : ℕ) {n : ℤ}
    (hn : 0 ≤ n ∧ n < 10 ^ k) (hk : k + bytes.length ≤ 18) :
    bytes.foldlM (m := Except Overflow)
        (fun n byte => do
          let shifted ← i64 (n * 10)
          i64 (shifted + (digitValue byte : ℤ))) n =
      .ok (bytes.foldl (fun n byte => n * 10 + (digitValue byte : ℤ)) n) := by
  induction bytes generalizing n k with
  | nil => rfl
  | cons byte bytes ih =>
    obtain ⟨hbyte, hrest⟩ := List.forall_mem_cons.mp h
    have hdigit := (ascii_digitChar_digitValue hbyte).1
    rw [List.length_cons] at hk
    have hpow : (10 : ℤ) ^ (k + 1) ≤ 10 ^ 18 := pow_le_pow_right₀ (by norm_num) (by omega)
    rw [pow_succ] at hpow
    have hmul : i64 (n * 10) = .ok (n * 10) := i64_eq (by omega)
    have hadd : i64 (n * 10 + (digitValue byte : ℤ)) = .ok (n * 10 + digitValue byte) :=
      i64_eq (by omega)
    rw [List.foldlM_cons, List.foldl_cons, hmul]
    simp only [bind, Except.bind, hadd]
    exact ih hrest (k + 1) ⟨by omega, by rw [pow_succ]; omega⟩ (by omega)

/-- A short field is read without overflow.

**Proof sketch.** At most eighteen digits are put together, and no number of so many digits leaves
64 bits. -/
lemma field_eq {b : List UInt8} {i j : ℕ} (h : j ≤ i + 18) :
    field b i j = .ok ((slice b i j).bind Host.number) := by
  unfold field
  cases hslice : slice b i j with
  | none => rfl
  | some bytes =>
    have hlength : bytes.length ≤ 18 := by
      rw [slice] at hslice
      split_ifs at hslice
      rw [← Option.some.inj hslice, List.length_take]
      omega
    simp only [Option.bind_some, number, Host.number]
    split_ifs with hbad
    · rfl
    · have hdigits : ∀ x ∈ bytes, isAsciiDigit x = true := by
        simp only [Bool.or_eq_true, not_or, Bool.not_eq_true', Bool.not_eq_false] at hbad
        exact List.all_eq_true.mp hbad.2
      rw [foldlM_digits hdigits 0 (by norm_num) (by omega)]
      rfl

end Digits

section Calendar

variable {year month day : ℤ}

/-- The date of a day number.

**Proof sketch.** The era is bounded by the day number, and the day of the era lies between 0 and
146096. From there every quantity of the computation is bounded by the one before it, so that each
checked operation gives its value. -/
lemma civilFromDays_eq {days : ℤ} (h : -2 ^ 63 ≤ days ∧ days + 719468 < 2 ^ 63) :
    civilFromDays days = .ok (Host.civilFromDays days) := by
  unfold civilFromDays Host.civilFromDays
  dsimp only
  have hera : -10 ^ 14 ≤ (days + 719468) / 146097 ∧ (days + 719468) / 146097 ≤ 10 ^ 14 := by omega
  have hdoe : 0 ≤ days + 719468 - (days + 719468) / 146097 * 146097 ∧
      days + 719468 - (days + 719468) / 146097 * 146097 ≤ 146096 := by omega
  rw [i64_bind (by omega), i64_bind (by omega), i64_bind (by omega)]
  generalize days + 719468 - (days + 719468) / 146097 * 146097 = doe at hdoe ⊢
  generalize (days + 719468) / 146097 = era at hera ⊢
  have h₁ := @tdiv_mem doe 146096 (by omega) 1460
  have h₂ := @tdiv_mem doe 146096 (by omega) 36524
  have h₃ := @tdiv_mem doe 146096 (by omega) 146096
  rw [i64_bind (by omega), i64_bind (by omega), i64_bind (by omega)]
  have hyoe := @tdiv_mem (doe - doe.tdiv 1460 + doe.tdiv 36524 - doe.tdiv 146096) (10 ^ 6)
    (by omega) 365
  generalize (doe - doe.tdiv 1460 + doe.tdiv 36524 - doe.tdiv 146096).tdiv 365 = yoe at hyoe ⊢
  have h₄ := tdiv_mem hyoe 4
  have h₅ := tdiv_mem hyoe 100
  rw [i64_bind (by omega), i64_bind (by omega), i64_bind (by omega), i64_bind (by omega),
    i64_bind (by omega), i64_bind (by omega)]
  have hdoy : -10 ^ 10 ≤ doe - (365 * yoe + yoe.tdiv 4 - yoe.tdiv 100) ∧
      doe - (365 * yoe + yoe.tdiv 4 - yoe.tdiv 100) ≤ 10 ^ 10 := by omega
  generalize doe - (365 * yoe + yoe.tdiv 4 - yoe.tdiv 100) = doy at hdoy ⊢
  rw [i64_bind (by omega), i64_bind (by omega)]
  have hmp := @tdiv_mem (5 * doy + 2) (10 ^ 11) (by omega) 153
  generalize (5 * doy + 2).tdiv 153 = mp at hmp ⊢
  have h₆ := @tdiv_mem (153 * mp + 2) (10 ^ 14) (by omega) 5
  rw [i64_bind (by omega), i64_bind (by omega), i64_bind (by omega), i64_bind (by omega)]
  have hlast (m : ℤ) (hm : i64 m = .ok m) :
      (i64 m >>= fun m =>
        if m ≤ 2 then i64 (yoe + era * 400 + 1) >>= fun y =>
          pure (y, m, doy - (153 * mp + 2).tdiv 5 + 1)
        else pure (yoe + era * 400) >>= fun y => pure (y, m, doy - (153 * mp + 2).tdiv 5 + 1)) =
      (.ok (if m ≤ 2 then yoe + era * 400 + 1 else yoe + era * 400, m,
        doy - (153 * mp + 2).tdiv 5 + 1) : Except Overflow (ℤ × ℤ × ℤ)) := by
    rw [hm]
    simp only [bind, Except.bind]
    split_ifs
    · rw [i64_eq (by omega)]
      rfl
    · rfl
  by_cases hlow : mp < 10
  · rw [if_pos hlow, if_pos hlow]
    exact hlast (mp + 3) (i64_eq (by omega))
  · rw [if_neg hlow, if_neg hlow]
    exact hlast (mp - 9) (i64_eq (by omega))

/-- The day number of a date.

**Proof sketch.** The year has four digits and the month and the day two, so the era lies between -1
and 25, and every further quantity of the computation stays below a billion. -/
lemma daysFromCivil_eq (hyear : 0 ≤ year ∧ year < 10000) (hmonth : 0 ≤ month ∧ month < 100)
    (hday : 0 ≤ day ∧ day < 100) :
    daysFromCivil year month day = .ok (Host.daysFromCivil year month day) ∧
      -10 ^ 9 ≤ Host.daysFromCivil year month day ∧
      Host.daysFromCivil year month day ≤ 10 ^ 9 := by
  unfold daysFromCivil Host.daysFromCivil
  dsimp only
  have hfirst : 0 ≤ (if month ≤ 2 then 1 else 0 : ℤ) ∧ (if month ≤ 2 then 1 else 0 : ℤ) ≤ 1 := by
    split_ifs <;> decide
  generalize (if month ≤ 2 then 1 else 0 : ℤ) = first at hfirst ⊢
  have hera : -1 ≤ (year - first) / 400 ∧ (year - first) / 400 ≤ 25 := by omega
  have hyoe : -400 ≤ year - first - (year - first) / 400 * 400 ∧
      year - first - (year - first) / 400 * 400 ≤ 400 := by omega
  rw [i64_bind (by omega), i64_bind (by omega), i64_bind (by omega)]
  generalize year - first - (year - first) / 400 * 400 = yoe at hyoe ⊢
  generalize (year - first) / 400 = era at hera ⊢
  have hlast (mp : ℤ) (hmp : 0 ≤ mp ∧ mp ≤ 100) :
      (i64 mp >>= fun mp =>
        i64 (153 * mp) >>= fun monthDays =>
        i64 (monthDays + 2) >>= fun monthDays =>
        i64 (monthDays.tdiv 5 + day) >>= fun doy =>
        i64 (doy - 1) >>= fun doy =>
        i64 (yoe * 365) >>= fun yearDays =>
        i64 (yearDays + yoe.tdiv 4) >>= fun yearDays =>
        i64 (yearDays - yoe.tdiv 100) >>= fun yearDays =>
        i64 (yearDays + doy) >>= fun doe =>
        i64 (era * 146097) >>= fun eraDays =>
        i64 (eraDays + doe) >>= fun days =>
        i64 (days - 719468)) =
      .ok (era * 146097 + (yoe * 365 + yoe.tdiv 4 - yoe.tdiv 100 +
        ((153 * mp + 2).tdiv 5 + day - 1)) - 719468) ∧
      -10 ^ 9 ≤ era * 146097 + (yoe * 365 + yoe.tdiv 4 - yoe.tdiv 100 +
        ((153 * mp + 2).tdiv 5 + day - 1)) - 719468 ∧
      era * 146097 + (yoe * 365 + yoe.tdiv 4 - yoe.tdiv 100 +
        ((153 * mp + 2).tdiv 5 + day - 1)) - 719468 ≤ 10 ^ 9 := by
    have h₁ := @tdiv_mem (153 * mp + 2) (10 ^ 5) (by omega) 5
    have h₂ := tdiv_mem hyoe 4
    have h₃ := tdiv_mem hyoe 100
    refine ⟨?_, by omega, by omega⟩
    iterate 11 rw [i64_bind (by omega)]
    exact i64_eq (by omega)
  by_cases hlow : month > 2
  · rw [if_pos hlow, if_pos hlow]
    exact hlast (month - 3) (by omega)
  · rw [if_neg hlow, if_neg hlow]
    exact hlast (month + 9) (by omega)

/-- The day number of the date of a day number.

**Proof sketch.** The date has a month and a day within their bounds, and a year that the day number
bounds (`daysFromCivil_closed`). With these bounds no intermediate result leaves the range of the
source's integers, so the checked computation comes to the unchecked one, which gives the day number
back. -/
lemma daysFromCivil_civilFromDays {days : ℤ} (h : -2 ^ 63 ≤ days ∧ days + 719468 < 2 ^ 63) :
    daysFromCivil (Host.civilFromDays days).1 (Host.civilFromDays days).2.1
      (Host.civilFromDays days).2.2 = .ok days := by
  have hback := Host.daysFromCivil_civilFromDays days
  obtain ⟨hmonth, hday, hlong⟩ := isDate_civilFromDays days
  have hlength := (monthLength_bounds (Host.civilFromDays days).1 (Host.civilFromDays days).2.1).2
  have hclosed := hback
  rw [daysFromCivil_closed hmonth] at hclosed
  generalize (Host.civilFromDays days).1 = year at *
  generalize (Host.civilFromDays days).2.1 = month at *
  generalize (Host.civilFromDays days).2.2 = day at *
  unfold Host.daysFromCivil at hback
  unfold daysFromCivil
  dsimp only at hback ⊢
  have hfirst : 0 ≤ (if month ≤ 2 then 1 else 0 : ℤ) ∧ (if month ≤ 2 then 1 else 0 : ℤ) ≤ 1 := by
    split_ifs <;> decide
  generalize (if month ≤ 2 then 1 else 0 : ℤ) = first at hfirst hback hclosed ⊢
  have hyear : -2 ^ 56 ≤ year - first ∧ year - first ≤ 2 ^ 56 := by
    split_ifs at hclosed <;> omega
  clear hclosed
  have hyoe : 0 ≤ year - first - (year - first) / 400 * 400 ∧
      year - first - (year - first) / 400 * 400 ≤ 399 := by omega
  rw [i64_bind (by omega), i64_bind (by omega), i64_bind (by omega)]
  generalize year - first - (year - first) / 400 * 400 = yoe at hyoe hback ⊢
  generalize (year - first) / 400 = era at hback ⊢
  have hlast (mp : ℤ) (hmp : 0 ≤ mp ∧ mp ≤ 11) (hdays : era * 146097 +
      (yoe * 365 + yoe.tdiv 4 - yoe.tdiv 100 + ((153 * mp + 2).tdiv 5 + day - 1)) - 719468 = days) :
      (i64 mp >>= fun mp =>
        i64 (153 * mp) >>= fun monthDays =>
        i64 (monthDays + 2) >>= fun monthDays =>
        i64 (monthDays.tdiv 5 + day) >>= fun doy =>
        i64 (doy - 1) >>= fun doy =>
        i64 (yoe * 365) >>= fun yearDays =>
        i64 (yearDays + yoe.tdiv 4) >>= fun yearDays =>
        i64 (yearDays - yoe.tdiv 100) >>= fun yearDays =>
        i64 (yearDays + doy) >>= fun doe =>
        i64 (era * 146097) >>= fun eraDays =>
        i64 (eraDays + doe) >>= fun days =>
        i64 (days - 719468)) = .ok days := by
    rw [Int.tdiv_eq_ediv_of_nonneg hyoe.1, Int.tdiv_eq_ediv_of_nonneg hyoe.1,
      Int.tdiv_eq_ediv_of_nonneg (by omega)] at hdays
    simp only [Int.tdiv_eq_ediv_of_nonneg hyoe.1]
    iterate 3 rw [i64_bind (by omega)]
    rw [Int.tdiv_eq_ediv_of_nonneg (by omega)]
    iterate 8 rw [i64_bind (by omega)]
    rw [hdays]
    exact i64_eq (by omega)
  by_cases hlow : month > 2
  · rw [if_pos hlow] at hback ⊢
    exact hlast (month - 3) (by omega) hback
  · rw [if_neg hlow] at hback ⊢
    exact hlast (month + 9) (by omega) hback

end Calendar

section Fields

variable {b : List UInt8}

/-- The number in a field is bounded by the field's length.

**Proof sketch.** The field has at most as many digits as there are places, and a number of so many
digits is below that power of ten. -/
lemma bounds_of_field {i j : ℕ} {n : ℤ} (h : (slice b i j).bind Host.number = some n) :
    0 ≤ n ∧ n < 10 ^ (j - i) := by
  obtain ⟨bytes, hslice, hnumber⟩ := Option.bind_eq_some_iff.mp h
  have hlength : bytes.length ≤ j - i := by
    rw [slice] at hslice
    split_ifs at hslice
    rw [← Option.some.inj hslice, List.length_take]
    exact Nat.min_le_left _ _
  rw [Host.number] at hnumber
  split_ifs at hnumber with hbad
  simp only [Bool.or_eq_true, not_or, Bool.not_eq_true', Bool.not_eq_false] at hbad
  obtain ⟨digits, hdigits, rfl⟩ := exists_digits_of_isAsciiDigit (List.all_eq_true.mp hbad.2)
  have hread := @number_map_ascii digits (by simpa using hbad.1) hdigits
  rw [Host.number, if_neg (by simpa using hbad), hnumber] at hread
  rw [Option.some.inj hread]
  have hlt := Digits.ofDigitChars_lt hdigits
  have hle : 10 ^ digits.length ≤ 10 ^ (j - i) :=
    Nat.pow_le_pow_right (by decide) (by simpa using hlength)
  exact ⟨by positivity, by exact_mod_cast hlt.trans_le hle⟩

/-- Up to nine digits are put together without leaving 32 bits, so the checked loop gives their
number. -/
lemma foldlM_slots (value : ℕ → ℕ) (slots : List ℕ) (h : ∀ slot ∈ slots, value slot < 10) (k : ℕ)
    {n : ℕ} (hn : n < 10 ^ k) (hk : k + slots.length ≤ 9) :
    slots.foldlM (m := Except Overflow)
        (fun nanos slot => do
          let shifted ← u32 (nanos * 10)
          u32 (shifted + value slot)) n =
      .ok (slots.foldl (fun nanos slot => nanos * 10 + value slot) n) := by
  induction slots generalizing n k with
  | nil => rfl
  | cons slot slots ih =>
    obtain ⟨hslot, hrest⟩ := List.forall_mem_cons.mp h
    rw [List.length_cons] at hk
    have hpow : 10 ^ (k + 1) ≤ 10 ^ 9 := Nat.pow_le_pow_right (by decide) (by omega)
    rw [pow_succ] at hpow
    have hmul : u32 (n * 10) = .ok (n * 10) := u32_eq (by omega)
    have hadd : u32 (n * 10 + value slot) = .ok (n * 10 + value slot) := u32_eq (by omega)
    rw [List.foldlM_cons, List.foldl_cons, hmul]
    simp only [bind, Except.bind, hadd]
    exact ih hrest (k + 1) (by rw [pow_succ]; omega) (by omega)

/-- What stands before the end of the digits is a digit. -/
lemma digitValue_lt {start slot : ℕ} (h : start + slot < digitsEnd b start) :
    ((b[start + slot]?).map digitValue).getD 0 < 10 := by
  have hslot : slot < ((b.drop start).takeWhile isAsciiDigit).length := by
    rw [digitsEnd] at h
    omega
  have hprefix := (List.takeWhile_prefix isAsciiDigit (l := b.drop start)).getElem hslot
  have hmem := List.getElem_mem hslot
  rw [← List.getElem?_drop, List.getElem?_eq_getElem (by
    have hle := (List.takeWhile_prefix isAsciiDigit (l := b.drop start)).length_le
    omega), ← hprefix]
  exact (ascii_digitChar_digitValue (List.mem_takeWhile_imp hmem)).1

/-- The checked computation of the nanoseconds never overflows, and agrees with the one over the
integers. -/
lemma fraction_eq : fraction b = .ok (Host.fraction b) := by
  have hnanos : fractionNanos b 20 (digitsEnd b 20) =
      .ok (Host.fractionNanos b 20 (digitsEnd b 20)) := by
    refine foldlM_slots _ _ (fun slot _ => ?_) 0 (by norm_num) (by simp)
    split_ifs with hslot
    · exact digitValue_lt hslot
    · decide
  unfold fraction Host.fraction
  dsimp only
  split_ifs
  · rfl
  · rfl
  · simp only [hnanos]
    rfl
  · rfl

/-- The offset in unbounded integers, field by field. -/
lemma host_offsetSecs (i : ℕ) :
    Host.offsetSecs b i = b[i]?.bind fun c =>
      if c = ascii 'Z' ∨ c = ascii 'z' then some 0
      else if c = ascii '+' ∨ c = ascii '-' then
        ((slice b (i + 1) (i + 3)).bind Host.number).bind fun offHour =>
          ((slice b (i + 4) (i + 6)).bind Host.number).bind fun offMin =>
            some (if c = ascii '+' then offHour * 3600 + offMin * 60
              else -(offHour * 3600 + offMin * 60))
      else none := by
  unfold Host.offsetSecs
  cases b[i]? with
  | none => rfl
  | some c =>
    simp only [Option.bind_eq_bind, Option.bind_assoc, Option.bind_some]
    rfl

/-- The offset fits, and is less than a thousand hours.

**Proof sketch.** UTC has the offset zero. Otherwise the hours and the minutes are numbers of two
digits, so their sum in seconds is far below the bound, and so is the opposite of it. -/
lemma offsetSecs_eq (i : ℕ) :
    offsetSecs b i = .ok (Host.offsetSecs b i) ∧
      ∀ offset, Host.offsetSecs b i = some offset → -10 ^ 9 ≤ offset ∧ offset ≤ 10 ^ 9 := by
  rw [host_offsetSecs, offsetSecs]
  cases b[i]? with
  | none => exact ⟨rfl, nofun⟩
  | some c =>
    rw [Option.bind_some]
    dsimp only
    by_cases hutc : c = ascii 'Z' ∨ c = ascii 'z'
    · rw [if_pos hutc, if_pos hutc]
      exact ⟨rfl, by simp⟩
    rw [if_neg hutc, if_neg hutc]
    by_cases hsign : c = ascii '+' ∨ c = ascii '-'
    case neg =>
      rw [if_neg hsign, if_neg hsign]
      exact ⟨rfl, nofun⟩
    rw [if_pos hsign, if_pos hsign, field_eq (by omega), field_eq (by omega)]
    cases hhour : (slice b (i + 1) (i + 3)).bind Host.number with
    | none => exact ⟨rfl, nofun⟩
    | some offHour =>
      cases hminute : (slice b (i + 4) (i + 6)).bind Host.number with
      | none => exact ⟨rfl, nofun⟩
      | some offMin =>
        have hhours := bounds_of_field hhour
        have hminutes := bounds_of_field hminute
        rw [show i + 3 - (i + 1) = 2 by omega] at hhours
        rw [show i + 6 - (i + 4) = 2 by omega] at hminutes
        simp only [bind, Except.bind, i64_eq (n := offHour * 3600) (by omega),
          i64_eq (n := offMin * 60) (by omega),
          i64_eq (n := offHour * 3600 + offMin * 60) (by omega),
          i64_eq (n := -(offHour * 3600 + offMin * 60)) (by omega), Option.bind_some]
        constructor
        · split_ifs <;> rfl
        · rintro offset ⟨⟩
          split_ifs <;> omega

/-- The seconds since the epoch are put together without leaving 64 bits, for the days and fields
that a timestamp can have. -/
lemma seconds_eq {days hour minute second offset : ℤ} (hdays : -10 ^ 9 ≤ days ∧ days ≤ 10 ^ 9)
    (hhour : 0 ≤ hour ∧ hour < 100) (hminute : 0 ≤ minute ∧ minute < 100)
    (hsecond : 0 ≤ second ∧ second < 100) (hoffset : -10 ^ 9 ≤ offset ∧ offset ≤ 10 ^ 9) :
    seconds days hour minute second offset =
      .ok (days * 86400 + hour * 3600 + minute * 60 + second - offset) := by
  unfold seconds
  iterate 6 rw [i64_bind (by omega)]
  exact i64_eq (by omega)

/-- **Nothing overflows.**

**Proof sketch.** The two functions are followed field by field: they read the same fields, and
where one is missing both give up. The numbers that are read are small, so that neither the day
number (`daysFromCivil_eq`) nor the seconds (`seconds_eq`) leave the range of the integers that the
source computes with, and the date of the day number is computed without an overflow
(`civilFromDays_eq`). -/
theorem instant_eq (ts : Rfc3339) : instant ts = .ok (Host.instant ts) := by
  have hfields : Host.instant ts =
      ((slice (asBytes ts.text) 0 4).bind Host.number).bind fun year =>
      ((slice (asBytes ts.text) 5 7).bind Host.number).bind fun month =>
      ((slice (asBytes ts.text) 8 10).bind Host.number).bind fun day =>
      ((slice (asBytes ts.text) 11 13).bind Host.number).bind fun hour =>
      ((slice (asBytes ts.text) 14 16).bind Host.number).bind fun minute =>
      ((slice (asBytes ts.text) 17 19).bind Host.number).bind fun second =>
      if second = 60 then none
      else (Host.fraction (asBytes ts.text)).bind fun fraction =>
        (Host.offsetSecs (asBytes ts.text) fraction.2).bind fun offset =>
        if Host.civilFromDays (Host.daysFromCivil year month day) ≠ (year, month, day) then none
        else some (Host.daysFromCivil year month day * 86400 + hour * 3600 + minute * 60 + second -
          offset, fraction.1) := by
    simp only [Host.instant, Option.bind_eq_bind, Option.bind_assoc]
  rw [hfields, instant]
  rw [field_eq (by decide), field_eq (by decide), field_eq (by decide), field_eq (by decide),
    field_eq (by decide), field_eq (by decide), fraction_eq]
  cases hyear : (slice (asBytes ts.text) 0 4).bind Host.number with
  | none => rfl
  | some year =>
  cases hmonth : (slice (asBytes ts.text) 5 7).bind Host.number with
  | none => rfl
  | some month =>
  cases hday : (slice (asBytes ts.text) 8 10).bind Host.number with
  | none => rfl
  | some day =>
  cases hhour : (slice (asBytes ts.text) 11 13).bind Host.number with
  | none => rfl
  | some hour =>
  cases hminute : (slice (asBytes ts.text) 14 16).bind Host.number with
  | none => rfl
  | some minute =>
  cases hsecond : (slice (asBytes ts.text) 17 19).bind Host.number with
  | none => rfl
  | some second =>
  simp only [bind, Except.bind, Option.bind_some]
  by_cases hsixty : second = 60
  · simp [hsixty, pure, Except.pure]
  rw [if_neg hsixty, if_neg hsixty]
  cases hfraction : Host.fraction (asBytes ts.text) with
  | none => rfl
  | some fraction =>
  obtain ⟨nanos, i⟩ := fraction
  obtain ⟨hoffset, hrange⟩ := offsetSecs_eq (b := asBytes ts.text) i
  simp only [hoffset, Option.bind_some]
  cases hvalue : Host.offsetSecs (asBytes ts.text) i with
  | none => rfl
  | some offset =>
  obtain ⟨hdays, hdays_range⟩ := daysFromCivil_eq (bounds_of_field hyear) (bounds_of_field hmonth)
    (bounds_of_field hday)
  have hcivil := @civilFromDays_eq (Host.daysFromCivil year month day) (by omega)
  simp only [hdays, hcivil, Option.bind_some]
  by_cases hdate : Host.civilFromDays (Host.daysFromCivil year month day) = (year, month, day)
  · rw [if_neg (not_not.mpr hdate), if_neg (not_not.mpr hdate),
      seconds_eq hdays_range (bounds_of_field hhour) (bounds_of_field hminute)
        (bounds_of_field hsecond) (hrange offset hvalue)]
    rfl
  · rw [if_pos hdate, if_pos hdate]
    rfl

end Fields

end Sumer.Host.Checked
