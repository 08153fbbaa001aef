import Sumer.Host.Calendar
import Sumer.Lib.FixedPoint
import Sumer.Wire.Timestamp

set_option relaxedAutoImplicit false
set_option autoImplicit false

/-!
# Instants are exact

`time::instant` (`core/host/src/time.rs`) against the instants that timestamps name: a day of the
proleptic Gregorian calendar, a time of day less the zone's offset, and the whole fraction, as a
rational number of seconds.

## Main definitions

* `Sumer.Wire.Timestamp.instant`: the instant that a timestamp's parts name.
* `Sumer.Wire.Timestamp.Placeable`: whether the host can place it.

## Main results

* `Sumer.Host.instant_eq`: what the host computes, by the parts.
-/

namespace Sumer.Wire

/-- The seconds a zone is ahead of UTC. -/
def Zone.ahead : Zone → ℤ
  | .utc _ => 0
  | .offset negative hour minute =>
    if negative then -(hour * 3600 + minute * 60 : ℤ) else hour * 3600 + minute * 60

namespace Timestamp

/-- The whole seconds since the Unix epoch. -/
def seconds (t : Timestamp) : ℤ :=
  ((Gregorian.dayNumber t.year t.month t.day : ℤ) - Gregorian.dayNumber 1970 1 1) * 86400 +
    t.hour * 3600 + t.minute * 60 + t.second - t.zone.ahead

/-- The number that the digits of the fraction denote, without the point. -/
def fractionDigits (t : Timestamp) : ℕ := Nat.ofDigitChars 10 t.fraction 0

/-- The instant, in seconds since the Unix epoch: all digits of the fraction count. -/
def instant (t : Timestamp) : ℚ :=
  t.seconds + FixedPoint.value 10 t.fractionDigits t.fraction.length

/-- Whether the date exists. -/
def DateExists (t : Timestamp) : Prop := Gregorian.Valid t.year t.month t.day

/-- Whether a timestamp has an instant that a count of nanoseconds can express. -/
def Placeable (t : Timestamp) : Prop :=
  t.second ≠ 60 ∧ (∀ digit ∈ t.fraction.drop 9, digit = '0') ∧ t.DateExists

/-- Whether the date of a timestamp exists is decided by the days of its month. -/
instance (t : Timestamp) : Decidable t.DateExists := inferInstanceAs (Decidable (_ ∧ _))

/-- Whether a timestamp can be placed in time is decided by its date, its leap second and its
offset. -/
instance (t : Timestamp) : Decidable t.Placeable := inferInstanceAs (Decidable (_ ∧ _ ∧ _))

/-- The first nine digits of the fraction, padded on the right. -/
def nanos (t : Timestamp) : ℕ :=
  Nat.ofDigitChars 10 (t.fraction.take 9 ++ List.replicate (9 - t.fraction.length) '0') 0

end Timestamp

end Sumer.Wire

namespace Sumer.Host

open Sumer.Wire

section Fields

/-- Digits are read as the number they denote. -/
lemma number_map_ascii {digits : List Char} (hne : digits ≠ [])
    (h : ∀ ch ∈ digits, ch.isDigit = true) :
    number (digits.map ascii) = some (Nat.ofDigitChars 10 digits 0 : ℤ) := by
  have hall : (digits.map ascii).all isAsciiDigit = true := by
    simpa using fun ch hch => isAsciiDigit_ascii (h ch hch)
  have hfold (digits : List Char) (h : ∀ ch ∈ digits, ch.isDigit = true) (n : ℕ) :
      (digits.map ascii).foldl (fun (n : ℤ) byte => n * 10 + (digitValue byte : ℤ)) n =
        (Nat.ofDigitChars 10 digits n : ℤ) := by
    induction digits generalizing n with
    | nil => simp
    | cons ch digits ih =>
      rw [List.map_cons, List.foldl_cons, Nat.ofDigitChars_cons,
        ← ih (fun c hc => h c (List.mem_cons_of_mem _ hc)), digitValue_ascii (h ch (by simp))]
      have hzero : '0'.toNat = 48 := rfl
      rw [hzero, mul_comm 10 n]
      push_cast
      rfl
  rw [number, hall]
  simpa [hne] using hfold digits h 0

/-- Two digits are read as their number. -/
lemma number_twoChars {n : ℕ} (h : n < 100) : number ((twoChars n).map ascii) = some (n : ℤ) := by
  have hdigits : ∀ ch ∈ twoChars n, ch.isDigit = true :=
    List.forall_mem_cons.mpr ⟨(digitByte (by omega)).1,
      List.forall_mem_singleton.mpr (digitByte (by omega)).1⟩
  rw [number_map_ascii (by simp [twoChars]) hdigits, twoChars,
    Nat.ofDigitChars_cons_digitChar_of_lt_ten (by omega),
    Nat.ofDigitChars_cons_digitChar_of_lt_ten (by omega), Nat.ofDigitChars_nil]
  congr 2
  omega

/-- A year is read as its number. -/
lemma number_year {n : ℕ} (h : n < 10000) :
    number ((twoChars (n / 100) ++ twoChars (n % 100)).map ascii) = some (n : ℤ) := by
  have hdigits : ∀ ch ∈ twoChars (n / 100) ++ twoChars (n % 100), ch.isDigit = true := by
    rw [List.forall_mem_append]
    exact ⟨List.forall_mem_cons.mpr ⟨(digitByte (by omega)).1,
        List.forall_mem_singleton.mpr (digitByte (by omega)).1⟩,
      List.forall_mem_cons.mpr ⟨(digitByte (by omega)).1,
        List.forall_mem_singleton.mpr (digitByte (by omega)).1⟩⟩
  rw [number_map_ascii (by simp [twoChars]) hdigits, Nat.ofDigitChars_append, twoChars, twoChars]
  iterate 4 rw [Nat.ofDigitChars_cons_digitChar_of_lt_ten (by omega)]
  iterate 2 rw [Nat.ofDigitChars_nil]
  congr 2
  omega

end Fields

section Parts

variable {b : List UInt8} {t : Timestamp}

/-- The fields at fixed places.

**Proof sketch.** Each field is a slice of the text between two fixed places, of the digits that the
timestamp has there, and digits are read as their number. -/
lemma fields_of_chars (h : b = t.chars.map ascii) :
    (slice b 0 4).bind number = some (t.year : ℤ) ∧
      (slice b 5 7).bind number = some (t.month : ℤ) ∧
      (slice b 8 10).bind number = some (t.day : ℤ) ∧
      (slice b 11 13).bind number = some (t.hour : ℤ) ∧
      (slice b 14 16).bind number = some (t.minute : ℤ) ∧
      (slice b 17 19).bind number = some (t.second : ℤ) := by
  have hyear := t.year_lt
  have hmonth := t.month_bounds
  have hday := t.day_bounds
  have hhour := t.hour_le
  have hminute := t.minute_le
  have hsecond := t.second_le
  have hlength : 19 ≤ b.length := by simp [h, Timestamp.chars, Timestamp.fixedChars, twoChars]
  have hslice (i j : ℕ) (hij : i ≤ j) (hj : j ≤ 19) :
      slice b i j = some ((b.drop i).take (j - i)) := by
    rw [slice, if_pos ⟨hij, by omega⟩]
  subst h
  refine ⟨?_, ?_, ?_, ?_, ?_, ?_⟩
  · rw [hslice 0 4 (by decide) (by decide)]
    exact number_year hyear
  · rw [hslice 5 7 (by decide) (by decide)]
    exact number_twoChars (by omega)
  · rw [hslice 8 10 (by decide) (by decide)]
    exact number_twoChars (by omega)
  · rw [hslice 11 13 (by decide) (by decide)]
    exact number_twoChars (by omega)
  · rw [hslice 14 16 (by decide) (by decide)]
    exact number_twoChars (by omega)
  · rw [hslice 17 19 (by decide) (by decide)]
    exact number_twoChars (by omega)

/-- What the host looks at behind the ninth digit of a fraction is what the timestamp has there.

**Proof sketch.** Behind the point stand the digits and then the zone (`drop_twenty`), so from the
tenth digit on there are the rest of the digits, if there are so many, and otherwise nothing. -/
lemma slice_of_chars (h : b = t.chars.map ascii) (hne : t.fraction ≠ []) :
    (slice b 29 (20 + t.fraction.length)).getD [] = (t.fraction.drop 9).map ascii := by
  have htwenty := drop_twenty h hne
  have hlength : 20 + t.fraction.length ≤ b.length := by
    have hsum := congrArg List.length htwenty
    simp only [List.length_drop, List.length_append, List.length_map] at hsum
    have hpos := List.length_pos_iff.mpr hne
    omega
  by_cases hlong : 9 ≤ t.fraction.length
  · have hdrop : b.drop 29 = (t.fraction.drop 9).map ascii ++ t.zone.chars.map ascii := by
      rw [show 29 = 20 + 9 by rfl, ← List.drop_drop, htwenty,
        List.drop_append_of_le_length (by simpa using hlong), List.map_drop]
    have hcount : 20 + t.fraction.length - 29 = ((t.fraction.drop 9).map ascii).length := by
      simp only [List.length_map, List.length_drop]
      omega
    rw [slice, if_pos ⟨by omega, hlength⟩, hdrop, hcount, List.take_left]
    rfl
  · rw [slice, if_neg (by omega), List.drop_eq_nil_of_le (by omega)]
    rfl

/-- Digits, read one place after the other. -/
lemma foldl_range (digits : List Char) (value : ℕ → ℕ)
    (h : ∀ slot (hslot : slot < digits.length), value slot = digits[slot].toNat - 48) :
    (List.range digits.length).foldl (fun n slot => n * 10 + value slot) 0 =
      Nat.ofDigitChars 10 digits 0 := by
  have hvalues : (List.range digits.length).map value = digits.map fun ch => ch.toNat - 48 := by
    refine List.ext_getElem (by simp) fun slot hslot _ => ?_
    simpa using h slot (by simpa using hslot)
  have hleft : (List.range digits.length).foldl (fun n slot => n * 10 + value slot) 0 =
      ((List.range digits.length).map value).foldl (fun n v => n * 10 + v) 0 := by
    rw [List.foldl_map]
  rw [hleft, hvalues, List.foldl_map, Nat.ofDigitChars_eq_foldl]
  congr 1
  funext n ch
  rw [mul_comm]
  rfl

/-- The nanoseconds are the first nine digits.

**Proof sketch.** Nine slots are filled in order. A slot within the fraction has its digit, and one
past it a zero, so the number is that of the first nine digits, padded with zeros. -/
lemma fractionNanos_of_chars (h : b = t.chars.map ascii) (hne : t.fraction ≠ []) :
    fractionNanos b 20 (20 + t.fraction.length) = t.nanos := by
  have hlength : (t.fraction.take 9 ++ List.replicate (9 - t.fraction.length) '0').length = 9 := by
    simp only [List.length_append, List.length_take, List.length_replicate]
    omega
  rw [fractionNanos, Timestamp.nanos, ← foldl_range _ fun slot =>
    if 20 + slot < 20 + t.fraction.length then ((b[20 + slot]?).map digitValue).getD 0 else 0]
  · rw [hlength]
  · intro slot hslot
    by_cases hin : slot < t.fraction.length
    · have hbyte : b[20 + slot]? = some (ascii t.fraction[slot]) := by
        rw [← List.getElem?_drop, drop_twenty h hne,
          List.getElem?_append_left (by simpa using hin)]
        simp [hin]
      have htake : (t.fraction.take 9 ++ List.replicate (9 - t.fraction.length) '0')[slot] =
          t.fraction[slot] := by
        rw [List.getElem_append_left (by simp only [List.length_take]; omega), List.getElem_take]
      rw [if_pos (by omega), hbyte, htake]
      exact digitValue_ascii (t.digits _ (List.getElem_mem hin))
    · have hpad :
          (t.fraction.take 9 ++ List.replicate (9 - t.fraction.length) '0')[slot] = '0' := by
        rw [List.getElem_append_right (by simp only [List.length_take]; omega),
          List.getElem_replicate]
      rw [if_neg (by omega), hpad]
      rfl

/-- The fraction, by its digits.

**Proof sketch.** Without a point there are no digits, and no nanoseconds. With one, the first nine
digits are read as nanoseconds, those that are missing as zeros; the digits after them have to be
zeros, which is what the guard of the source asks of them. -/
lemma fraction_of_chars [Decidable (∀ digit ∈ t.fraction.drop 9, digit = '0')]
    (h : b = t.chars.map ascii) :
    fraction b = if ∀ digit ∈ t.fraction.drop 9, digit = '0' then
      some (t.nanos, 19 + (fractionChars t.fraction).length) else none := by
  have hpoint : b[19]? = _ := getElem?_tail h 0
  by_cases hf : t.fraction = []
  · obtain ⟨ch, rest, hzone, -, hhead⟩ := zone_head t.zone
    have hnot : ¬ b[19]? = some (ascii '.') := by
      simpa [hpoint, hf, fractionChars, hzone] using hhead
    have hzero : t.nanos = 0 := by
      rw [Timestamp.nanos, hf]
      rfl
    have hall : ∀ digit ∈ t.fraction.drop 9, digit = '0' := by simp [hf]
    rw [fraction, if_neg hnot, hzero, if_pos hall, hf]
    rfl
  · have hne : t.fraction ≠ [] := hf
    obtain ⟨digit, digits, hf⟩ := List.exists_cons_of_ne_nil hne
    have hyes : b[19]? = some (ascii '.') := by simp [hpoint, hf, fractionChars]
    rw [fraction, if_pos hyes]
    have hpast : ((slice b 29 (20 + t.fraction.length)).getD []).any (· ≠ ascii '0') =
        !decide (∀ digit ∈ t.fraction.drop 9, digit = '0') := by
      rw [slice_of_chars h hne, List.any_map]
      by_cases hall : ∀ digit ∈ t.fraction.drop 9, digit = '0'
      · rw [decide_eq_true hall, Bool.not_true, List.any_eq_false]
        exact fun digit hdigit => by simp [hall digit hdigit]
      · rw [decide_eq_false hall, Bool.not_false, List.any_eq_true]
        push Not at hall
        obtain ⟨digit, hdigit, hnonzero⟩ := hall
        have hrange := Digits.isDigit_iff.mp (t.digits digit (List.mem_of_mem_drop hdigit))
        refine ⟨digit, hdigit, decide_eq_true fun heq => hnonzero ?_⟩
        exact ascii_inj (by omega) (by decide) heq
    have hstop : ¬ 20 + t.fraction.length = 20 := by simp [hf]
    have hlength : 19 + (fractionChars t.fraction).length = 20 + t.fraction.length := by
      rw [hf]
      simp only [fractionChars, List.length_cons]
      omega
    rw [hlength]
    simp only [digitsEnd_of_chars h hne, fractionNanos_of_chars h hne, if_neg hstop, hpast]
    by_cases hall : ∀ digit ∈ t.fraction.drop 9, digit = '0'
    · rw [if_pos hall, decide_eq_true hall]
      rfl
    · rw [if_neg hall, decide_eq_false hall]
      rfl

/-- The offset of the zone.

**Proof sketch.** From the place where the fraction ends, the text is the zone. The letter of UTC is
the offset zero. A sign is followed by two digits for the hours and two for the minutes, which are
read as the numbers they were written for. -/
lemma offsetSecs_of_chars (h : b = t.chars.map ascii) :
    offsetSecs b (19 + (fractionChars t.fraction).length) = some t.zone.ahead := by
  set i := 19 + (fractionChars t.fraction).length with hi
  have hdrop : b.drop i = t.zone.chars.map ascii := by
    rw [h, Timestamp.chars, ← List.append_assoc, List.map_append]
    refine List.drop_left' ?_
    have hfixed : t.fixedChars.length = 19 := rfl
    rw [List.length_map, List.length_append, hfixed]
  have hat (k : ℕ) : b[i + k]? = (t.zone.chars.map ascii)[k]? := by
    rw [← List.getElem?_drop, hdrop]
  have hlength : b.length = i + t.zone.chars.length := by
    have hsum := congrArg List.length hdrop
    rw [List.length_drop, List.length_map] at hsum
    obtain ⟨ch, rest, hzone, -⟩ := zone_head t.zone
    simp only [hzone, List.length_cons] at hsum ⊢
    omega
  have hslice (j k : ℕ) (hjk : j ≤ k) (hk : k ≤ t.zone.chars.length) :
      slice b (i + j) (i + k) = some (((t.zone.chars.map ascii).drop j).take (k - j)) := by
    rw [slice, if_pos ⟨by omega, by omega⟩, ← List.drop_drop, hdrop]
    congr 2
    omega
  have hbounds := t.zone_bounds
  have hfirst : b[i]? = _ := hat 0
  cases hz : t.zone with
  | utc lower =>
    have hc : b[i]? = some (ascii (if lower then 'z' else 'Z')) := by rw [hfirst, hz]; rfl
    rw [offsetSecs, hc]
    cases lower <;> rfl
  | offset negative hour minute =>
    rw [hz] at hbounds
    obtain ⟨hhour, hminute⟩ := hbounds
    have hc : b[i]? = some (ascii (if negative then '-' else '+')) := by rw [hfirst, hz]; rfl
    have hsix : t.zone.chars.length = 6 := by rw [hz]; rfl
    have hhours : (slice b (i + 1) (i + 3)).bind number = some (hour : ℤ) := by
      rw [hslice 1 3 (by decide) (by omega), hz]
      exact number_twoChars (by omega)
    have hminutes : (slice b (i + 4) (i + 6)).bind number = some (minute : ℤ) := by
      rw [hslice 4 6 (by decide) (by omega), hz]
      exact number_twoChars (by omega)
    obtain ⟨hourBytes, hslice₁, hnumber₁⟩ := Option.bind_eq_some_iff.mp hhours
    obtain ⟨minuteBytes, hslice₂, hnumber₂⟩ := Option.bind_eq_some_iff.mp hminutes
    have hnotUtc : ¬ (ascii (if negative then '-' else '+') = ascii 'Z' ∨
        ascii (if negative then '-' else '+') = ascii 'z') := by cases negative <;> decide
    have hsign : ascii (if negative then '-' else '+') = ascii '+' ∨
        ascii (if negative then '-' else '+') = ascii '-' := by cases negative <;> decide
    rw [offsetSecs, hc]
    simp only [if_neg hnotUtc, if_pos hsign, hslice₁, hnumber₁, hslice₂, hnumber₂,
      Option.bind_eq_bind, Option.bind_some]
    cases negative <;> rfl

/-- **What the host computes**: nothing for a timestamp it cannot place, and otherwise the seconds
and the first nine digits of the fraction.

**Proof sketch.** The six fields are read off the text at their fixed places, and the three reasons
for a timestamp to have no place are the three refusals of the function, in its order: a leap
second, digits past the ninth that are not zero, and a date that the round trip through its day
number does not bring back. Past them, the offset and the nanoseconds are read off the rest. -/
lemma instant_eq {ts : Rfc3339} (h : ts.text = String.ofList t.chars) :
    instant ts = if t.Placeable then some (t.seconds, t.nanos) else none := by
  have hb : asBytes ts.text = t.chars.map ascii := by rw [h, asBytes_ofList t.chars_ascii]
  obtain ⟨hyear, hmonth, hday, hhour, hminute, hsecond⟩ := fields_of_chars hb
  obtain ⟨_, hyear₁, hyear₂⟩ := Option.bind_eq_some_iff.mp hyear
  obtain ⟨_, hmonth₁, hmonth₂⟩ := Option.bind_eq_some_iff.mp hmonth
  obtain ⟨_, hday₁, hday₂⟩ := Option.bind_eq_some_iff.mp hday
  obtain ⟨_, hhour₁, hhour₂⟩ := Option.bind_eq_some_iff.mp hhour
  obtain ⟨_, hminute₁, hminute₂⟩ := Option.bind_eq_some_iff.mp hminute
  obtain ⟨_, hsecond₁, hsecond₂⟩ := Option.bind_eq_some_iff.mp hsecond
  have hleap : ((t.second : ℤ) = 60) ↔ t.second = 60 := by omega
  simp only [instant, hyear₁, hyear₂, hmonth₁, hmonth₂, hday₁, hday₂, hhour₁, hhour₂, hminute₁,
    hminute₂, hsecond₁, hsecond₂, fraction_of_chars hb, Option.bind_eq_bind, Option.bind_some,
    hleap]
  by_cases hsixty : t.second = 60
  · rw [if_pos hsixty, if_neg fun hplace : t.Placeable => hplace.1 hsixty]
  by_cases hpast : ∀ digit ∈ t.fraction.drop 9, digit = '0'
  case neg =>
    rw [if_neg hsixty, if_neg hpast, if_neg fun hplace : t.Placeable => hpast hplace.2.1]
    rfl
  rw [if_neg hsixty, if_pos hpast]
  simp only [Option.bind_some, offsetSecs_of_chars hb]
  have hround : civilFromDays (daysFromCivil t.year t.month t.day) = (↑t.year, ↑t.month, ↑t.day) ↔
      t.DateExists := civilFromDays_daysFromCivil_iff
  by_cases hdate : t.DateExists
  · rw [if_neg (not_not.mpr (hround.mpr hdate)), if_pos ⟨hsixty, hpast, hdate⟩,
      daysFromCivil_eq hdate]
    rfl
  · rw [if_pos (mt hround.mp hdate), if_neg fun hplace : t.Placeable => hdate hplace.2.2]

end Parts

section Order

variable {t t' : Timestamp}

/-- The nanoseconds of a timestamp that can be placed are its fraction.

**Proof sketch.** With at most nine digits, the nanoseconds are the fraction rescaled to nine. With
more, the digits past the ninth are zeros, and the fraction is the nanoseconds rescaled to its own
length. Rescaling upwards keeps the value. -/
lemma value_nanos (h : t.Placeable) :
    FixedPoint.value 10 t.nanos 9 = FixedPoint.value 10 t.fractionDigits t.fraction.length := by
  by_cases hshort : t.fraction.length ≤ 9
  · have hscale : (t.nanos : ℤ) = FixedPoint.rescale 10 t.fractionDigits t.fraction.length 9 := by
      rw [Timestamp.nanos, List.take_of_length_le hshort, Nat.ofDigitChars_append,
        Nat.ofDigitChars_replicate_zero, FixedPoint.rescale, Timestamp.fractionDigits]
      push_cast
      ring
    rw [hscale, FixedPoint.value_rescale (by decide) hshort]
  · -- the digits past the ninth are zeros
    have hzeros : t.fraction.drop 9 = List.replicate (t.fraction.length - 9) '0' :=
      List.eq_replicate_iff.mpr ⟨List.length_drop, h.2.1⟩
    have hscale : (t.fractionDigits : ℤ) =
        FixedPoint.rescale 10 t.nanos 9 t.fraction.length := by
      have hsplit : t.fractionDigits = 10 ^ (t.fraction.length - 9) * t.nanos := by
        have hnone : 9 - t.fraction.length = 0 := by omega
        have hwhole : t.fraction = t.fraction.take 9 ++
            List.replicate (t.fraction.length - 9) '0' := by
          rw [← hzeros, List.take_append_drop]
        rw [Timestamp.nanos, hnone, List.replicate_zero, List.append_nil,
          Timestamp.fractionDigits]
        conv_lhs => rw [hwhole]
        rw [Nat.ofDigitChars_append, Nat.ofDigitChars_replicate_zero]
      rw [hsplit, FixedPoint.rescale]
      push_cast
      ring
    rw [hscale, FixedPoint.value_rescale (by decide) (by omega)]

/-- The fraction of a timestamp is less than a second, however many digits it is written with. -/
lemma nanos_lt (t : Timestamp) : t.nanos < 10 ^ 9 := by
  have hdigits : ∀ ch ∈ t.fraction.take 9 ++ List.replicate (9 - t.fraction.length) '0',
      ch.isDigit = true := by
    rw [List.forall_mem_append]
    refine ⟨fun ch hch => t.digits ch (List.mem_of_mem_take hch), fun ch hch => ?_⟩
    rw [List.eq_of_mem_replicate hch]
    rfl
  have hlength : (t.fraction.take 9 ++ List.replicate (9 - t.fraction.length) '0').length = 9 := by
    simp only [List.length_append, List.length_take, List.length_replicate]
    omega
  exact hlength ▸ Digits.ofDigitChars_lt hdigits

/-- The instant of a timestamp that can be placed, in nanoseconds. -/
lemma instant_mul (h : t.Placeable) :
    t.instant * 10 ^ 9 = ((t.seconds * 10 ^ 9 + t.nanos : ℤ) : ℚ) := by
  rw [Timestamp.instant, ← value_nanos h, add_mul]
  have hvalue := @FixedPoint.value_mul_pow 10 t.nanos 9 (by decide)
  push_cast at hvalue ⊢
  rw [hvalue]
  norm_num

/-- **Seconds and nanoseconds order as the instants do.** -/
lemma toLex_lt_iff (h : t.Placeable) (h' : t'.Placeable) :
    toLex (t.seconds, t.nanos) < toLex (t'.seconds, t'.nanos) ↔ t.instant < t'.instant := by
  have hpos : (0 : ℚ) < 10 ^ 9 := by norm_num
  have hnanos := nanos_lt t
  have hnanos' := nanos_lt t'
  rw [← mul_lt_mul_iff_left₀ hpos, instant_mul h, instant_mul h', Int.cast_lt,
    Prod.Lex.toLex_lt_toLex]
  simp only
  omega

end Order

end Sumer.Host
