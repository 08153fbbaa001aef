import Sumer.Host.FoldOrder
import Sumer.Host.Instant
import Sumer.Host.Proleptic
import Sumer.Wire.Validator

set_option relaxedAutoImplicit false
set_option autoImplicit false

/-!
# The host's clock

`now_rfc3339` (`core/host/src/time.rs`) stamps what the host receives. The stamps of two readings
compare as texts the way the readings do, up to the year 9999, and so a chain that is sorted by its
stamps is sorted by the clock.

## Main definitions

* `Sumer.Host.nowRfc3339`: the stamp of a reading of the clock.

## Main results

* `Sumer.Host.nowRfc3339_eq`: the stamp is the text of the parts of the reading.
* `Sumer.Host.stamps_sort_as_time`: stamps sort as the clock does.
-/

namespace Sumer.Host

open Gregorian StableSort Sumer.Wire
open Digits (zeroPadded zeroPadded_eq)

/-- The seconds of a reading, as `i64`. -/
def totalSecs (asSecs : ℕ) : ℤ := if asSecs < 2 ^ 63 then asSecs else 2 ^ 63 - 1

/-- The stamp of a reading of the clock, in whole seconds since the Unix epoch. The source panics
where the text is rejected. -/
def nowRfc3339 (asSecs : ℕ) : Except Rfc3339Error Rfc3339 :=
  let days := totalSecs asSecs / 86400
  let secsOfDay := totalSecs asSecs % 86400
  let hour := secsOfDay.tdiv 3600
  let minute := (secsOfDay.tmod 3600).tdiv 60
  let second := secsOfDay.tmod 60
  let (year, month, day) := civilFromDays days
  Rfc3339.new (String.ofList (zeroPadded 4 year ++ ['-'] ++ zeroPadded 2 month ++ ['-'] ++
    zeroPadded 2 day ++ ['T'] ++ zeroPadded 2 hour ++ [':'] ++ zeroPadded 2 minute ++ [':'] ++
    zeroPadded 2 second ++ ['Z']))

/-- A reading that falls in a year of four digits. -/
def By9999 (asSecs : ℕ) : Prop := (civilFromDays (asSecs / 86400)).1 ≤ 9999

/-- Whether a time is before the end of the year 9999 is decided by comparing two numbers. -/
instance (asSecs : ℕ) : Decidable (By9999 asSecs) := inferInstanceAs (Decidable (_ ≤ _))

section Padding

/-- The two characters that a number below 100 is padded to are decimal digits. -/
lemma isDigit_twoChars {n : ℕ} (h : n < 100) : ∀ ch ∈ twoChars n, ch.isDigit = true :=
  List.forall_mem_cons.mpr ⟨(digitByte (by omega)).1,
    List.forall_mem_singleton.mpr (digitByte (by omega)).1⟩

/-- Two digits that follow some others add their number to a hundred times the value so far. -/
lemma ofDigitChars_twoChars {n : ℕ} (h : n < 100) (m : ℕ) :
    Nat.ofDigitChars 10 (twoChars n) m = 100 * m + n := by
  rw [twoChars, Nat.ofDigitChars_cons_digitChar_of_lt_ten (by omega),
    Nat.ofDigitChars_cons_digitChar_of_lt_ten (by omega), Nat.ofDigitChars_nil]
  omega

/-- Two digits are the padded text of their number. -/
lemma zeroPadded_two {n : ℕ} (h : n < 100) : zeroPadded 2 n = twoChars n :=
  zeroPadded_eq (isDigit_twoChars h) (by simp [twoChars])
    ((ofDigitChars_twoChars h 0).trans (Nat.zero_add n))

/-- Four digits are the padded text of their number. -/
lemma zeroPadded_four {n : ℕ} (h : n < 10000) :
    zeroPadded 4 n = twoChars (n / 100) ++ twoChars (n % 100) := by
  refine @zeroPadded_eq (twoChars (n / 100) ++ twoChars (n % 100)) ?_ (by simp [twoChars]) n ?_
  · exact List.forall_mem_append.mpr ⟨isDigit_twoChars (by omega), isDigit_twoChars (by omega)⟩
  · rw [Nat.ofDigitChars_append, ofDigitChars_twoChars (by omega),
      ofDigitChars_twoChars (by omega)]
    omega

end Padding

section Reading

variable {s t : ℕ}

/-- A year of four digits is before the year 10000. -/
lemma lt_of_by9999 (h : By9999 s) : (s : ℤ) / 86400 < 2932897 := by
  by_contra hle
  have hmono := strictMono_civilFromDays.le_iff_le.mpr (not_lt.mp hle)
  have hfirst : civilFromDays 2932897 = (10000, 1, 1) := by decide
  rw [hfirst, Prod.Lex.toLex_le_toLex] at hmono
  unfold By9999 at h
  omega

/-- The clock does not read before 1970. -/
lemma year_bounds (h : By9999 s) :
    1970 ≤ (civilFromDays (s / 86400)).1 ∧ (civilFromDays (s / 86400)).1 ≤ 9999 := by
  have hmono := strictMono_civilFromDays.le_iff_le.mpr (show (0 : ℤ) ≤ s / 86400 by omega)
  have hfirst : civilFromDays 0 = (1970, 1, 1) := by decide
  rw [hfirst, Prod.Lex.toLex_le_toLex] at hmono
  exact ⟨by omega, h⟩

/-- The parts of the stamp of a reading. -/
def readingParts (s : ℕ) (h : By9999 s) : Timestamp where
  year := (civilFromDays (s / 86400)).1.toNat
  month := (civilFromDays (s / 86400)).2.1.toNat
  day := (civilFromDays (s / 86400)).2.2.toNat
  lowerT := false
  hour := s % 86400 / 3600
  minute := s % 3600 / 60
  second := s % 60
  fraction := []
  zone := .utc false
  year_lt := by
    have := year_bounds h
    omega
  month_bounds := by
    have := (isDate_civilFromDays (s / 86400)).1
    omega
  day_bounds := by
    obtain ⟨-, hlow, hhigh⟩ := isDate_civilFromDays (s / 86400)
    have := monthLength_bounds (civilFromDays (s / 86400)).1 (civilFromDays (s / 86400)).2.1
    omega
  hour_le := by omega
  minute_le := by omega
  second_le := by omega
  digits := digits_nil
  zone_bounds := trivial

/-- The clock's text has the time of the day that the seconds since midnight make: an hour, a minute
and a second, with an upper-case `T` before them. -/
lemma time_reading (h : By9999 s) : (readingParts s h).lowerT = false ∧
    (readingParts s h).hour = s % 86400 / 3600 ∧ (readingParts s h).minute = s % 3600 / 60 ∧
    (readingParts s h).second = s % 60 :=
  ⟨rfl, rfl, rfl, rfl⟩

/-- The date of a reading, from its parts. -/
lemma civilFromDays_reading (h : By9999 s) : civilFromDays (s / 86400) =
    (((readingParts s h).year : ℤ), ((readingParts s h).month : ℤ),
      ((readingParts s h).day : ℤ)) := by
  have hyear := year_bounds h
  obtain ⟨hmonth, hday, -⟩ := isDate_civilFromDays (s / 86400)
  refine Prod.ext ?_ (Prod.ext ?_ ?_)
  · exact (Int.toNat_of_nonneg (by omega)).symm
  · exact (Int.toNat_of_nonneg (by omega)).symm
  · exact (Int.toNat_of_nonneg (by omega)).symm

/-- **The stamp of a reading is accepted**, and is the text of its parts.

**Proof sketch.** The seconds since midnight are split into an hour, a minute and a second, the days
since the epoch into a date, and these are the parts of a timestamp, since the year has four digits.
Every part padded to its width is its digits, so the text of the clock is the text of the parts, and
that is accepted (`validateRfc3339_chars`). -/
lemma nowRfc3339_eq (h : By9999 s) :
    ∃ ts, nowRfc3339 s = .ok ts ∧ ts.text = String.ofList (readingParts s h).chars := by
  have hlt := lt_of_by9999 h
  have htotal : totalSecs s = s := if_pos (by omega)
  have hhour : ((s : ℤ) % 86400).tdiv 3600 = ((readingParts s h).hour : ℤ) := by
    show ((s : ℤ) % 86400).tdiv 3600 = ((s % 86400 / 3600 : ℕ) : ℤ)
    rw [Int.tdiv_eq_ediv_of_nonneg (by omega)]
    omega
  have hminute : (((s : ℤ) % 86400).tmod 3600).tdiv 60 = ((readingParts s h).minute : ℤ) := by
    show (((s : ℤ) % 86400).tmod 3600).tdiv 60 = ((s % 3600 / 60 : ℕ) : ℤ)
    rw [Int.tmod_eq_emod_of_nonneg (by omega), Int.tdiv_eq_ediv_of_nonneg (by omega)]
    omega
  have hsecond : ((s : ℤ) % 86400).tmod 60 = ((readingParts s h).second : ℤ) := by
    show ((s : ℤ) % 86400).tmod 60 = ((s % 60 : ℕ) : ℤ)
    rw [Int.tmod_eq_emod_of_nonneg (by omega)]
    omega
  have hzone : (readingParts s h).zone.chars = ['Z'] := rfl
  have hfraction : fractionChars (readingParts s h).fraction = [] := rfl
  have hsep : (readingParts s h).lowerT = false := rfl
  have hparts := civilFromDays_reading h
  generalize readingParts s h = t at *
  have hnow : nowRfc3339 s = Rfc3339.new (String.ofList t.chars) := by
    have hyear := t.year_lt
    have hmonth := t.month_bounds
    have hday := t.day_bounds
    have hhour_le := t.hour_le
    have hminute_le := t.minute_le
    have hsecond_le := t.second_le
    simp only [nowRfc3339, htotal, hparts, hhour, hminute, hsecond, zeroPadded_four hyear,
      zeroPadded_two (show t.month < 100 by omega), zeroPadded_two (show t.day < 100 by omega),
      zeroPadded_two (show t.hour < 100 by omega), zeroPadded_two (show t.minute < 100 by omega),
      zeroPadded_two (show t.second < 100 by omega)]
    refine congrArg (fun chars => Rfc3339.new (String.ofList chars)) ?_
    simp [Timestamp.chars, Timestamp.fixedChars, hzone, hfraction, hsep]
  have hvalid := validateRfc3339_chars t
  refine ⟨⟨String.ofList t.chars, by rw [hvalid]; rfl⟩, ?_, rfl⟩
  rw [hnow]
  exact Rfc3339.new_text ⟨String.ofList t.chars, _⟩

/-- **The instant of a stamp is the reading.**

**Proof sketch.** The stamp has a date that exists, no leap second and no fraction, so the host can
place it, and the seconds of the day and of the date add up to the reading, because the day number
of the date is the one it was made from. -/
lemma instant_nowRfc3339 (h : By9999 s) {ts : Rfc3339}
    (htext : ts.text = String.ofList (readingParts s h).chars) :
    instant ts = some ((s : ℤ), 0) := by
  have hparts := civilFromDays_reading h
  have hdate : (readingParts s h).DateExists := by
    have hisDate := isDate_civilFromDays (s / 86400)
    rw [hparts] at hisDate
    exact isDate_natCast_iff.mp hisDate
  have hplace : (readingParts s h).Placeable := by
    refine ⟨?_, nofun, hdate⟩
    show s % 60 ≠ 60
    omega
  have hseconds : (readingParts s h).seconds = s := by
    have hdays := daysFromCivil_civilFromDays (s / 86400)
    rw [hparts, daysFromCivil_eq hdate] at hdays
    rw [Timestamp.seconds, hdays]
    show (s : ℤ) / 86400 * 86400 + ((s % 86400 / 3600 : ℕ) : ℤ) * 3600 +
      ((s % 3600 / 60 : ℕ) : ℤ) * 60 + ((s % 60 : ℕ) : ℤ) - 0 = s
    omega
  rw [instant_eq htext, if_pos hplace, hseconds]
  rfl

end Reading

section Order

/-- A greater digit is a greater character. -/
lemma digitChar_lt {i j : ℕ} (h : i < j) (hj : j < 10) : i.digitChar < j.digitChar := by
  interval_cases j <;> interval_cases i <;> decide

/-- Two digits, and then the rest: the texts compare as the numbers of the digits do, and by the
rest where these are equal. -/
lemma twoChars_append_lt {n m : ℕ} {x y : List Char} (hm : m < 100) (h : n < m ∨ n = m ∧ x < y) :
    twoChars n ++ x < twoChars m ++ y := by
  rw [twoChars, twoChars]
  simp only [List.cons_append, List.nil_append, List.cons_lt_cons_iff]
  rcases h with hlt | ⟨rfl, hrest⟩
  · rcases Nat.lt_or_ge (n / 10) (m / 10) with htens | htens
    · exact Or.inl (digitChar_lt htens (by omega))
    · have heq : n / 10 = m / 10 := by omega
      exact Or.inr ⟨congrArg Nat.digitChar heq, Or.inl (digitChar_lt (by omega) (by omega))⟩
  · exact Or.inr ⟨rfl, Or.inr ⟨rfl, hrest⟩⟩

/-- A common separator leaves the comparison to the rest. -/
lemma cons_append_lt {ch : Char} {x y : List Char} (h : x < y) : ch :: x < ch :: y :=
  List.cons_lt_cons_iff.mpr (Or.inr ⟨rfl, h⟩)

/-- **The texts of timestamps compare by year, month, day, hour, minute and second**, where the
letter between date and time is the same.

**Proof sketch.** The digits of the parts stand at fixed places and in this order, two by two, with
the same signs between them; each pair decides, or is equal and leaves it to the rest. -/
lemma chars_lt {t t' : Timestamp} (hsep : t.lowerT = t'.lowerT)
    (h : t.year < t'.year ∨ t.year = t'.year ∧ (t.month < t'.month ∨ t.month = t'.month ∧
      (t.day < t'.day ∨ t.day = t'.day ∧ (t.hour < t'.hour ∨ t.hour = t'.hour ∧
        (t.minute < t'.minute ∨ t.minute = t'.minute ∧ t.second < t'.second))))) :
    t.chars < t'.chars := by
  have hyear := t'.year_lt
  have hmonth := t'.month_bounds
  have hday := t'.day_bounds
  have hhour := t'.hour_le
  have hminute := t'.minute_le
  have hsecond := t'.second_le
  simp only [Timestamp.chars, Timestamp.fixedChars, List.append_assoc, List.cons_append, hsep]
  have hcentury : t.year / 100 < t'.year / 100 ∨
      t.year / 100 = t'.year / 100 ∧ (t.year % 100 < t'.year % 100 ∨ t.year = t'.year ∧
        (t.month < t'.month ∨ t.month = t'.month ∧
          (t.day < t'.day ∨ t.day = t'.day ∧ (t.hour < t'.hour ∨ t.hour = t'.hour ∧
            (t.minute < t'.minute ∨ t.minute = t'.minute ∧ t.second < t'.second))))) := by
    omega
  refine twoChars_append_lt (by omega) (hcentury.imp_right (And.imp_right fun h => ?_))
  refine twoChars_append_lt (by omega) (h.imp_right fun h => ⟨by rw [h.1], ?_⟩)
  refine cons_append_lt (twoChars_append_lt (by omega) (h.2.imp_right (And.imp_right fun h => ?_)))
  refine cons_append_lt (twoChars_append_lt (by omega) (h.imp_right (And.imp_right fun h => ?_)))
  refine cons_append_lt (twoChars_append_lt (by omega) (h.imp_right (And.imp_right fun h => ?_)))
  refine cons_append_lt (twoChars_append_lt (by omega) (h.imp_right (And.imp_right fun h => ?_)))
  exact cons_append_lt (twoChars_append_lt (by omega) (Or.inl h))

/-- ASCII texts compare the same by bytes. -/
lemma map_ascii_lt {a b : List Char} (ha : ∀ ch ∈ a, ch.toNat < 128)
    (hb : ∀ ch ∈ b, ch.toNat < 128) (h : a < b) : a.map ascii < b.map ascii := by
  induction a generalizing b with
  | nil =>
    cases b with
    | nil => exact absurd h (List.not_lt_nil _)
    | cons ch b => exact List.nil_lt_cons _ _
  | cons ch a ih =>
    cases b with
    | nil => exact absurd h (List.not_lt_nil _)
    | cons ch' b =>
      obtain ⟨hch, ha⟩ := List.forall_mem_cons.mp ha
      obtain ⟨hch', hb⟩ := List.forall_mem_cons.mp hb
      rw [List.map_cons, List.map_cons, List.cons_lt_cons_iff]
      refine (List.cons_lt_cons_iff.mp h).imp (fun hlt => ?_) fun heq =>
        ⟨congrArg ascii heq.1, ih ha hb heq.2⟩
      rw [UInt8.lt_iff_toNat_lt, toNat_ascii hch, toNat_ascii hch']
      exact hlt

variable {s t : ℕ}

/-- **A later reading has a greater stamp.** -/
lemma chars_reading_lt (hs : By9999 s) (ht : By9999 t) (h : s < t) :
    (readingParts s hs).chars < (readingParts t ht).chars := by
  have hcivil := civilFromDays_reading hs
  have hcivil' := civilFromDays_reading ht
  obtain ⟨hsep, hhour, hminute, hsecond⟩ := time_reading hs
  obtain ⟨hsep', hhour', hminute', hsecond'⟩ := time_reading ht
  generalize readingParts s hs = parts at *
  generalize readingParts t ht = parts' at *
  refine chars_lt (hsep.trans hsep'.symm) ?_
  rcases Nat.lt_or_ge (s / 86400) (t / 86400) with hdays | hdays
  · have hmono := strictMono_civilFromDays (show (s : ℤ) / 86400 < t / 86400 by omega)
    simp only [hcivil, hcivil', Prod.Lex.toLex_lt_toLex] at hmono
    omega
  · have heq : (s : ℤ) / 86400 = t / 86400 := by omega
    rw [heq, hcivil', Prod.mk.injEq, Prod.mk.injEq] at hcivil
    obtain ⟨hyear, hmonth, hday⟩ := hcivil
    omega

/-- **Stamps compare as readings do**, as texts and bytewise.

**Proof sketch.** A smaller reading has the smaller text (`chars_reading_lt`), and its bytes are
those of its characters, as they are all ASCII. For the converse, one of two readings is smaller, or
they are equal, and then so are the texts. -/
lemma stamp_lt_iff (hs : By9999 s) (ht : By9999 t) {ts tt : Rfc3339}
    (hts : ts.text = String.ofList (readingParts s hs).chars)
    (htt : tt.text = String.ofList (readingParts t ht).chars) :
    (asBytes ts.text < asBytes tt.text ↔ s < t) ∧ (ts.text < tt.text ↔ s < t) := by
  have hlt {s t : ℕ} (hs : By9999 s) (ht : By9999 t) (h : s < t) :
      asBytes (String.ofList (readingParts s hs).chars) <
          asBytes (String.ofList (readingParts t ht).chars) ∧
        String.ofList (readingParts s hs).chars < String.ofList (readingParts t ht).chars := by
    have hchars := chars_reading_lt hs ht h
    refine ⟨?_, ?_⟩
    · rw [asBytes_ofList (Timestamp.chars_ascii _), asBytes_ofList (Timestamp.chars_ascii _)]
      exact map_ascii_lt (Timestamp.chars_ascii _) (Timestamp.chars_ascii _) hchars
    · rw [String.lt_iff_toList_lt, String.toList_ofList, String.toList_ofList]
      exact hchars
  have hasymm : Std.Asymm (fun a b : UInt8 => a < b) := ⟨fun _ _ => UInt8.lt_asymm⟩
  rw [hts, htt]
  rcases Nat.lt_trichotomy s t with h | rfl | h
  · exact ⟨iff_of_true (hlt hs ht h).1 h, iff_of_true (hlt hs ht h).2 h⟩
  · exact ⟨iff_of_false (fun hlt => List.lt_asymm hlt hlt) (lt_irrefl s),
      iff_of_false (lt_irrefl _) (lt_irrefl s)⟩
  · exact ⟨iff_of_false (List.lt_asymm (hlt ht hs h).1) h.not_gt,
      iff_of_false (hlt ht hs h).2.not_gt h.not_gt⟩

end Order

/-- The observations were received at readings of the clock. -/
def ReceivedAt (clock : Observation → ℕ) (observations : List Observation) : Prop :=
  ∀ o ∈ observations, By9999 (clock o) ∧ nowRfc3339 (clock o) = .ok o.provenance.receivedAt

/-- **Host stamps sort as text the way they sort in time.** A stamp is accepted and its instant is
the reading; stamps compare bytewise as readings do; and so the order of a chain is that of clock,
surface and arrival, and a chain is its observations sorted by the clock.

**Proof sketch.** A stamp is the text of the parts of its reading (`nowRfc3339_eq`), with all its
numbers at fixed places and padded to one width; so texts compare as the parts do, from the year
down to the second, and these as the readings (`stamp_lt_iff`). The keys of the order begin with the
stamp, so that an order by stamp is one by reading, and sorting by either is the same. -/
theorem stamps_sort_as_time :
    (∀ s, By9999 s → ∃ ts, nowRfc3339 s = .ok ts ∧ instant ts = some ((s : ℤ), 0)) ∧
    (∀ s t ts tt, By9999 s → By9999 t → nowRfc3339 s = .ok ts → nowRfc3339 t = .ok tt →
      (asBytes ts.text < asBytes tt.text ↔ s < t) ∧
      ∀ surface surface' arrival arrival',
        foldOrderKey ts surface arrival < foldOrderKey tt surface' arrival' ↔
          toLex (s, toLex (surface, arrival)) < toLex (t, toLex (surface', arrival'))) ∧
    ∀ clock observations, ReceivedAt clock observations → ∀ adapterId localId,
      ((replay observations).chain adapterId localId).map RevisionedObservation.observation =
        sortBy (fun o => toLex (clock o, o.surface))
          (observations.filter fun o => chainKey o = (adapterId, localId)) := by
  have hstamp {s : ℕ} {ts : Rfc3339} (hs : By9999 s) (hts : nowRfc3339 s = .ok ts) :
      ts.text = String.ofList (readingParts s hs).chars := by
    obtain ⟨ts', hts', htext⟩ := nowRfc3339_eq hs
    obtain rfl : ts = ts' := Except.ok.inj (hts.symm.trans hts')
    exact htext
  have htexts {s t : ℕ} {ts tt : Rfc3339} (hs : By9999 s) (ht : By9999 t)
      (hts : nowRfc3339 s = .ok ts) (htt : nowRfc3339 t = .ok tt) : ts.text < tt.text ↔ s < t :=
    (stamp_lt_iff hs ht (hstamp hs hts) (hstamp ht htt)).2
  have heq {s t : ℕ} {ts tt : Rfc3339} (hs : By9999 s) (ht : By9999 t)
      (hts : nowRfc3339 s = .ok ts) (htt : nowRfc3339 t = .ok tt) : ts.text = tt.text ↔ s = t := by
    have hless := htexts hs ht hts htt
    have hgreater := htexts ht hs htt hts
    rw [eq_iff_le_not_lt, ← not_lt, hless, hgreater]
    omega
  refine ⟨fun s hs => ?_, fun s t ts tt hs ht hts htt => ?_,
    fun clock observations hreceived adapterId localId => ?_⟩
  · obtain ⟨ts, hts, htext⟩ := nowRfc3339_eq hs
    exact ⟨ts, hts, instant_nowRfc3339 hs htext⟩
  · refine ⟨(stamp_lt_iff hs ht (hstamp hs hts) (hstamp ht htt)).1,
      fun surface surface' arrival arrival' => ?_⟩
    simp only [foldOrderKey, Prod.Lex.toLex_lt_toLex]
    exact or_congr (htexts hs ht hts htt) (and_congr_left fun _ => heq hs ht hts htt)
  · rw [map_observation_chain]
    set chain := observations.filter fun o => chainKey o = (adapterId, localId)
    have hchain : ∀ o ∈ chain, By9999 (clock o) ∧
        nowRfc3339 (clock o) = .ok o.provenance.receivedAt :=
      fun o ho => hreceived o (List.mem_filter.mp ho).1
    have hsame : chain.Pairwise fun a b => orderKey a ≤ orderKey b ↔
        toLex (clock a, a.surface) ≤ toLex (clock b, b.surface) := by
      refine List.Pairwise.imp_of_mem (fun {a b} ha hb _ => ?_)
        (List.pairwise_of_forall fun _ _ => trivial)
      obtain ⟨hby, hat⟩ := hchain a ha
      obtain ⟨hby', hat'⟩ := hchain b hb
      rw [orderKey, orderKey, Prod.Lex.toLex_le_toLex, Prod.Lex.toLex_le_toLex]
      exact or_congr (htexts hby hby' hat hat') (and_congr_left fun _ => heq hby hby' hat hat')
    have hsort : (sortBy orderKey chain).map id =
        sortBy (fun o => toLex (clock o, o.surface)) (chain.map id) := map_insertionSort id hsame
    rwa [List.map_id, List.map_id] at hsort

/-- The last second of a year, and the first one of the next. -/
def lastSecond : Rfc3339 := ⟨"2024-12-31T23:59:59Z", by decide⟩

/-- The second after it. -/
def firstSecond : Rfc3339 := ⟨"2025-01-01T00:00:00Z", by decide⟩

/-- A payment, as the host has received it at some instant. -/
def receivedPayment (description : String) (receivedAt : Rfc3339) : Observation where
  resourceId := "checking"
  localId := "x"
  providerId := none
  supersedesProviderId := none
  state := .active
  tombstoneReason := none
  surface := "api"
  posting := .posted
  amount := ⟨⟨"gbp", by decide⟩, 12, 0, by decide, Money.zero_le_maxScale⟩
  fees := none
  rawSign := .providerPositive
  description := description
  providerExtra := []
  provenance :=
    { adapterId := "bank", providerId := "bank.example", surface := "api",
      observedAt := receivedAt, receivedAt := receivedAt, effectiveAt := none, staleness := .live,
      completeness := .complete }

/-- The reading at which such a payment was received. -/
def receivedReading (o : Observation) : ℕ :=
  if o.provenance.receivedAt = lastSecond then 1735689599 else 1735689600

/-- Two readings on both sides of midnight: their stamps sort as they do, though no field of the one
is greater than that of the other but the year, and of two payments the one that was received first
comes first, though it arrived last. -/
theorem stamps_sort_as_time_midnight :
    instant lastSecond = some (1735689599, 0) ∧ asBytes lastSecond.text < asBytes firstSecond.text ∧
      ((replay [receivedPayment "second" firstSecond, receivedPayment "first" lastSecond]).chain
        "bank" "x").map (Observation.description ∘ RevisionedObservation.observation) =
          ["first", "second"] := by
  obtain ⟨hinstants, horder, hchains⟩ := stamps_sort_as_time
  have hby : By9999 1735689599 ∧ By9999 1735689600 := by decide +kernel
  have hlast : nowRfc3339 1735689599 = .ok lastSecond := by decide +kernel
  have hfirst : nowRfc3339 1735689600 = .ok firstSecond := by decide +kernel
  have hreceived : ReceivedAt receivedReading
      [receivedPayment "second" firstSecond, receivedPayment "first" lastSecond] :=
    List.forall_mem_cons.mpr ⟨⟨hby.2, hfirst⟩, List.forall_mem_singleton.mpr ⟨hby.1, hlast⟩⟩
  obtain ⟨ts, hts, hinstant⟩ := hinstants 1735689599 hby.1
  obtain rfl : lastSecond = ts := Except.ok.inj (hlast.symm.trans hts)
  have hlt := (horder _ _ _ _ hby.1 hby.2 hlast hfirst).1.mpr (by decide)
  refine ⟨hinstant, hlt, ?_⟩
  rw [← List.map_map, hchains receivedReading _ hreceived]
  decide +kernel

end Sumer.Host
