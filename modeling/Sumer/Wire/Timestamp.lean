import Mathlib.Tactic.IntervalCases
import Sumer.Wire.Rfc3339

set_option relaxedAutoImplicit false
set_option autoImplicit false

/-!
# Timestamps by their parts

What a timestamp spells: a date, a time of day, the digits of a fraction of any length, and a
zone. Every text that `Rfc3339` accepts is the text of such parts.

## Main definitions

* `Sumer.Wire.Timestamp`: the parts, within the bounds of the format.
* `Sumer.Wire.Timestamp.chars`: their text.

## Main results

* `Sumer.Wire.Rfc3339.exists_timestamp`: every accepted text has its parts.
-/

namespace Sumer.Wire

/-- A zone: UTC, in either spelling, or an offset from it. -/
inductive Zone where
  | utc (lower : Bool)
  | offset (negative : Bool) (hour minute : ℕ)

/-- The bounds of an offset. -/
def Zone.InBounds : Zone → Prop
  | .utc _ => True
  | .offset _ hour minute => hour ≤ 23 ∧ minute ≤ 59

/-- The parts of a timestamp. Whether the month has the day is not among its bounds. -/
structure Timestamp where
  year : ℕ
  month : ℕ
  day : ℕ
  lowerT : Bool
  hour : ℕ
  minute : ℕ
  second : ℕ
  /-- The digits after the point; there is no point without a digit. -/
  fraction : List Char
  zone : Zone
  year_lt : year < 10000
  month_bounds : 1 ≤ month ∧ month ≤ 12
  day_bounds : 1 ≤ day ∧ day ≤ 31
  hour_le : hour ≤ 23
  minute_le : minute ≤ 59
  second_le : second ≤ 60
  digits : ∀ ch ∈ fraction, ch.isDigit = true
  zone_bounds : zone.InBounds

/-- Two digits. -/
def twoChars (n : ℕ) : List Char := [(n / 10).digitChar, (n % 10).digitChar]

/-- The text of a zone. -/
def Zone.chars : Zone → List Char
  | .utc lower => [if lower then 'z' else 'Z']
  | .offset negative hour minute =>
    (if negative then '-' else '+') :: twoChars hour ++ ':' :: twoChars minute

/-- No fraction has no digits to check. -/
lemma digits_nil : ∀ ch ∈ ([] : List Char), ch.isDigit = true := List.forall_mem_nil _

/-- The text of a fraction, with its point. -/
def fractionChars : List Char → List Char
  | [] => []
  | digit :: digits => '.' :: digit :: digits

/-- The date and the time of day: the nineteen characters at fixed places. -/
def Timestamp.fixedChars (t : Timestamp) : List Char :=
  twoChars (t.year / 100) ++ twoChars (t.year % 100) ++ '-' :: twoChars t.month ++
    '-' :: twoChars t.day ++ (if t.lowerT then 't' else 'T') :: twoChars t.hour ++
    ':' :: twoChars t.minute ++ ':' :: twoChars t.second

/-- The text of the parts. -/
def Timestamp.chars (t : Timestamp) : List Char :=
  t.fixedChars ++ (fractionChars t.fraction ++ t.zone.chars)

/-- All of it is ASCII.

**Proof sketch.** The digits are ASCII because the bounds of the parts leave two digits for each
(four for the year), the fraction by its own field, and the signs between them by inspection. -/
lemma Timestamp.chars_ascii (t : Timestamp) : ∀ ch ∈ t.chars, ch.toNat < 128 := by
  have htwo (n : ℕ) (hn : n < 100) : ∀ ch ∈ twoChars n, ch.toNat < 128 := by
    have hdigit (d : ℕ) (hd : d < 10) : d.digitChar.toNat < 128 := by
      interval_cases d <;> decide
    simpa [twoChars] using ⟨hdigit _ (by omega), hdigit _ (by omega)⟩
  have hyear := t.year_lt
  have hmonth := t.month_bounds
  have hday := t.day_bounds
  have hhour := t.hour_le
  have hminute := t.minute_le
  have hsecond := t.second_le
  have hdigits : ∀ ch ∈ t.fraction, ch.toNat < 128 := fun ch hch => by
    have := Digits.isDigit_iff.mp (t.digits ch hch)
    omega
  have hfraction : ∀ ch ∈ fractionChars t.fraction, ch.toNat < 128 := by
    cases hf : t.fraction with
    | nil => simp [fractionChars]
    | cons digit rest =>
      rw [hf] at hdigits
      exact List.forall_mem_cons.mpr ⟨by decide, hdigits⟩
  have hzone : ∀ ch ∈ t.zone.chars, ch.toNat < 128 := by
    have hbounds := t.zone_bounds
    cases hz : t.zone with
    | utc lower => cases lower <;> simp [Zone.chars]
    | offset negative hour minute =>
      rw [hz] at hbounds
      obtain ⟨h23, h59⟩ := hbounds
      simp only [Zone.chars, List.cons_append, List.forall_mem_append, List.forall_mem_cons]
      exact ⟨by cases negative <;> decide, htwo hour (by omega), by decide,
        htwo minute (by omega)⟩
  simp only [Timestamp.chars, Timestamp.fixedChars, List.append_assoc, List.cons_append,
    List.forall_mem_append, List.forall_mem_cons]
  exact ⟨htwo _ (by omega), htwo _ (by omega), by decide, htwo _ (by omega), by decide,
    htwo _ (by omega), by cases t.lowerT <;> decide, htwo _ (by omega), by decide,
    htwo _ (by omega), by decide, htwo _ (by omega), hfraction, hzone⟩

section Digits

variable {bytes : List UInt8} {i n : ℕ}

/-- The digit of a number below ten, as a byte. -/
lemma digitByte (h : n < 10) :
    n.digitChar.isDigit = true ∧ isAsciiDigit (ascii n.digitChar) = true ∧
      digitValue (ascii n.digitChar) = n := by
  have hdigit : n.digitChar.isDigit = true := by rw [Nat.isDigit_digitChar, decide_eq_true h]
  refine ⟨hdigit, isAsciiDigit_ascii hdigit, ?_⟩
  rw [digitValue_ascii hdigit]
  exact Nat.toNat_digitChar_sub_48_of_lt_ten h

/-- A digit byte is the digit of its value. -/
lemma ascii_digitChar_digitValue {b : UInt8} (h : isAsciiDigit b = true) :
    digitValue b < 10 ∧ ascii (digitValue b).digitChar = b := by
  obtain ⟨ch, hch, rfl⟩ := exists_digit_of_isAsciiDigit h
  have hbounds := Digits.isDigit_iff.mp hch
  rw [digitValue_ascii hch]
  refine ⟨by omega, congrArg ascii (Char.toNat_inj.mp ?_)⟩
  have hcode := Nat.toNat_digitChar_sub_48_of_lt_ten (n := ch.toNat - 48) (by omega)
  have hdigit : (ch.toNat - 48).digitChar.isDigit = true := by
    rw [Nat.isDigit_digitChar, decide_eq_true_eq]
    omega
  have := Digits.isDigit_iff.mp hdigit
  omega

/-- The two digits that were read as a number. -/
lemma twoDigits_eq_some (h : twoDigits bytes i = some n) :
    n < 100 ∧ bytes[i]? = some (ascii (n / 10).digitChar) ∧
      bytes[i + 1]? = some (ascii (n % 10).digitChar) := by
  unfold twoDigits at h
  cases ha : bytes[i]? with
  | none => simp [ha] at h
  | some a =>
    cases hb : bytes[i + 1]? with
    | none => simp [ha, hb] at h
    | some b =>
      simp only [ha, hb, Option.bind_eq_bind, Option.bind_some, Option.ite_none_right_eq_some,
        Bool.and_eq_true, Option.some.injEq] at h
      obtain ⟨⟨hda, hdb⟩, rfl⟩ := h
      obtain ⟨hla, hva⟩ := ascii_digitChar_digitValue hda
      obtain ⟨hlb, hvb⟩ := ascii_digitChar_digitValue hdb
      have hdiv : (digitValue a * 10 + digitValue b) / 10 = digitValue a := by omega
      have hmod : (digitValue a * 10 + digitValue b) % 10 = digitValue b := by omega
      rw [hdiv, hmod, hva, hvb]
      exact ⟨by omega, rfl, rfl⟩

end Digits

section Accepted

variable {b : List UInt8}

/-- The check of the zone that starts at `i`. -/
def validateZone (b : List UInt8) (i : ℕ) : Except Rfc3339Error Unit :=
  match b[i]? with
  | none => throw ⟨b.length⟩
  | some c =>
    if c = ascii 'Z' ∨ c = ascii 'z' then
      if i + 1 = b.length then pure () else throw ⟨i + 1⟩
    else if c = ascii '+' ∨ c = ascii '-' then do
      let offHour ← okOr (twoDigits b (i + 1)) (i + 1)
      if offHour > 23 then throw ⟨i + 1⟩
      if b[i + 3]? ≠ some (ascii ':') then throw ⟨i + 3⟩
      let offMin ← okOr (twoDigits b (i + 4)) (i + 4)
      if offMin > 59 then throw ⟨i + 4⟩
      if i + 6 = b.length then pure () else throw ⟨i + 6⟩
    else throw ⟨i⟩

/-- The check of the tail, the zone apart. -/
lemma validateTail_eq :
    validateTail b =
      (if b[19]? = some (ascii '.') then
        if digitsEnd b 20 = 20 then .error ⟨digitsEnd b 20⟩ else validateZone b (digitsEnd b 20)
      else validateZone b 19) := by
  by_cases hdot : b[19]? = some (ascii '.')
  · by_cases hstop : digitsEnd b 20 = 20
    · simp only [validateTail, hdot, hstop, if_true]
      rfl
    · simp only [validateTail, hdot, hstop, if_true, if_false]
      rfl
  · simp only [validateTail, hdot, if_false]
    rfl

/-- The end of a text is determined by its last bytes, one by one. -/
lemma drop_eq_of_getElem? {i : ℕ} {tail : List UInt8} (hlength : b.length = i + tail.length)
    (h : ∀ j < tail.length, b[i + j]? = tail[j]?) : b.drop i = tail := by
  refine List.ext_getElem? fun j => ?_
  rw [List.getElem?_drop]
  by_cases hj : j < tail.length
  · exact h j hj
  · rw [List.getElem?_eq_none (by omega), List.getElem?_eq_none (by omega)]

/-- What passes the check of the zone is one.

**Proof sketch.** The check is run on the byte at the place. A `Z` of either case has to be the last
byte, and is the zone of UTC. A sign has to be followed by two digits, a colon and two digits, with
the text ending there; read place by place, these six bytes are the text of an offset. Whatever else
stands there is refused. -/
lemma exists_zone {i : ℕ} (h : validateZone b i = .ok ()) :
    ∃ zone : Zone, zone.InBounds ∧ b.drop i = zone.chars.map ascii := by
  unfold validateZone at h
  cases hc : b[i]? with
  | none => simp [hc, throw, throwThe, MonadExceptOf.throw] at h
  | some c =>
    simp only [hc] at h
    by_cases hutc : c = ascii 'Z' ∨ c = ascii 'z'
    · have hlength : i + 1 = b.length := by
        by_contra hne
        simp [hutc, hne, throw, throwThe, MonadExceptOf.throw] at h
      obtain ⟨lower, rfl⟩ : ∃ lower : Bool, c = ascii (if lower then 'z' else 'Z') := by
        rcases hutc with rfl | rfl
        · exact ⟨false, rfl⟩
        · exact ⟨true, rfl⟩
      refine ⟨.utc lower, trivial, drop_eq_of_getElem? hlength.symm fun j hj => ?_⟩
      obtain rfl : j = 0 := by simpa [Zone.chars] using hj
      simpa [Zone.chars] using hc
    · rw [if_neg hutc] at h
      by_cases hsign : c = ascii '+' ∨ c = ascii '-'
      · rw [if_pos hsign] at h
        obtain ⟨hour, minute, hhour, hhour_le, hcolon, hminute, hminute_le, hlength⟩ :
            ∃ hour minute, twoDigits b (i + 1) = some hour ∧ hour ≤ 23 ∧
              b[i + 3]? = some (ascii ':') ∧ twoDigits b (i + 4) = some minute ∧ minute ≤ 59 ∧
              i + 6 = b.length := by
          cases hhour : twoDigits b (i + 1) with
          | none => simp [hhour, okOr, bind, Except.bind] at h
          | some hour =>
            by_cases hhour_le : hour > 23
            · simp [hhour, hhour_le, okOr, throw, throwThe, MonadExceptOf.throw, bind,
                Except.bind] at h
            by_cases hcolon : b[i + 3]? = some (ascii ':')
            case neg =>
              simp [hhour, hhour_le, hcolon, okOr, throw, throwThe, MonadExceptOf.throw, bind,
                Except.bind] at h
            cases hminute : twoDigits b (i + 4) with
            | none => simp [hhour, hhour_le, hcolon, hminute, okOr, bind, Except.bind] at h
            | some minute =>
              simp only [hhour, hhour_le, hcolon, hminute, okOr, throw, throwThe,
                MonadExceptOf.throw, bind, Except.bind, pure, Except.pure, ne_eq,
                not_true_eq_false, if_false] at h
              by_cases hminute_le : minute > 59
              · simp [hminute_le] at h
              by_cases hlength : i + 6 = b.length
              · exact ⟨hour, minute, rfl, by omega, hcolon, rfl, by omega, hlength⟩
              · simp [hminute_le, hlength] at h
        obtain ⟨negative, rfl⟩ : ∃ negative : Bool, c = ascii (if negative then '-' else '+') := by
          rcases hsign with rfl | rfl
          · exact ⟨false, rfl⟩
          · exact ⟨true, rfl⟩
        obtain ⟨-, hhour₁, hhour₂⟩ := twoDigits_eq_some hhour
        obtain ⟨-, hminute₁, hminute₂⟩ := twoDigits_eq_some hminute
        refine ⟨.offset negative hour minute, ⟨hhour_le, hminute_le⟩,
          drop_eq_of_getElem? hlength.symm fun j hj => ?_⟩
        have hj : j < 6 := hj
        interval_cases j
        · simpa [Zone.chars] using hc
        · exact hhour₁
        · exact hhour₂
        · exact hcolon
        · exact hminute₁
        · exact hminute₂
      · simp [hsign, throw, throwThe, MonadExceptOf.throw] at h

/-- What passes the check of the tail is a fraction, or none, and a zone.

**Proof sketch.** A point has to be followed by at least one digit, and these digits up to the first
byte that is none are the fraction; the zone is what comes after them. Without a point the fraction
is empty. The zone is one by `exists_zone`. -/
lemma exists_tail (h : validateTail b = .ok ()) :
    ∃ (fraction : List Char) (zone : Zone), (∀ ch ∈ fraction, ch.isDigit = true) ∧
      zone.InBounds ∧ b.drop 19 = (fractionChars fraction ++ zone.chars).map ascii := by
  rw [validateTail_eq] at h
  split_ifs at h with hdot hstop
  · obtain ⟨zone, hbounds, hzone⟩ := exists_zone h
    obtain ⟨fraction, hdigits, hfraction⟩ :=
      exists_digits_of_isAsciiDigit
        fun x (hx : x ∈ (b.drop 20).takeWhile isAsciiDigit) => List.mem_takeWhile_imp hx
    have hsplit : b.drop 19 = ascii '.' :: (fraction.map ascii ++ zone.chars.map ascii) := by
      have hlt : 19 < b.length := by
        by_contra hle
        rw [List.getElem?_eq_none (by omega)] at hdot
        cases hdot
      have hhead : b[19] = ascii '.' := by
        rw [List.getElem?_eq_getElem hlt] at hdot
        exact Option.some.inj hdot
      have hrest : b.drop (digitsEnd b 20) = (b.drop 20).dropWhile isAsciiDigit := by
        rw [digitsEnd, ← List.drop_drop]
        generalize b.drop 20 = rest
        conv_lhs => arg 2; rw [← List.takeWhile_append_dropWhile (p := isAsciiDigit) (l := rest)]
        exact List.drop_left
      rw [List.drop_eq_getElem_cons hlt, hhead, hfraction, ← hzone, hrest,
        List.takeWhile_append_dropWhile]
    refine ⟨fraction, zone, hdigits, hbounds, ?_⟩
    cases fraction with
    | nil =>
      have hnone : ((b.drop 20).takeWhile isAsciiDigit) = [] := by simpa using hfraction.symm
      exact absurd (by simp [digitsEnd, hnone]) hstop
    | cons digit digits => simpa [fractionChars] using hsplit
  · obtain ⟨zone, hbounds, hzone⟩ := exists_zone h
    exact ⟨[], zone, by simp, hbounds, by simpa [fractionChars] using hzone⟩

/-- A check that throws was passed, if the whole succeeded. -/
lemma guard_eq_ok {ε α : Type} {p : Prop} [Decidable p] {e : ε} {k : Unit → Except ε α} {a : α}
    (h : (if p then throw e >>= k else k ()) = .ok a) : ¬p ∧ k () = .ok a := by
  by_cases hp : p
  · simp only [hp, if_true] at h
    cases h
  · exact ⟨hp, by simpa [hp] using h⟩

/-- A read that has to succeed did. -/
lemma okOr_bind_eq_ok {α β : Type} {x : Option α} {offset : ℕ} {k : α → Except Rfc3339Error β}
    {a : β} (h : okOr x offset >>= k = .ok a) : ∃ v, x = some v ∧ k v = .ok a := by
  cases x with
  | none => cases h
  | some v => exact ⟨v, rfl, h⟩

/-- What passes the check, place by place.

**Proof sketch.** The check is a sequence of guards, each of which throws when it fails. Since it
succeeded, every one of them passed, and each of them is about one place of the text. -/
lemma validateRfc3339_eq_ok {s : String} (h : validateRfc3339 s = .ok ()) :
    20 ≤ (asBytes s).length ∧ (∀ x ∈ (asBytes s).take 4, isAsciiDigit x = true) ∧
      (asBytes s)[4]? = some (ascii '-') ∧
      (∃ month, twoDigits (asBytes s) 5 = some month ∧ 1 ≤ month ∧ month ≤ 12) ∧
      (asBytes s)[7]? = some (ascii '-') ∧
      (∃ day, twoDigits (asBytes s) 8 = some day ∧ 1 ≤ day ∧ day ≤ 31) ∧
      (∃ lower : Bool, (asBytes s)[10]? = some (ascii (if lower then 't' else 'T'))) ∧
      (∃ hour, twoDigits (asBytes s) 11 = some hour ∧ hour ≤ 23) ∧
      (asBytes s)[13]? = some (ascii ':') ∧
      (∃ minute, twoDigits (asBytes s) 14 = some minute ∧ minute ≤ 59) ∧
      (asBytes s)[16]? = some (ascii ':') ∧
      (∃ second, twoDigits (asBytes s) 17 = some second ∧ second ≤ 60) ∧
      validateTail (asBytes s) = .ok () := by
  unfold validateRfc3339 at h
  set b := asBytes s
  by_cases hlength : b.length < 20
  · rw [dif_pos hlength] at h
    cases h
  rw [dif_neg hlength] at h
  have hat (i : ℕ) (hi : i < b.length) {x : UInt8} (hx : ¬ b[i] ≠ x) : b[i]? = some x := by
    rw [List.getElem?_eq_getElem hi, not_not.mp hx]
  obtain ⟨hyear, h⟩ := guard_eq_ok h
  obtain ⟨hdash₁, h⟩ := guard_eq_ok h
  obtain ⟨month, hmonth, h⟩ := okOr_bind_eq_ok h
  obtain ⟨hmonth_bounds, h⟩ := guard_eq_ok h
  obtain ⟨hdash₂, h⟩ := guard_eq_ok h
  obtain ⟨day, hday, h⟩ := okOr_bind_eq_ok h
  obtain ⟨hday_bounds, h⟩ := guard_eq_ok h
  obtain ⟨hsep, h⟩ := guard_eq_ok h
  obtain ⟨hour, hhour, h⟩ := okOr_bind_eq_ok h
  obtain ⟨hhour_le, h⟩ := guard_eq_ok h
  obtain ⟨hcolon₁, h⟩ := guard_eq_ok h
  obtain ⟨minute, hminute, h⟩ := okOr_bind_eq_ok h
  obtain ⟨hminute_le, h⟩ := guard_eq_ok h
  obtain ⟨hcolon₂, h⟩ := guard_eq_ok h
  obtain ⟨second, hsecond, h⟩ := okOr_bind_eq_ok h
  obtain ⟨hsecond_le, h⟩ := guard_eq_ok h
  refine ⟨by omega, by simpa using hyear, hat 4 (by omega) hdash₁,
    ⟨month, hmonth, not_not.mp hmonth_bounds⟩, hat 7 (by omega) hdash₂,
    ⟨day, hday, not_not.mp hday_bounds⟩, ?_, ⟨hour, hhour, not_lt.mp hhour_le⟩,
    hat 13 (by omega) hcolon₁, ⟨minute, hminute, not_lt.mp hminute_le⟩,
    hat 16 (by omega) hcolon₂, ⟨second, hsecond, not_lt.mp hsecond_le⟩, h⟩
  rcases not_not.mp hsep with hupper | hlower
  · exact ⟨false, hat 10 (by omega) (not_not.mpr hupper)⟩
  · exact ⟨true, hat 10 (by omega) (not_not.mpr hlower)⟩

/-- Four digits are those of a year below ten thousand.

**Proof sketch.** The four bytes are those of four digits, whose number is taken apart again by
division. -/
lemma exists_year (hlength : 4 ≤ b.length) (h : ∀ x ∈ b.take 4, isAsciiDigit x = true) :
    ∃ year < 10000, b.take 4 = (twoChars (year / 100) ++ twoChars (year % 100)).map ascii := by
  rcases b with _ | ⟨b₀, _ | ⟨b₁, _ | ⟨b₂, _ | ⟨b₃, rest⟩⟩⟩⟩
  case cons.cons.cons.cons =>
    simp only [List.take_succ_cons, List.take_zero, List.forall_mem_cons] at h
    obtain ⟨h₀, h₁, h₂, h₃, -⟩ := h
    obtain ⟨hlt₀, hb₀⟩ := ascii_digitChar_digitValue h₀
    obtain ⟨hlt₁, hb₁⟩ := ascii_digitChar_digitValue h₁
    obtain ⟨hlt₂, hb₂⟩ := ascii_digitChar_digitValue h₂
    obtain ⟨hlt₃, hb₃⟩ := ascii_digitChar_digitValue h₃
    refine ⟨digitValue b₀ * 1000 + digitValue b₁ * 100 + digitValue b₂ * 10 + digitValue b₃,
      by omega, ?_⟩
    generalize digitValue b₀ = d₀ at *
    generalize digitValue b₁ = d₁ at *
    generalize digitValue b₂ = d₂ at *
    generalize digitValue b₃ = d₃ at *
    have e₀ : (d₀ * 1000 + d₁ * 100 + d₂ * 10 + d₃) / 100 / 10 = d₀ := by omega
    have e₁ : (d₀ * 1000 + d₁ * 100 + d₂ * 10 + d₃) / 100 % 10 = d₁ := by omega
    have e₂ : (d₀ * 1000 + d₁ * 100 + d₂ * 10 + d₃) % 100 / 10 = d₂ := by omega
    have e₃ : (d₀ * 1000 + d₁ * 100 + d₂ * 10 + d₃) % 100 % 10 = d₃ := by omega
    simp [twoChars, e₀, e₁, e₂, e₃, hb₀, hb₁, hb₂, hb₃]
  all_goals simp at hlength

end Accepted

/-- **Every accepted text has its parts.**

**Proof sketch.** What the check has passed is taken apart place by place (`validateRfc3339_eq_ok`):
every pair of digits gives a part within its bounds, the year is four digits, and what follows the
nineteenth byte is a fraction and a zone (`exists_tail`). The parts written again are these bytes,
and bytes below 128 determine the text. -/
theorem Rfc3339.exists_timestamp (ts : Rfc3339) :
    ∃ t : Timestamp, ts.text = String.ofList t.chars := by
  have hvalid : validateRfc3339 ts.text = .ok () := by
    have h := ts.valid
    cases hv : validateRfc3339 ts.text with
    | error e => simp [hv, Except.toOption] at h
    | ok u => rfl
  obtain ⟨hlength, hyear, hdash₁, ⟨month, hmonth, hmonth_bounds⟩, hdash₂, ⟨day, hday, hday_bounds⟩,
    ⟨lowerT, hsep⟩, ⟨hour, hhour, hhour_le⟩, hcolon₁, ⟨minute, hminute, hminute_le⟩, hcolon₂,
    ⟨second, hsecond, hsecond_le⟩, htail⟩ := validateRfc3339_eq_ok hvalid
  obtain ⟨year, hyear_lt, hyear⟩ := exists_year (by omega) hyear
  obtain ⟨fraction, zone, hdigits, hzone, htail⟩ := exists_tail htail
  set b := asBytes ts.text with hb
  have htake (i : ℕ) (hi : i < 4) : b[i]? = (b.take 4)[i]? := by
    rw [List.getElem?_take, if_pos hi]
  obtain ⟨-, hmonth₁, hmonth₂⟩ := twoDigits_eq_some hmonth
  obtain ⟨-, hday₁, hday₂⟩ := twoDigits_eq_some hday
  obtain ⟨-, hhour₁, hhour₂⟩ := twoDigits_eq_some hhour
  obtain ⟨-, hminute₁, hminute₂⟩ := twoDigits_eq_some hminute
  obtain ⟨-, hsecond₁, hsecond₂⟩ := twoDigits_eq_some hsecond
  let t : Timestamp := ⟨year, month, day, lowerT, hour, minute, second, fraction, zone, hyear_lt,
    hmonth_bounds, hday_bounds, hhour_le, hminute_le, hsecond_le, hdigits, hzone⟩
  have hfixed : b.take 19 = t.fixedChars.map ascii := by
    refine List.ext_getElem? fun i => ?_
    rw [List.getElem?_take]
    by_cases hi : i < 19
    · rw [if_pos hi]
      interval_cases i <;> first | assumption | (rw [htake _ (by decide), hyear]; rfl)
    · rw [if_neg hi, List.getElem?_eq_none]
      have hnineteen : (t.fixedChars.map ascii).length = 19 := rfl
      omega
  have hall : b = t.chars.map ascii := by
    rw [← List.take_append_drop 19 b, hfixed, htail]
    exact List.map_append.symm
  exact ⟨t, eq_ofList_of_asBytes t.chars_ascii (hb.symm.trans hall)⟩

section Parts

variable {b : List UInt8} {t : Timestamp}

/-- The bytes after the fixed places are those of the fraction and the zone. -/
lemma getElem?_tail (h : b = t.chars.map ascii) (j : ℕ) :
    b[19 + j]? = ((fractionChars t.fraction ++ t.zone.chars).map ascii)[j]? := by
  have hlength : (t.fixedChars.map ascii).length = 19 := rfl
  rw [h, Timestamp.chars, List.map_append, List.getElem?_append_right (by omega), hlength]
  congr 1
  omega

/-- A zone does not begin with a digit or a point. -/
lemma zone_head (zone : Zone) :
    ∃ ch rest, zone.chars = ch :: rest ∧ isAsciiDigit (ascii ch) = false ∧
      ascii ch ≠ ascii '.' := by
  cases zone with
  | utc lower => cases lower <;> exact ⟨_, _, rfl, by decide, by decide⟩
  | offset negative hour minute => cases negative <;> exact ⟨_, _, rfl, by decide, by decide⟩

/-- Behind the point stand the digits of the fraction, and then the zone. -/
lemma drop_twenty (h : b = t.chars.map ascii) (hne : t.fraction ≠ []) :
    b.drop 20 = t.fraction.map ascii ++ t.zone.chars.map ascii := by
  refine List.ext_getElem? fun j => ?_
  rw [List.getElem?_drop, show 20 + j = 19 + (j + 1) by omega, getElem?_tail h, ← List.map_append]
  cases hf : t.fraction with
  | nil => exact absurd hf hne
  | cons digit digits => simp [fractionChars]

/-- The digits of the fraction end where the zone begins. -/
lemma digitsEnd_of_chars (h : b = t.chars.map ascii) (hne : t.fraction ≠ []) :
    digitsEnd b 20 = 20 + t.fraction.length := by
  obtain ⟨ch, rest, hzone, hhead, -⟩ := zone_head t.zone
  have hrest : (t.zone.chars.map ascii).takeWhile isAsciiDigit = [] := by
    simp [hzone, hhead]
  have hall : ∀ x ∈ t.fraction.map ascii, isAsciiDigit x = true := by
    simpa using fun ch hch => isAsciiDigit_ascii (t.digits ch hch)
  rw [digitsEnd, drop_twenty h hne, List.takeWhile_append_of_pos hall, hrest]
  simp

end Parts

end Sumer.Wire
