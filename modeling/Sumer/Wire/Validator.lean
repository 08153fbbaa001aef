import Sumer.Wire.Timestamp

set_option relaxedAutoImplicit false
set_option autoImplicit false

/-!
# The timestamp validator

`validate_rfc3339` (`core/wire/src/observation.rs`) accepts the texts of timestamps and no others,
complains about a place in the text, and reads nothing outside it.

## Main definitions

* `Sumer.Wire.Checked.validateRfc3339`: the check once more, where an index out of bounds or a
  subtraction below zero is a panic.

## Main results

* `Sumer.Wire.validateRfc3339_chars`: the text of a timestamp is accepted.
* `Sumer.Wire.validator_exact`: the validator accepts exactly its grammar.
-/

namespace Sumer.Wire

section Accepts

variable {b : List UInt8} {t : Timestamp}

/-- Two digits are read as their number. -/
lemma twoDigits_eq {i n : ℕ} (hn : n < 100) (hfirst : b[i]? = some (ascii (n / 10).digitChar))
    (hsecond : b[i + 1]? = some (ascii (n % 10).digitChar)) : twoDigits b i = some n := by
  obtain ⟨-, hdigit₁, hvalue₁⟩ := @digitByte (n / 10) (by omega)
  obtain ⟨-, hdigit₂, hvalue₂⟩ := @digitByte (n % 10) (by omega)
  simp only [twoDigits, hfirst, hsecond, Option.bind_eq_bind, Option.bind_some, hdigit₁, hdigit₂,
    Bool.and_self, if_true, hvalue₁, hvalue₂]
  congr 1
  omega

/-- A zone at the end passes.

**Proof sketch.** From the place on, the text is the zone and nothing else, so the guards read its
characters: the letter of UTC at the very end, or a sign, an hour of at most 23, a colon and a
minute of at most 59, again at the end. -/
lemma validateZone_of_drop {i : ℕ} {zone : Zone} (hbounds : zone.InBounds)
    (hi : i ≤ b.length) (h : b.drop i = zone.chars.map ascii) : validateZone b i = .ok () := by
  have hat (k : ℕ) : b[i + k]? = (zone.chars.map ascii)[k]? := by
    rw [← List.getElem?_drop, h]
  have hlength : b.length = i + zone.chars.length := by
    have hsum := congrArg List.length h
    rw [List.length_drop, List.length_map] at hsum
    omega
  have hhead : b[i]? = _ := hat 0
  cases zone with
  | utc lower =>
    have hend : i + 1 = b.length := hlength.symm
    cases lower
    · simp only [validateZone, hhead, hend]
      rfl
    · simp only [validateZone, hhead, hend]
      rfl
  | offset negative hour minute =>
    obtain ⟨hhour, hminute⟩ := hbounds
    have hend : i + 6 = b.length := hlength.symm
    have hhours : twoDigits b (i + 1) = some hour := twoDigits_eq (by omega) (hat 1) (hat 2)
    have hcolon : b[i + 3]? = some (ascii ':') := hat 3
    have hminutes : twoDigits b (i + 4) = some minute := twoDigits_eq (by omega) (hat 4) (hat 5)
    have hsign : ¬ (ascii (if negative then '-' else '+') = ascii 'Z' ∨
        ascii (if negative then '-' else '+') = ascii 'z') := by
      cases negative <;> decide
    have hplus : ascii (if negative then '-' else '+') = ascii '+' ∨
        ascii (if negative then '-' else '+') = ascii '-' := by
      cases negative <;> decide
    have hfirst : b[i]? = some (ascii (if negative then '-' else '+')) := hhead
    unfold validateZone
    rw [hfirst]
    simp only [if_neg hsign, if_pos hplus, hhours, hcolon, hminutes, okOr, bind, Except.bind,
      ne_eq, not_true_eq_false, if_false, if_neg (not_lt.mpr hhour), if_neg (not_lt.mpr hminute),
      if_pos hend]
    rfl

/-- The fraction and the zone at the end pass.

**Proof sketch.** Without a fraction the byte after the seconds is the first of the zone, which is
no point. With one, the digits after the point end where the zone begins, and there is at least one.
Either way the zone is at the end, and passes (`validateZone_of_drop`). -/
lemma validateTail_of_chars (h : b = t.chars.map ascii) : validateTail b = .ok () := by
  have hat : b[19]? = _ := getElem?_tail h 0
  have hlength : b.length = 19 + (fractionChars t.fraction).length + t.zone.chars.length := by
    have hfixed : t.fixedChars.length = 19 := rfl
    rw [h, List.length_map, Timestamp.chars, List.length_append, List.length_append, hfixed]
    omega
  have hdrop : b.drop (19 + (fractionChars t.fraction).length) = t.zone.chars.map ascii := by
    rw [h, Timestamp.chars, ← List.append_assoc, List.map_append]
    refine List.drop_left' ?_
    have hfixed : t.fixedChars.length = 19 := rfl
    rw [List.length_map, List.length_append, hfixed]
  have hzone := validateZone_of_drop t.zone_bounds (by omega) hdrop
  rw [validateTail_eq]
  cases hf : t.fraction with
  | nil =>
    obtain ⟨ch, rest, hchars, -, hpoint⟩ := zone_head t.zone
    have hnot : ¬ b[19]? = some (ascii '.') := by
      simpa [hat, hf, fractionChars, hchars] using hpoint
    rw [if_neg hnot]
    simpa [hf, fractionChars] using hzone
  | cons digit digits =>
    have hne : t.fraction ≠ [] := by simp [hf]
    have hyes : b[19]? = some (ascii '.') := by simp [hat, hf, fractionChars]
    have hend : digitsEnd b 20 = 19 + (fractionChars t.fraction).length := by
      rw [digitsEnd_of_chars h hne, hf]
      simp only [fractionChars, List.length_cons]
      omega
    have hsome : ¬ digitsEnd b 20 = 20 := by
      rw [hend, hf]
      simp only [fractionChars, List.length_cons]
      omega
    rw [if_pos hyes, if_neg hsome, hend, hzone]

/-- Every check passed is a text accepted.

**Proof sketch.** The checks are followed in order, and each is met by one of the hypotheses. -/
lemma validateRfc3339_of_places {s : String} {month day hour minute second : ℕ} {lower : Bool}
    (hlength : 20 ≤ (asBytes s).length) (hyear : ∀ x ∈ (asBytes s).take 4, isAsciiDigit x = true)
    (hdash₁ : (asBytes s)[4]? = some (ascii '-'))
    (hmonth : twoDigits (asBytes s) 5 = some month) (hmonth_bounds : 1 ≤ month ∧ month ≤ 12)
    (hdash₂ : (asBytes s)[7]? = some (ascii '-'))
    (hday : twoDigits (asBytes s) 8 = some day) (hday_bounds : 1 ≤ day ∧ day ≤ 31)
    (hsep : (asBytes s)[10]? = some (ascii (if lower then 't' else 'T')))
    (hhour : twoDigits (asBytes s) 11 = some hour) (hhour_le : hour ≤ 23)
    (hcolon₁ : (asBytes s)[13]? = some (ascii ':'))
    (hminute : twoDigits (asBytes s) 14 = some minute) (hminute_le : minute ≤ 59)
    (hcolon₂ : (asBytes s)[16]? = some (ascii ':'))
    (hsecond : twoDigits (asBytes s) 17 = some second) (hsecond_le : second ≤ 60)
    (htail : validateTail (asBytes s) = .ok ()) : validateRfc3339 s = .ok () := by
  unfold validateRfc3339
  set b := asBytes s
  have hat {i : ℕ} (hi : i < b.length) {x : UInt8} (hx : b[i]? = some x) : b[i] = x := by
    rw [List.getElem?_eq_getElem hi] at hx
    exact Option.some.inj hx
  have hsep' : b[10] = ascii 'T' ∨ b[10] = ascii 't' := by
    rw [hat (by omega) hsep]
    cases lower
    · exact Or.inl rfl
    · exact Or.inr rfl
  rw [dif_neg (not_lt.mpr hlength), if_neg (not_not.mpr (List.all_eq_true.mpr hyear)),
    if_neg (not_not.mpr (hat (by omega) hdash₁)), hmonth]
  simp only [okOr, bind, Except.bind]
  rw [if_neg (not_not.mpr hmonth_bounds), if_neg (not_not.mpr (hat (by omega) hdash₂)), hday]
  simp only
  rw [if_neg (not_not.mpr hday_bounds), if_neg (not_not.mpr hsep'), hhour]
  simp only
  rw [if_neg (not_lt.mpr hhour_le), if_neg (not_not.mpr (hat (by omega) hcolon₁)), hminute]
  simp only
  rw [if_neg (not_lt.mpr hminute_le), if_neg (not_not.mpr (hat (by omega) hcolon₂)), hsecond]
  simp only
  rw [if_neg (not_lt.mpr hsecond_le)]
  exact htail

/-- The first nineteen bytes of the text are those of the date and the time, at fixed places. -/
lemma getElem?_fixed (h : b = t.chars.map ascii) {i : ℕ} (hi : i < 19) :
    b[i]? = (t.fixedChars.map ascii)[i]? := by
  have hfixed : (t.fixedChars.map ascii).length = 19 := rfl
  rw [h, Timestamp.chars, List.map_append, List.getElem?_append_left (hfixed ▸ hi)]

end Accepts

/-- **The text of a timestamp is accepted.**

**Proof sketch.** The first nineteen characters stand at fixed places (`getElem?_fixed`), so every
guard sees the character that the parts put there; the bounds of the parts are those that the guards
ask for. The fraction and the zone are `validateTail_of_chars`. -/
lemma validateRfc3339_chars (t : Timestamp) : validateRfc3339 (String.ofList t.chars) = .ok () := by
  have hb := asBytes_ofList t.chars_ascii
  have hat {i : ℕ} (hi : i < 19) := getElem?_fixed hb hi
  have hlength : 20 ≤ (asBytes (String.ofList t.chars)).length := by
    obtain ⟨ch, rest, hchars, -⟩ := zone_head t.zone
    have hfixed : t.fixedChars.length = 19 := rfl
    rw [hb, List.length_map, Timestamp.chars, List.length_append, List.length_append, hfixed,
      hchars, List.length_cons]
    omega
  have hyear : ∀ x ∈ (asBytes (String.ofList t.chars)).take 4, isAsciiDigit x = true := by
    have htake : (asBytes (String.ofList t.chars)).take 4 =
        (twoChars (t.year / 100) ++ twoChars (t.year % 100)).map ascii := by
      rw [hb]
      rfl
    have hlt := t.year_lt
    rw [htake]
    simp only [twoChars, List.cons_append, List.nil_append, List.map_cons, List.map_nil,
      List.forall_mem_cons, List.not_mem_nil, false_implies, implies_true, and_true]
    exact ⟨(digitByte (by omega)).2.1, (digitByte (by omega)).2.1, (digitByte (by omega)).2.1,
      (digitByte (by omega)).2.1⟩
  have hmonth := t.month_bounds
  have hday := t.day_bounds
  have hhour := t.hour_le
  have hminute := t.minute_le
  have hsecond := t.second_le
  exact validateRfc3339_of_places hlength hyear (hat (by decide))
    (twoDigits_eq (by omega) (hat (by decide)) (hat (by decide))) hmonth (hat (by decide))
    (twoDigits_eq (by omega) (hat (by decide)) (hat (by decide))) hday (hat (by decide))
    (twoDigits_eq (by omega) (hat (by decide)) (hat (by decide))) hhour (hat (by decide))
    (twoDigits_eq (by omega) (hat (by decide)) (hat (by decide))) hminute (hat (by decide))
    (twoDigits_eq (by omega) (hat (by decide)) (hat (by decide))) hsecond
    (validateTail_of_chars hb)

/-! ### Where it complains -/

/-- A check complains about a place up to `n`. -/
def ComplainsWithin {α : Type} (n : ℕ) (x : Except Rfc3339Error α) : Prop :=
  ∀ e, x = .error e → e.offset ≤ n

section Complains

variable {b : List UInt8} {α β : Type} {n offset : ℕ}

/-- A check that succeeds complains about no byte at all. -/
lemma complainsWithin_ok (a : α) : ComplainsWithin n (.ok a) := nofun

/-- A check that complains at an offset complains within any length that reaches as far as that
offset. -/
lemma complainsWithin_throw (h : offset ≤ n) :
    ComplainsWithin n (throw ⟨offset⟩ : Except Rfc3339Error α) := by
  intro e he
  obtain rfl : (⟨offset⟩ : Rfc3339Error) = e := Except.error.inj he
  exact h

/-- A check that throws, and what follows it. -/
lemma complainsWithin_guard {p : Prop} [Decidable p] {k : Unit → Except Rfc3339Error α}
    (h : p → offset ≤ n) (hk : ¬ p → ComplainsWithin n (k ())) :
    ComplainsWithin n (if p then throw ⟨offset⟩ >>= k else k ()) := by
  split_ifs with hp
  · exact complainsWithin_throw (h hp)
  · exact hk hp

/-- A read that has to succeed, and what follows it. -/
lemma complainsWithin_okOr {x : Option β} {k : β → Except Rfc3339Error α}
    (h : offset ≤ n) (hk : ∀ v, x = some v → ComplainsWithin n (k v)) :
    ComplainsWithin n (okOr x offset >>= k) := by
  cases x with
  | none => exact complainsWithin_throw h
  | some v => exact hk v rfl

/-- A place that has a byte is before the end. -/
lemma lt_of_getElem?_eq_some {i : ℕ} {x : UInt8} (h : b[i]? = some x) : i < b.length :=
  (List.getElem?_eq_some_iff.mp h).1

/-- The check of the zone complains about a place in the text, or its end.

**Proof sketch.** The check is followed byte by byte. Where the text ends it complains about
the end, and each byte that it refuses is one of the text; a byte behind the zone is within the text
as well. -/
lemma complainsWithin_zone (i : ℕ) : ComplainsWithin b.length (validateZone b i) := by
  unfold validateZone
  cases hc : b[i]? with
  | none => exact complainsWithin_throw le_rfl
  | some c =>
    have hi := lt_of_getElem?_eq_some hc
    by_cases hutc : c = ascii 'Z' ∨ c = ascii 'z'
    · simp only [if_pos hutc]
      split_ifs
      · exact complainsWithin_ok ()
      · exact complainsWithin_throw hi
    by_cases hsign : c = ascii '+' ∨ c = ascii '-'
    · simp only [if_neg hutc, if_pos hsign]
      refine complainsWithin_okOr hi fun hour hhour => ?_
      have htwo := lt_of_getElem?_eq_some (twoDigits_eq_some hhour).2.2
      refine complainsWithin_guard (fun _ => hi) fun _ => ?_
      refine complainsWithin_guard (fun _ => htwo) fun hcolon => ?_
      have hthree := lt_of_getElem?_eq_some (not_not.mp hcolon)
      refine complainsWithin_okOr hthree fun minute hminute => ?_
      have hfive := lt_of_getElem?_eq_some (twoDigits_eq_some hminute).2.2
      refine complainsWithin_guard (fun _ => hthree) fun _ => ?_
      split_ifs
      · exact complainsWithin_ok ()
      · exact complainsWithin_throw hfive
    · simp only [if_neg hutc, if_neg hsign]
      exact complainsWithin_throw hi.le

/-- The check of the tail complains about a place in the text, or its end. -/
lemma complainsWithin_tail : ComplainsWithin b.length (validateTail b) := by
  rw [validateTail_eq]
  split_ifs with hdot hstop
  · rw [hstop]
    exact complainsWithin_throw (lt_of_getElem?_eq_some hdot)
  · exact complainsWithin_zone _
  · exact complainsWithin_zone _

/-- **A rejection reports a place in the text, or its end.**

**Proof sketch.** The checks are followed in order. The text is long enough, past the first of them,
for every place that they complain about. -/
lemma complainsWithin_validateRfc3339 (s : String) :
    ComplainsWithin (asBytes s).length (validateRfc3339 s) := by
  unfold validateRfc3339
  by_cases hshort : (asBytes s).length < 20
  · rw [dif_pos hshort]
    exact complainsWithin_throw le_rfl
  · rw [dif_neg hshort]
    have hlength : 20 ≤ (asBytes s).length := not_lt.mp hshort
    refine complainsWithin_guard (fun _ => by omega) fun _ => ?_
    refine complainsWithin_guard (fun _ => by omega) fun _ => ?_
    refine complainsWithin_okOr (by omega) fun month _ => ?_
    refine complainsWithin_guard (fun _ => by omega) fun _ => ?_
    refine complainsWithin_guard (fun _ => by omega) fun _ => ?_
    refine complainsWithin_okOr (by omega) fun day _ => ?_
    refine complainsWithin_guard (fun _ => by omega) fun _ => ?_
    refine complainsWithin_guard (fun _ => by omega) fun _ => ?_
    refine complainsWithin_okOr (by omega) fun hour _ => ?_
    refine complainsWithin_guard (fun _ => by omega) fun _ => ?_
    refine complainsWithin_guard (fun _ => by omega) fun _ => ?_
    refine complainsWithin_okOr (by omega) fun minute _ => ?_
    refine complainsWithin_guard (fun _ => by omega) fun _ => ?_
    refine complainsWithin_guard (fun _ => by omega) fun _ => ?_
    refine complainsWithin_okOr (by omega) fun second _ => ?_
    refine complainsWithin_guard (fun _ => by omega) fun _ => ?_
    exact complainsWithin_tail

end Complains

/-! ### What it reads -/

namespace Checked

/-- A check that panics where it would read outside the text or subtract below zero. -/
abbrev Check (α : Type) := ExceptT Rfc3339Error Option α

/-- `b[i]`. -/
def index (b : List UInt8) (i : ℕ) : Check UInt8 := ExceptT.lift b[i]?

/-- `b[i..j]`. -/
def range (b : List UInt8) (i j : ℕ) : Check (List UInt8) :=
  ExceptT.lift (if i ≤ j ∧ j ≤ b.length then some ((b.drop i).take (j - i)) else none)

/-- `a - b'0'` of a `u8`. -/
def digitValue (a : UInt8) : Option ℕ :=
  if ascii '0' ≤ a then some (a - ascii '0').toNat else none

/-- `two_digits`. -/
def twoDigits (bytes : List UInt8) (i : ℕ) : Option (Option ℕ) :=
  match bytes[i]?, bytes[i + 1]? with
  | some a, some b =>
    if isAsciiDigit a && isAsciiDigit b then do
      let tens ← digitValue a
      let ones ← digitValue b
      some (some (tens * 10 + ones))
    else some none
  | _, _ => some none

/-- `ok_or`. -/
def okOr (x : Option (Option ℕ)) (offset : ℕ) : Check ℕ := x.map fun v => Wire.okOr v offset

/-- The check of the zone that starts at `i`. -/
def validateZone (b : List UInt8) (i : ℕ) : Check Unit :=
  match b[i]? with
  | none => throw ⟨b.length⟩
  | some c =>
    if c = ascii 'Z' ∨ c = ascii 'z' then
      if i + 1 = b.length then pure () else throw ⟨i + 1⟩
    else if c = ascii '+' ∨ c = ascii '-' then do
      let offHour ← okOr (twoDigits b (i + 1)) (i + 1)
      if offHour > 23 then throw ⟨i + 1⟩
      if b[i + 3]? ≠ some (ascii ':') then throw ⟨i + 3⟩
      let offMin ← okOr (twoDigits b (i + 4)) (i + 4)
      if offMin > 59 then throw ⟨i + 4⟩
      if i + 6 = b.length then pure () else throw ⟨i + 6⟩
    else throw ⟨i⟩

/-- The check of everything after the seconds. -/
def validateTail (b : List UInt8) : Check Unit :=
  if b[19]? = some (ascii '.') then
    let stop := digitsEnd b 20
    if stop = 20 then throw ⟨stop⟩ else validateZone b stop
  else validateZone b 19

/-- `validate_rfc3339`, every plain index a read that may fail. -/
def validateRfc3339 (s : String) : Check Unit := do
  let b := asBytes s
  if b.length < 20 then throw ⟨b.length⟩
  if ¬ (← range b 0 4).all isAsciiDigit then throw ⟨0⟩
  if (← index b 4) ≠ ascii '-' then throw ⟨4⟩
  let month ← okOr (twoDigits b 5) 5
  if ¬ (1 ≤ month ∧ month ≤ 12) then throw ⟨5⟩
  if (← index b 7) ≠ ascii '-' then throw ⟨7⟩
  let day ← okOr (twoDigits b 8) 8
  if ¬ (1 ≤ day ∧ day ≤ 31) then throw ⟨8⟩
  let sep ← index b 10
  if ¬ (sep = ascii 'T' ∨ sep = ascii 't') then throw ⟨10⟩
  let hour ← okOr (twoDigits b 11) 11
  if hour > 23 then throw ⟨11⟩
  if (← index b 13) ≠ ascii ':' then throw ⟨13⟩
  let minute ← okOr (twoDigits b 14) 14
  if minute > 59 then throw ⟨14⟩
  if (← index b 16) ≠ ascii ':' then throw ⟨16⟩
  let second ← okOr (twoDigits b 17) 17
  if second > 60 then throw ⟨17⟩
  validateTail b

/-- A check that does not panic. -/
def ofExcept {α : Type} (x : Except Rfc3339Error α) : Check α := some x

section Reads

variable {b : List UInt8} {α β : Type}

/-- A check without indexing that goes on after another one is the same sequence of checks in the
source's own monad. -/
lemma ofExcept_bind (x : Except Rfc3339Error α) (k : α → Except Rfc3339Error β) :
    ofExcept (x >>= k) = ofExcept x >>= fun a => ofExcept (k a) := by
  cases x <;> rfl

/-- A complaint is the same complaint in the source's own monad. -/
lemma ofExcept_throw (e : Rfc3339Error) :
    ofExcept (throw e : Except Rfc3339Error α) = (throw e : Check α) := rfl

/-- A value is the same value in the source's own monad. -/
lemma ofExcept_pure (a : α) : ofExcept (pure a) = (pure a : Check α) := rfl

/-- A choice between two checks may be made in either monad. -/
lemma ofExcept_ite {p : Prop} [Decidable p] (x y : Except Rfc3339Error α) :
    ofExcept (if p then x else y) = if p then ofExcept x else ofExcept y := by
  split_ifs <;> rfl

/-- An index within the bounds is read, and nothing is thrown. -/
lemma index_eq {i : ℕ} (h : i < b.length) : index b i = pure b[i] := by
  rw [index, List.getElem?_eq_getElem h]
  rfl

/-- The four bytes of the year are there in a text of four bytes or more, so that the slice does not
panic. -/
lemma range_eq (h : 4 ≤ b.length) : range b 0 4 = pure (b.take 4) := by
  rw [range, if_pos ⟨by decide, h⟩]
  rfl

/-- The value of a digit is not below zero. -/
lemma digitValue_eq {a : UInt8} (h : isAsciiDigit a = true) :
    digitValue a = some (Wire.digitValue a) := by
  have hle : ascii '0' ≤ a := by
    rw [isAsciiDigit, Bool.and_eq_true, decide_eq_true_eq] at h
    exact h.1
  rw [digitValue, if_pos hle, UInt8.toNat_sub_of_le _ _ hle, Wire.digitValue]

/-- Two digits are read without a panic. -/
lemma twoDigits_eq (i : ℕ) : twoDigits b i = some (Wire.twoDigits b i) := by
  unfold twoDigits Wire.twoDigits
  cases b[i]? with
  | none => rfl
  | some x =>
    cases b[i + 1]? with
    | none => rfl
    | some y =>
      simp only [Option.bind_eq_bind, Option.bind_some]
      by_cases h : (isAsciiDigit x && isAsciiDigit y) = true
      · obtain ⟨hx, hy⟩ := (Bool.and_eq_true _ _).mp h
        simp only [if_pos h, digitValue_eq hx, digitValue_eq hy, Option.bind_some]
      · simp only [if_neg h]

/-- A pair of digits is read alike with and without the indexing of the source. -/
lemma okOr_eq (i offset : ℕ) :
    okOr (twoDigits b i) offset = ofExcept (Wire.okOr (Wire.twoDigits b i) offset) := by
  rw [twoDigits_eq]
  rfl

/-- The check of the zone does not panic. -/
lemma validateZone_eq (i : ℕ) : validateZone b i = ofExcept (Wire.validateZone b i) := by
  unfold validateZone Wire.validateZone
  cases b[i]? with
  | none => rfl
  | some c =>
    simp only [okOr_eq, ofExcept_bind, ofExcept_ite, ofExcept_throw, ofExcept_pure]

/-- The check of the tail does not panic. -/
lemma validateTail_eq : validateTail b = ofExcept (Wire.validateTail b) := by
  rw [Wire.validateTail_eq]
  simp only [validateTail, validateZone_eq, ofExcept_ite]
  rfl

/-- **No index is out of bounds**, and no subtraction below zero. -/
lemma validateRfc3339_eq (s : String) : validateRfc3339 s = ofExcept (Wire.validateRfc3339 s) := by
  unfold validateRfc3339 Wire.validateRfc3339
  by_cases hshort : (asBytes s).length < 20
  · simp only [if_pos hshort, dif_pos hshort]
    rfl
  · rw [dif_neg hshort]
    have hlength : 20 ≤ (asBytes s).length := not_lt.mp hshort
    simp only [if_neg hshort, range_eq (show 4 ≤ (asBytes s).length by omega),
      index_eq (show 4 < (asBytes s).length by omega),
      index_eq (show 7 < (asBytes s).length by omega),
      index_eq (show 10 < (asBytes s).length by omega),
      index_eq (show 13 < (asBytes s).length by omega),
      index_eq (show 16 < (asBytes s).length by omega),
      okOr_eq, validateTail_eq, pure_bind, ofExcept_bind, ofExcept_ite, ofExcept_throw]

end Reads

end Checked

/-- **The validator accepts exactly its grammar and never fails.** A text is accepted exactly when
it is that of a timestamp; every index it reads is in bounds; and a rejection reports an offset not
past the end. -/
theorem validator_exact (s : String) :
    (validateRfc3339 s = .ok () ↔ ∃ t : Timestamp, s = String.ofList t.chars) ∧
      Checked.validateRfc3339 s = some (validateRfc3339 s) ∧
      ∀ e, validateRfc3339 s = .error e → e.offset ≤ (asBytes s).length := by
  refine ⟨⟨fun h => ?_, ?_⟩, Checked.validateRfc3339_eq s, complainsWithin_validateRfc3339 s⟩
  · exact Rfc3339.exists_timestamp ⟨s, by rw [h]; rfl⟩
  · rintro ⟨t, rfl⟩
    exact validateRfc3339_chars t

end Sumer.Wire
