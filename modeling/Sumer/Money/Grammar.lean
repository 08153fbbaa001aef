import Sumer.Money.Arithmetic

set_option relaxedAutoImplicit false
set_option autoImplicit false

/-!
# The grammar of amounts

`Amount::parse` against the grammar it is documented to accept, `-?(0|[1-9][0-9]*)(\.[0-9]+)?`, and
against `format_decimal`, which prints an amount. A literal carries the grammar as its invariant, so
that what is proved of the parser is proved of the texts of literals.

## Main definitions

* `Sumer.Money.Literal`: a text of the grammar, by its parts.
* `Sumer.Money.Literal.denote`, `Sumer.Money.Literal.significant`: its value and its digits.
* `Sumer.Money.Amount.literal`: the literal that an amount is printed as.

## Main results

* `Sumer.Money.parse_text`: what the parser makes of a literal.
* `Sumer.Money.exists_literal_of_parse`: it accepts nothing else.
* `Sumer.Money.formatDecimal_literal`: printing what a literal denotes gives it back.
* `Sumer.Money.parse_iff_literal`: the grammar, the value and the round trips.
-/

namespace Sumer.Money

open Sumer.Wire

/-- A text of the grammar `-?(0|[1-9][0-9]*)(\.[0-9]+)?`: a sign, the digits before the point, and
those after it. Without digits after it there is no point. -/
structure Literal where
  neg : Bool
  int : List Char
  frac : List Char
  int_digits : ∀ ch ∈ int, ch.isDigit = true
  frac_digits : ∀ ch ∈ frac, ch.isDigit = true
  int_ne : int ≠ []
  int_lead : int.head? = some '0' → int = ['0']

namespace Literal

/-- The sign of a literal. -/
def sign (l : Literal) : List Char := if l.neg then ['-'] else []

/-- The point of a literal and what follows it. -/
def fraction (l : Literal) : List Char := if l.frac = [] then [] else '.' :: l.frac

/-- The characters of a literal. -/
def chars (l : Literal) : List Char := l.sign ++ l.int ++ l.fraction

/-- The text of a literal. -/
def text (l : Literal) : String := String.ofList l.chars

/-- The number that the digits of a literal make. -/
def magnitude (l : Literal) : ℕ := Nat.ofDigitChars 10 (l.int ++ l.frac) 0

/-- The signed number that the digits of a literal make. -/
def units (l : Literal) : ℤ := if l.neg then -(l.magnitude : ℤ) else l.magnitude

/-- The rational that a literal denotes. -/
def denote (l : Literal) : ℚ :=
  (if l.neg then -1 else 1) *
    (Nat.ofDigitChars 10 l.int 0 + Nat.ofDigitChars 10 l.frac 0 / 10 ^ l.frac.length)

/-- The number of significant digits: those after the leading zeros, and one for zero. -/
def significant (l : Literal) : ℕ := max 1 ((l.int ++ l.frac).dropWhile (· == '0')).length

variable {l : Literal}

/-! ### What a literal denotes -/

/-- The integer and the fraction of a literal are written in decimal digits only. -/
lemma digits (l : Literal) : ∀ ch ∈ l.int ++ l.frac, ch.isDigit = true := fun ch hch =>
  (List.mem_append.mp hch).elim (l.int_digits ch) (l.frac_digits ch)

/-- A literal denotes its digits, with the point as many places from the right as there are
digits after it. -/
lemma denote_eq (l : Literal) : l.denote = FixedPoint.value 10 l.units l.frac.length := by
  have hpos : (10 : ℚ) ^ l.frac.length ≠ 0 := by positivity
  have hmagnitude : (l.magnitude : ℚ) =
      10 ^ l.frac.length * Nat.ofDigitChars 10 l.int 0 + Nat.ofDigitChars 10 l.frac 0 := by
    rw [magnitude, Nat.ofDigitChars_append, Nat.ofDigitChars_eq_ofDigitChars_zero]
    push_cast
    rfl
  have hsum : (Nat.ofDigitChars 10 l.int 0 : ℚ) + Nat.ofDigitChars 10 l.frac 0 /
      10 ^ l.frac.length = l.magnitude / 10 ^ l.frac.length := by
    rw [hmagnitude]
    field_simp
  rw [denote, hsum, FixedPoint.value, units]
  split_ifs
  · push_cast
    ring
  · push_cast
    ring

/-- A literal denotes zero exactly when its digits do, whatever its sign. -/
lemma denote_eq_zero_iff : l.denote = 0 ↔ l.magnitude = 0 := by
  have hpos : ((10 : ℕ) : ℚ) ^ l.frac.length ≠ 0 := by positivity
  rw [denote_eq, FixedPoint.value, div_eq_zero_iff, or_iff_left hpos, Int.cast_eq_zero, units]
  split_ifs <;> omega

/-- The digits of what a literal denotes are its significant ones. -/
lemma digitCount_units (l : Literal) : digitCount l.units = l.significant := by
  have hmagnitude : l.units.natAbs = l.magnitude := by
    rw [units]
    split_ifs <;> omega
  rw [digitCount, magnitudeDigits, hmagnitude, magnitude,
    Digits.length_toDigits_ofDigitChars l.digits, significant]

/-! ### The bytes of a literal -/

/-- The characters of a literal are ASCII.

**Proof sketch.** A literal has a sign or none, digits, and possibly a point and digits. -/
lemma toNat_lt (l : Literal) : ∀ ch ∈ l.chars, ch.toNat < 128 := by
  have hdigit {ch : Char} (h : ch.isDigit = true) : ch.toNat < 128 := by
    have := Digits.isDigit_iff.mp h
    omega
  intro ch hch
  rw [chars, List.mem_append, List.mem_append] at hch
  rcases hch with (hsign | hint) | hfrac
  · rw [sign] at hsign
    split_ifs at hsign
    · rw [List.mem_singleton.mp hsign]
      decide
    · exact absurd hsign List.not_mem_nil
  · exact hdigit (l.int_digits ch hint)
  · rw [fraction] at hfrac
    split_ifs at hfrac
    · exact absurd hfrac List.not_mem_nil
    · rcases List.mem_cons.mp hfrac with rfl | hfrac
      · decide
      · exact hdigit (l.frac_digits ch hfrac)

/-- The bytes of a literal are its characters. -/
lemma asBytes_text (l : Literal) : asBytes l.text = l.chars.map ascii := asBytes_ofList l.toNat_lt

/-- A text of digits, as bytes. -/
lemma isAsciiDigit_of_mem {digits : List Char} (h : ∀ ch ∈ digits, ch.isDigit = true) :
    ∀ b ∈ digits.map ascii, isAsciiDigit b = true := by
  intro b hb
  obtain ⟨ch, hch, rfl⟩ := List.mem_map.mp hb
  exact isAsciiDigit_ascii (h ch hch)

end Literal

/-- The magnitude of digits that are characters. -/
lemma digitsToNat_map_ascii {digits : List Char} (h : ∀ ch ∈ digits, ch.isDigit = true) :
    digitsToNat (digits.map ascii) = Nat.ofDigitChars 10 digits 0 := by
  rw [digitsToNat, Nat.ofDigitChars_eq_foldl, List.foldl_map]
  refine List.foldl_ext _ _ 0 fun n ch hch => ?_
  rw [digitValue_ascii (h ch hch)]
  show _ = 10 * n + (ch.toNat - 48)
  omega

/-- A byte of a digit text is the digit zero only where the text has it. -/
lemma ascii_eq_zero_iff {ch : Char} (h : ch.isDigit = true) : ascii ch = ascii '0' ↔ ch = '0' := by
  have := Digits.isDigit_iff.mp h
  exact ⟨fun heq => ascii_inj (by omega) (by decide) heq, fun heq => heq ▸ rfl⟩

/-- A digit is no sign and no point. -/
lemma ascii_ne_of_isDigit {ch ch' : Char} (h : ch.isDigit = true) (h' : ch'.toNat < 48) :
    ascii ch ≠ ascii ch' := by
  intro heq
  have := Digits.isDigit_iff.mp h
  obtain rfl := ascii_inj (by omega) (by omega) heq
  omega

/-! ### The phases of the parser -/

/-- The integer part of a literal is read, up to what does not start with a digit.

**Proof sketch.** A literal that begins with a zero has nothing else before the point, and a digit
after it is excluded. One that begins with another digit is read as long as there are digits, which
is up to what follows the literal. -/
lemma parseInteger_literal (start : ℕ) (l : Literal) {after : List UInt8}
    (hafter : after.head?.any isAsciiDigit = false) :
    parseInteger start (l.int.map ascii ++ after) = .ok (l.int.map ascii, after) := by
  obtain ⟨ch, rest, hint⟩ := List.exists_cons_of_ne_nil l.int_ne
  have hch : ch.isDigit = true := l.int_digits ch (hint ▸ List.mem_cons_self)
  rw [hint, List.map_cons, List.cons_append, parseInteger,
    if_neg (ascii_ne_of_isDigit hch (by decide))]
  by_cases hzero : ch = '0'
  · have hrest : rest = [] := by
      have := l.int_lead (by rw [hint, hzero]; rfl)
      rw [hint, hzero] at this
      exact (List.cons.inj this).2
    rw [if_pos (by rw [hzero]), hrest, List.map_nil, List.nil_append, hafter]
    rfl
  · have hall : ∀ b ∈ (ch :: rest).map ascii, isAsciiDigit b = true :=
      Literal.isAsciiDigit_of_mem (hint ▸ l.int_digits)
    have htake : after.takeWhile isAsciiDigit = [] := by
      cases after with
      | nil => rfl
      | cons b after => simpa using hafter
    have hdrop : after.dropWhile isAsciiDigit = after := by
      cases after with
      | nil => rfl
      | cons b after => rw [List.dropWhile_cons_of_neg (by simpa using hafter)]
    rw [if_neg fun heq => hzero ((ascii_eq_zero_iff hch).mp heq), if_pos (isAsciiDigit_ascii hch),
      ← List.cons_append, ← List.map_cons, List.takeWhile_append_of_pos hall,
      List.dropWhile_append_of_pos hall, htake, hdrop, List.append_nil]

/-- The fraction of a literal is read to its end. -/
lemma parseFraction_literal (total : ℕ) (l : Literal) :
    parseFraction total (l.fraction.map ascii) = .ok (l.frac.map ascii, []) := by
  rw [Literal.fraction]
  split_ifs with hnil
  · rw [hnil]
    rfl
  · have hall := Literal.isAsciiDigit_of_mem l.frac_digits
    have htake : (l.frac.map ascii).takeWhile isAsciiDigit = l.frac.map ascii :=
      List.takeWhile_eq_self_iff.mpr hall
    have hdrop : (l.frac.map ascii).dropWhile isAsciiDigit = [] :=
      List.dropWhile_eq_nil_iff.mpr hall
    obtain ⟨ch, rest, hfrac⟩ := List.exists_cons_of_ne_nil hnil
    unfold parseFraction
    simp only [List.map_cons, if_true, htake, hdrop]
    rw [hfrac, List.map_cons]

/-- **What the parser makes of a literal**: the length is checked first, then the sign of a zero,
then the digits and the scale of what it denotes.

**Proof sketch.** The parser is run on the bytes of the literal: the sign is the first byte
exactly when there is one, the integer ends where the point stands, the fraction at the end of
the text. The digits are read as the magnitude, and the test for a signed zero is whether all of
them are zeros. -/
lemma parse_text (asset : AssetId) (l : Literal) :
    Amount.parse asset l.text =
      if MAX_INPUT_LEN < l.chars.length then .error (.inputTooLong l.chars.length)
      else if l.neg = true ∧ l.magnitude = 0 then .error .signOnZero
      else if 255 < l.frac.length then .error (.scaleTooLarge l.frac.length)
      else Amount.checked asset l.units l.frac.length := by
  obtain ⟨ch, rest, hint⟩ := List.exists_cons_of_ne_nil l.int_ne
  have hch : ch.isDigit = true := l.int_digits ch (hint ▸ List.mem_cons_self)
  have hempty : (l.chars.map ascii).isEmpty = false := by
    simp [Literal.chars, l.int_ne]
  have hneg : ((l.chars.map ascii).head? == some (ascii '-')) = l.neg := by
    rw [Literal.chars, Literal.sign, hint]
    cases l.neg
    · simpa using ascii_ne_of_isDigit hch (by decide)
    · rfl
  have hrest : (if l.neg then (l.chars.map ascii).tail else l.chars.map ascii) =
      l.int.map ascii ++ l.fraction.map ascii := by
    rw [Literal.chars, Literal.sign]
    cases l.neg <;> simp
  have hafter : (l.fraction.map ascii).head?.any isAsciiDigit = false := by
    rw [Literal.fraction]
    split_ifs
    · rfl
    · rfl
  have hzero : (l.neg && l.int.map ascii == [ascii '0'] &&
      (l.frac.map ascii).all (· == ascii '0')) = decide (l.neg = true ∧ l.magnitude = 0) := by
    rw [Bool.eq_iff_iff, decide_eq_true_eq, Literal.magnitude,
      Digits.ofDigitChars_eq_zero_iff l.digits, Bool.and_eq_true,
      Bool.and_eq_true, and_assoc]
    refine and_congr_right fun _ => ?_
    rw [List.forall_mem_append, beq_iff_eq, List.all_eq_true, List.forall_mem_map]
    refine and_congr ⟨fun heq => ?_, fun hall => ?_⟩ (forall₂_congr fun c hc => ?_)
    · rw [hint, List.map_cons, List.cons.injEq, List.map_eq_nil_iff, ascii_eq_zero_iff hch] at heq
      rw [hint, heq.1, heq.2]
      simp
    · have hhead := l.int_lead (by rw [hint, hall ch (hint ▸ List.mem_cons_self)]; rfl)
      rw [hhead]
      rfl
    · rw [beq_iff_eq, ascii_eq_zero_iff (l.frac_digits c hc)]
  have hvalue : digitsToNat (l.int.map ascii ++ l.frac.map ascii) = l.magnitude := by
    rw [← List.map_append, digitsToNat_map_ascii l.digits, Literal.magnitude]
  unfold Amount.parse
  simp only [l.asBytes_text, List.length_map, hempty, hneg, hrest,
    parseInteger_literal _ l hafter, parseFraction_literal, hvalue, Literal.units, hzero,
    decide_eq_true_eq, Bool.false_eq_true, if_false]

/-! ### What the parser accepts -/

/-- The bytes of a text, when an integer part was read of it.

**Proof sketch.** By the first byte: a zero, behind which no digit may follow, or another digit,
with all the digits behind it. What is read is a text of digits either way. -/
lemma parseInteger_eq_ok {start : ℕ} {bytes read after : List UInt8}
    (h : parseInteger start bytes = .ok (read, after)) :
    bytes = read ++ after ∧ ∃ int : List Char, int.map ascii = read ∧
      (∀ ch ∈ int, ch.isDigit = true) ∧ int ≠ [] ∧ (int.head? = some '0' → int = ['0']) := by
  cases bytes with
  | nil => simp [parseInteger] at h
  | cons b tail =>
    rw [parseInteger] at h
    split_ifs at h with hpoint hzero hlead hdigit
    · obtain ⟨rfl, rfl⟩ := Prod.mk.inj (Except.ok.inj h)
      exact ⟨rfl, ['0'], by rw [hzero]; rfl, by simp, by simp, fun _ => rfl⟩
    · obtain ⟨rfl, rfl⟩ := Prod.mk.inj (Except.ok.inj h)
      obtain ⟨int, hint, hread⟩ := exists_digits_of_isAsciiDigit
        fun c (hc : c ∈ (b :: tail).takeWhile isAsciiDigit) => List.mem_takeWhile_imp hc
      rw [List.takeWhile_cons_of_pos hdigit] at hread ⊢
      rw [List.dropWhile_cons_of_pos hdigit]
      obtain ⟨ch, rest, rfl, hch, -⟩ := List.map_eq_cons_iff.mp hread
      refine ⟨by rw [List.cons_append, List.takeWhile_append_dropWhile], ch :: rest, hread, hint,
        List.cons_ne_nil _ _, fun hhead => ?_⟩
      rw [List.head?_cons, Option.some.injEq] at hhead
      exact absurd (by rw [← hch, hhead]) hzero

/-- The bytes after the integer part, when a fraction was read of them.

**Proof sketch.** Nothing is left, or what is left begins with a point and at least one digit
follows; the digits up to the first byte that is none are read, and what follows is the tail. -/
lemma parseFraction_eq_ok {total : ℕ} {bytes read tail : List UInt8}
    (h : parseFraction total bytes = .ok (read, tail)) :
    bytes = [] ∧ read = [] ∧ tail = [] ∨
      bytes = ascii '.' :: (read ++ tail) ∧ read ≠ [] ∧ ∀ b ∈ read, isAsciiDigit b = true := by
  cases bytes with
  | nil =>
    obtain ⟨rfl, rfl⟩ := Prod.mk.inj (Except.ok.inj h)
    exact Or.inl ⟨rfl, rfl, rfl⟩
  | cons b rest =>
    unfold parseFraction at h
    dsimp only at h
    split_ifs at h with hpoint hexp
    cases hdigits : rest.takeWhile isAsciiDigit with
    | nil =>
      rw [hdigits] at h
      cases rest with
      | nil => simp at h
      | cons next rest =>
        dsimp only at h
        split_ifs at h
    | cons d ds =>
      rw [hdigits] at h
      obtain ⟨rfl, rfl⟩ := Prod.mk.inj (Except.ok.inj h)
      refine Or.inr ⟨?_, List.cons_ne_nil _ _, fun c hc => ?_⟩
      · rw [hpoint, ← hdigits, List.takeWhile_append_dropWhile]
      · exact List.mem_takeWhile_imp (hdigits ▸ hc)

/-- **The parser accepts literals only.**

**Proof sketch.** The checks are followed in the order of the parser. The text is a minus sign or
none, digits without a superfluous zero (`parseInteger_eq_ok`), and either nothing or a point with
digits (`parseFraction_eq_ok`), with nothing left over. These are the parts of a literal, and bytes
below 128 determine the text. -/
lemma exists_literal_of_parse {asset : AssetId} {s : String} {a : Amount}
    (h : Amount.parse asset s = .ok a) : ∃ l : Literal, s = l.text := by
  unfold Amount.parse at h
  dsimp only at h
  by_cases hlong : MAX_INPUT_LEN < (asBytes s).length
  · rw [if_pos hlong] at h
    exact absurd h (by simp)
  by_cases hempty : (asBytes s).isEmpty = true
  · rw [if_neg hlong, if_pos hempty] at h
    exact absurd h (by simp)
  rw [if_neg hlong, if_neg hempty] at h
  set neg := (asBytes s).head? == some (ascii '-') with hneg
  cases hint : parseInteger ((asBytes s).length - (if neg = true then (asBytes s).tail
      else asBytes s).length) (if neg = true then (asBytes s).tail else asBytes s) with
  | error e => simp [hint] at h
  | ok parts =>
    obtain ⟨read, after⟩ := parts
    simp only [hint] at h
    cases hfrac : parseFraction (asBytes s).length after with
    | error e => simp [hfrac] at h
    | ok parts =>
      obtain ⟨read', tail⟩ := parts
      simp only [hfrac] at h
      cases tail with
      | cons b tail =>
        dsimp only at h
        split_ifs at h
      | nil =>
        obtain ⟨hbytes, int, rfl, hdigits, hne, hlead⟩ := parseInteger_eq_ok hint
        have hsigned : asBytes s = (if neg = true then [ascii '-'] else []) ++
            (int.map ascii ++ after) := by
          rw [← hbytes]
          split_ifs with hminus
          · rw [hneg, beq_iff_eq] at hminus
            rw [List.singleton_append, List.cons_head?_tail hminus]
          · rfl
        obtain ⟨frac, hfrac', hafter⟩ : ∃ frac : List Char, (∀ ch ∈ frac, ch.isDigit = true) ∧
            after = (if frac = [] then [] else '.' :: frac).map ascii := by
          rcases parseFraction_eq_ok hfrac with ⟨rfl, -, -⟩ | ⟨rfl, hread, hall⟩
          · exact ⟨[], by simp, rfl⟩
          · obtain ⟨frac, hall', rfl⟩ := exists_digits_of_isAsciiDigit hall
            refine ⟨frac, hall', ?_⟩
            rw [if_neg (by rintro rfl; exact hread rfl), List.append_nil, List.map_cons]
        let l : Literal := ⟨neg, int, frac, hdigits, hfrac', hne, hlead⟩
        refine ⟨l, eq_ofList_of_asBytes l.toNat_lt ?_⟩
        have hchars : l.chars.map ascii =
            (if neg = true then [ascii '-'] else []) ++ (int.map ascii ++ after) := by
          rw [hafter, Literal.chars, List.map_append, List.map_append, List.append_assoc]
          congr 1
          show (if neg = true then ['-'] else []).map ascii = _
          split_ifs <;> rfl
        rw [hsigned, hchars]

/-- The amount that is read of a literal. -/
lemma parse_text_eq_ok {asset : AssetId} {l : Literal} {a : Amount}
    (h : Amount.parse asset l.text = .ok a) :
    l.chars.length ≤ MAX_INPUT_LEN ∧ ¬ (l.neg = true ∧ l.magnitude = 0) ∧
      ∃ (hdigits : digitCount l.units ≤ MAX_DIGITS) (hscale : l.frac.length ≤ MAX_SCALE),
        a = ⟨asset, l.units, l.frac.length, hdigits, hscale⟩ := by
  rw [parse_text, Amount.checked] at h
  split_ifs at h with hlong hzero hwide hdigits hscale
  exact ⟨not_lt.mp hlong, hzero, not_lt.mp hdigits, not_lt.mp hscale, (Except.ok.inj h).symm⟩

/-! ### Printing -/

/-- **Printing what a literal denotes gives it back**, unless it is a signed zero.

**Proof sketch.** The sign and the digits of the units are those of the literal. Without a fraction
the digits are the integer itself, which has no superfluous zero. With one they are cut where the
point stands; if the integer is a zero, they are too few, and the padding with zeros supplies it. -/
lemma formatDecimal_literal (l : Literal) (h : ¬ (l.neg = true ∧ l.magnitude = 0)) :
    formatDecimal l.units l.frac.length = l.text := by
  have hsign : (if l.units < 0 then ['-'] else []) = l.sign := by
    rw [Literal.sign, Literal.units]
    cases hneg : l.neg with
    | false => simp
    | true =>
      have : l.magnitude ≠ 0 := fun hzero => h ⟨hneg, hzero⟩
      rw [if_pos rfl, if_pos rfl, if_pos (by omega)]
  have hmagnitude : magnitudeDigits l.units = Nat.toDigits 10 l.magnitude := by
    rw [magnitudeDigits, Literal.units]
    congr 1
    split_ifs <;> omega
  rw [formatDecimal, Literal.text, Literal.chars, hsign, hmagnitude, List.append_assoc]
  dsimp only
  congr 2
  rw [Literal.fraction, Literal.magnitude]
  by_cases hnil : l.frac = []
  · rw [hnil, List.length_nil, if_pos rfl, if_pos rfl, List.append_nil,
      Digits.toDigits_ofDigitChars l.int_digits l.int_ne l.int_lead]
  have hpos := List.length_pos_iff.mpr hnil
  rw [if_neg hnil, if_neg hpos.ne']
  by_cases hzero : l.int.head? = some '0'
  · -- the digits are those of the fraction, behind a zero
    have hvalue : Nat.ofDigitChars 10 (l.int ++ l.frac) 0 = Nat.ofDigitChars 10 l.frac 0 := by
      rw [l.int_lead hzero, List.singleton_append, Digits.ofDigitChars_cons_zero, Nat.sub_self,
        Nat.mul_zero, Nat.zero_add]
    have hshort := Digits.length_toDigits_ofDigitChars l.frac_digits
    have hdrop := (List.dropWhile_sublist (· == '0') (l := l.frac)).length_le
    rw [hvalue, if_neg (by omega), Digits.replicate_append_toDigits l.frac_digits hnil,
      l.int_lead hzero, List.singleton_append]
  · have hhead : (l.int ++ l.frac).head? ≠ some '0' := by
      rw [List.head?_append_of_ne_nil _ l.int_ne]
      exact hzero
    have hint := List.length_pos_iff.mpr l.int_ne
    rw [Digits.toDigits_ofDigitChars l.digits (by simp [l.int_ne]) fun hlead => absurd hlead hhead,
      if_pos (by rw [List.length_append]; omega), List.length_append, Nat.add_sub_cancel,
      List.take_left, List.drop_left]

/-- The digits of an amount, with zeros in front where there are too few for its scale. -/
def Amount.padded (a : Amount) : List Char :=
  List.replicate (a.scale + 1 - (magnitudeDigits a.units).length) '0' ++ magnitudeDigits a.units

section Literal

variable (a : Amount)

/-- There is a digit before the point. -/
lemma Amount.length_padded :
    a.padded.length = max (a.scale + 1) (magnitudeDigits a.units).length := by
  rw [padded, List.length_append, List.length_replicate]
  omega

/-- The digits of an amount, padded with zeros in front, are digits. -/
lemma Amount.isDigit_padded : ∀ ch ∈ a.padded, ch.isDigit = true := by
  intro ch hch
  rcases List.mem_append.mp hch with hch | hch
  · rw [List.eq_of_mem_replicate hch]
    decide
  · exact Nat.isDigit_of_mem_toDigits (by decide) (by decide) hch

/-- The digits before the point have no superfluous zero.

**Proof sketch.** If the digits were padded, exactly one digit is left before the point. If they
were not, a leading zero among the digits of a number means that the number is zero, whose digits
are a single zero, and then there is no fraction. -/
lemma Amount.lead_padded (h : (a.padded.take (a.padded.length - a.scale)).head? = some '0') :
    a.padded.take (a.padded.length - a.scale) = ['0'] := by
  have hlen := a.length_padded
  by_cases hshort : (magnitudeDigits a.units).length ≤ a.scale
  · have hone : (a.padded.take (a.padded.length - a.scale)).length = 1 := by
      rw [List.length_take]
      omega
    obtain ⟨ch, hch⟩ := List.length_eq_one_iff.mp hone
    rw [hch, List.head?_cons, Option.some.injEq] at h
    rw [hch, h]
  · -- no zero was put in front, so that the digits are those of zero
    have hnone : a.padded = magnitudeDigits a.units := by
      rw [padded, Nat.sub_eq_zero_of_le (by omega), List.replicate_zero, List.nil_append]
    have hhead : a.padded.head? = some '0' := by
      rw [List.head?_take, if_neg (by omega)] at h
      exact h
    have hzero : a.units.natAbs = 0 := by
      rw [hnone] at hhead
      exact Digits.eq_zero_of_head?_toDigits hhead
    have hdigits : magnitudeDigits a.units = ['0'] := by
      rw [magnitudeDigits, hzero]
      rfl
    rw [hdigits] at hnone hshort
    have hscale : a.scale = 0 := by simpa using hshort
    rw [hnone, hscale]
    rfl

/-- The literal that an amount is printed as. -/
def Amount.literal : Literal where
  neg := decide (a.units < 0)
  int := a.padded.take (a.padded.length - a.scale)
  frac := a.padded.drop (a.padded.length - a.scale)
  int_digits ch hch := a.isDigit_padded ch (List.mem_of_mem_take hch)
  frac_digits ch hch := a.isDigit_padded ch (List.mem_of_mem_drop hch)
  int_ne hnil := by
    have hlen := a.length_padded
    have := congrArg List.length hnil
    rw [List.length_take, List.length_nil] at this
    omega
  int_lead := a.lead_padded

/-- The literal of an amount has as many fraction digits as the amount's scale: none is dropped,
even where it is a zero. -/
lemma Amount.length_frac_literal : a.literal.frac.length = a.scale := by
  have hlen := a.length_padded
  show (a.padded.drop _).length = _
  rw [List.length_drop]
  omega

/-- The digits of the literal of an amount, read as one number, are the units of the amount without
their sign. -/
lemma Amount.magnitude_literal : a.literal.magnitude = a.units.natAbs := by
  show Nat.ofDigitChars 10 (a.padded.take _ ++ a.padded.drop _) 0 = _
  rw [List.take_append_drop, padded, Nat.ofDigitChars_append, Nat.ofDigitChars_replicate_zero,
    Nat.mul_zero]
  exact Nat.ofDigitChars_ten_toDigits

/-- The literal of an amount stands for its units, the sign included. -/
lemma Amount.units_literal : a.literal.units = a.units := by
  have hmagnitude := a.magnitude_literal
  rw [Literal.units, hmagnitude]
  show (if decide (a.units < 0) = true then _ else _) = _
  split_ifs with hneg
  · have := of_decide_eq_true hneg
    omega
  · have : ¬ a.units < 0 := fun hlt => hneg (decide_eq_true hlt)
    omega

/-- The literal of an amount is no signed zero. -/
lemma Amount.not_signedZero : ¬ (a.literal.neg = true ∧ a.literal.magnitude = 0) := by
  rintro ⟨hneg, hzero⟩
  have hlt : a.units < 0 := of_decide_eq_true hneg
  rw [magnitude_literal] at hzero
  omega

/-- An amount is printed as its literal. -/
lemma Amount.toText_eq : a.toText = a.literal.text := by
  rw [toText, ← formatDecimal_literal a.literal a.not_signedZero, a.units_literal,
    a.length_frac_literal]

/-- The text of an amount is short. -/
lemma Amount.length_literal : a.literal.chars.length ≤ MAX_INPUT_LEN := by
  have hlen := a.length_padded
  have hdigits : (magnitudeDigits a.units).length ≤ 128 := a.digits_le
  have hscale : a.scale ≤ 38 := a.scale_le
  have hint : a.literal.int.length = a.padded.length - a.scale := by
    show (a.padded.take _).length = _
    rw [List.length_take]
    omega
  have hfrac := a.length_frac_literal
  have hsign : a.literal.sign.length ≤ 1 := by
    rw [Literal.sign]
    split_ifs <;> simp
  have hpoint : a.literal.fraction.length ≤ a.literal.frac.length + 1 := by
    rw [Literal.fraction]
    split_ifs <;> simp
  rw [Literal.chars, List.length_append, List.length_append, MAX_INPUT_LEN]
  omega

/-- **What was printed is read back**, whatever the asset. -/
lemma Amount.parse_toText (asset : AssetId) :
    Amount.parse asset a.toText =
      .ok ⟨asset, a.units, a.scale, a.digits_le, a.scale_le⟩ := by
  have hdigits := a.digits_le
  have hscale : a.scale ≤ 38 := a.scale_le
  rw [toText_eq, parse_text, if_neg (not_lt.mpr a.length_literal), if_neg a.not_signedZero,
    a.length_frac_literal, if_neg (by omega), a.units_literal, checked,
    dif_neg (not_lt.mpr hdigits),
    dif_neg (not_lt.mpr a.scale_le)]

end Literal

/-- **Parsing accepts exactly the canonical grammar, and printing inverts it.** A text is an amount
exactly when it is a literal within the length limit, no signed zero, and within the limits on
significant digits and on the scale; the amount has the value that the literal denotes and its
number of fraction digits as scale, and is printed as that text. An amount, wherever it comes from,
is printed as a text that gives it back.

**Proof sketch.** An accepted text is that of a literal (`exists_literal_of_parse`), and what the
parser checks of the text of a literal is what the conditions say of the literal
(`parse_text_eq_ok`). The amount is built from the units and the digits of the literal, so its value
and its scale are read off, and printing writes the digits again. An amount of any origin is printed
as the text of a literal within the limits. -/
theorem parse_iff_literal (asset : AssetId) (s : String) :
    ((∃ a, Amount.parse asset s = .ok a) ↔ ∃ l : Literal, s = l.text ∧
        (asBytes s).length ≤ MAX_INPUT_LEN ∧ ¬ (l.neg = true ∧ l.denote = 0) ∧
        l.significant ≤ MAX_DIGITS ∧ l.frac.length ≤ MAX_SCALE) ∧
      (∀ a, Amount.parse asset s = .ok a → ∀ l : Literal, s = l.text →
        a.asset = asset ∧ a.value = l.denote ∧ a.scale = l.frac.length ∧ a.toText = s) ∧
      ∀ a : Amount, Amount.parse a.asset a.toText = .ok a := by
  refine ⟨⟨fun ⟨a, ha⟩ => ?_, ?_⟩, fun a ha l hl => ?_, fun a => a.parse_toText a.asset⟩
  · obtain ⟨l, rfl⟩ := exists_literal_of_parse ha
    obtain ⟨hlong, hzero, hdigits, hscale, -⟩ := parse_text_eq_ok ha
    refine ⟨l, rfl, ?_, ?_, ?_, hscale⟩
    · rw [l.asBytes_text, List.length_map]
      exact hlong
    · rw [Literal.denote_eq_zero_iff]
      exact hzero
    · rw [← l.digitCount_units]
      exact hdigits
  · rintro ⟨l, rfl, hlong, hzero, hdigits, hscale⟩
    rw [l.asBytes_text, List.length_map] at hlong
    rw [Literal.denote_eq_zero_iff] at hzero
    rw [← l.digitCount_units] at hdigits
    have hscale' : l.frac.length ≤ 38 := hscale
    refine ⟨⟨asset, l.units, l.frac.length, hdigits, hscale⟩, ?_⟩
    rw [parse_text, if_neg (not_lt.mpr hlong), if_neg hzero, if_neg (by omega), Amount.checked,
      dif_neg (not_lt.mpr hdigits), dif_neg (not_lt.mpr hscale)]
  · subst hl
    obtain ⟨-, hzero, -, -, rfl⟩ := parse_text_eq_ok ha
    refine ⟨rfl, l.denote_eq.symm, rfl, formatDecimal_literal l hzero⟩

end Sumer.Money
