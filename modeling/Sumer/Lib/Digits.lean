import Mathlib.Data.List.TakeWhile
import Mathlib.Tactic

set_option relaxedAutoImplicit false
set_option autoImplicit false

/-!
# Decimal digit texts

A text of decimal digits without a superfluous leading zero is the text of the number that it
denotes; leading zeros change neither the number nor the count of its significant digits.

## Main definitions

* `Digits.zeroPadded`: the text of an integer with zeros up to a width.

## Main results

* `Digits.toDigits_ofDigitChars`: a text of digits without a leading zero is that of its value.
* `Digits.ofDigitChars_eq_zero_iff`: the texts of zero.
* `Digits.length_toDigits_ofDigitChars`: the significant digits of a text.
-/

namespace Digits

variable {digits : List Char} {ch : Char}

/-- The digits are the characters from 48 to 57. -/
lemma isDigit_iff : ch.isDigit = true ↔ 48 ≤ ch.toNat ∧ ch.toNat ≤ 57 := by
  rw [Char.isDigit, Bool.and_eq_true, decide_eq_true_eq, decide_eq_true_eq,
    ge_iff_le, UInt32.le_iff_toNat_le, UInt32.le_iff_toNat_le]
  exact Iff.rfl

/-- A digit that is not zero has a positive value. -/
lemma value_pos (h : ch.isDigit = true) (hne : ch ≠ '0') : 0 < ch.toNat - '0'.toNat := by
  have hcode : ch.toNat ≠ '0'.toNat := fun heq => hne (Char.toNat_inj.mp heq)
  have := isDigit_iff.mp h
  simp only [Char.reduceToNat] at hcode ⊢
  omega

/-- A digit is the text of its value. -/
lemma toDigits_value (h : ch.isDigit = true) :
    Nat.toDigits 10 (ch.toNat - '0'.toNat) = [ch] ∧ ch.toNat - '0'.toNat < 10 := by
  obtain ⟨hlow, hhigh⟩ := isDigit_iff.mp h
  have hlt : ch.toNat - '0'.toNat < 10 := by
    simp only [Char.reduceToNat]
    omega
  refine ⟨?_, hlt⟩
  rw [Nat.toDigits_of_lt_base hlt]
  have hcode : (ch.toNat - '0'.toNat).digitChar.toNat = ch.toNat := by
    have hdigit := Nat.toNat_digitChar_sub_48_of_lt_ten hlt
    have := isDigit_iff.mp (Nat.isDigit_digitChar (n := ch.toNat - '0'.toNat) ▸ decide_eq_true hlt)
    simp only [Char.reduceToNat] at *
    omega
  rw [Char.toNat_inj.mp hcode]

/-- The value of a text with one more digit at the end. -/
lemma ofDigitChars_concat (digits : List Char) (ch : Char) :
    Nat.ofDigitChars 10 (digits ++ [ch]) 0 =
      10 * Nat.ofDigitChars 10 digits 0 + (ch.toNat - '0'.toNat) := by
  rw [Nat.ofDigitChars_append, Nat.ofDigitChars_cons, Nat.ofDigitChars_nil]

/-- The value of a text with one more digit in front. -/
lemma ofDigitChars_cons_zero (ch : Char) (digits : List Char) :
    Nat.ofDigitChars 10 (ch :: digits) 0 =
      10 ^ digits.length * (ch.toNat - '0'.toNat) + Nat.ofDigitChars 10 digits 0 := by
  rw [Nat.ofDigitChars_cons, Nat.ofDigitChars_eq_ofDigitChars_zero, Nat.mul_zero, Nat.zero_add]

/-- The value of a text is bounded by its length. -/
lemma ofDigitChars_lt (hdigits : ∀ ch ∈ digits, ch.isDigit = true) :
    Nat.ofDigitChars 10 digits 0 < 10 ^ digits.length := by
  induction digits with
  | nil => simp
  | cons ch digits ih =>
    have hrest := ih fun c hc => hdigits c (List.mem_cons_of_mem _ hc)
    have hdigit : ch.toNat - '0'.toNat ≤ 9 := by
      have := isDigit_iff.mp (hdigits ch List.mem_cons_self)
      simp only [Char.reduceToNat]
      omega
    have hfirst := Nat.mul_le_mul_left (10 ^ digits.length) hdigit
    rw [ofDigitChars_cons_zero, List.length_cons, pow_succ]
    omega

/-- **The texts of zero** are the texts of digits that have only zeros in them, the empty one among
them. -/
lemma ofDigitChars_eq_zero_iff (hdigits : ∀ ch ∈ digits, ch.isDigit = true) :
    Nat.ofDigitChars 10 digits 0 = 0 ↔ ∀ ch ∈ digits, ch = '0' := by
  induction digits with
  | nil => simp
  | cons ch digits ih =>
    have ih := ih fun c hc => hdigits c (List.mem_cons_of_mem _ hc)
    rw [ofDigitChars_cons_zero, Nat.add_eq_zero_iff, ih, List.forall_mem_cons]
    refine and_congr_left fun _ => ⟨fun h => ?_, fun h => by simp [h]⟩
    by_contra hne
    have hpos := value_pos (hdigits ch List.mem_cons_self) hne
    rw [Nat.mul_eq_zero] at h
    rcases h with h | h
    · exact absurd h (by positivity)
    · omega

/-- **A text of digits without a leading zero is that of its value.**

**Proof sketch.** Induction on the digits from the last one. The value of the digits before it is
the quotient by ten, and they have no leading zero either; a single digit is written as itself. -/
lemma toDigits_ofDigitChars (hdigits : ∀ ch ∈ digits, ch.isDigit = true) (hne : digits ≠ [])
    (hlead : digits.head? = some '0' → digits = ['0']) :
    Nat.toDigits 10 (Nat.ofDigitChars 10 digits 0) = digits := by
  induction digits using List.reverseRecOn with
  | nil => exact absurd rfl hne
  | append_singleton digits ch ih =>
    obtain ⟨hchar, hlt⟩ := toDigits_value (hdigits ch (by simp))
    rw [ofDigitChars_concat]
    rcases List.eq_nil_or_concat digits with rfl | hlong
    · simpa using hchar
    · -- more digits: what stands before the last one has no leading zero and is not zero
      have hnil : digits ≠ [] := by
        rintro rfl
        simp at hlong
      have hhead : digits.head? ≠ some '0' := by
        intro hzero
        have hwhole := hlead (by rw [List.head?_append_of_ne_nil _ hnil, hzero])
        have := congrArg List.length hwhole
        simp [hnil] at this
      have hrest : ∀ c ∈ digits, c.isDigit = true := fun c hc =>
        hdigits c (List.mem_append_left _ hc)
      have hpos : 0 < Nat.ofDigitChars 10 digits 0 := by
        refine Nat.pos_of_ne_zero fun hzero => ?_
        obtain ⟨first, hfirst⟩ : ∃ first, digits.head? = some first :=
          Option.isSome_iff_exists.mp (by simpa using hnil)
        have := (ofDigitChars_eq_zero_iff hrest).mp hzero first (List.mem_of_mem_head? hfirst)
        exact hhead (this ▸ hfirst)
      rw [← Nat.toDigits_append_toDigits (by decide) hpos hlt, hchar,
        ih hrest hnil fun hzero => absurd hzero hhead]

/-- Leading zeros do not change a value. -/
lemma ofDigitChars_dropWhile (digits : List Char) :
    Nat.ofDigitChars 10 (digits.dropWhile (· == '0')) 0 = Nat.ofDigitChars 10 digits 0 := by
  induction digits with
  | nil => rfl
  | cons ch digits ih =>
    rw [List.dropWhile_cons]
    split_ifs with hzero
    · rw [ih, ofDigitChars_cons_zero, beq_iff_eq.mp hzero, Nat.sub_self, Nat.mul_zero, Nat.zero_add]
    · rfl

/-- **The significant digits of a text**: those after its leading zeros, and one for zero. -/
lemma length_toDigits_ofDigitChars (hdigits : ∀ ch ∈ digits, ch.isDigit = true) :
    (Nat.toDigits 10 (Nat.ofDigitChars 10 digits 0)).length =
      max 1 (digits.dropWhile (· == '0')).length := by
  rw [← ofDigitChars_dropWhile]
  have hrest : ∀ ch ∈ digits.dropWhile (· == '0'), ch.isDigit = true := fun ch hch =>
    hdigits ch ((List.dropWhile_sublist _).mem hch)
  have hhead : (digits.dropWhile (· == '0')).head? ≠ some '0' := by
    intro hzero
    have hnot := List.head?_dropWhile_not (· == '0') digits
    rw [hzero] at hnot
    simp at hnot
  cases hdrop : digits.dropWhile (· == '0') with
  | nil => rfl
  | cons ch rest =>
    rw [hdrop] at hrest hhead
    rw [toDigits_ofDigitChars hrest (List.cons_ne_nil _ _) fun hzero => absurd hzero hhead]
    simp

/-- Only zero has a text that starts with the digit zero. -/
lemma eq_zero_of_head?_toDigits {n : ℕ} (h : (Nat.toDigits 10 n).head? = some '0') : n = 0 := by
  induction n using Nat.strong_induction_on with
  | _ n ih =>
    rw [Nat.toDigits_eq_if (by decide)] at h
    split_ifs at h with hlt
    · interval_cases n <;> simp_all [Nat.digitChar]
    · rw [List.head?_append, Option.or_of_isSome (by simp)] at h
      have := ih (n / 10) (by omega) h
      omega

/-- **A text of digits is that of its value, padded with zeros.**

**Proof sketch.** Induction on the digits. A leading zero adds nothing to the value and one
character to the padding; without one the text is that of its value. -/
lemma replicate_append_toDigits (hdigits : ∀ ch ∈ digits, ch.isDigit = true) (hne : digits ≠ []) :
    List.replicate (digits.length - (Nat.toDigits 10 (Nat.ofDigitChars 10 digits 0)).length) '0' ++
      Nat.toDigits 10 (Nat.ofDigitChars 10 digits 0) = digits := by
  induction digits with
  | nil => exact absurd rfl hne
  | cons ch digits ih =>
    have hrest : ∀ c ∈ digits, c.isDigit = true := fun c hc =>
      hdigits c (List.mem_cons_of_mem _ hc)
    by_cases hzero : ch = '0'
    · rcases eq_or_ne digits [] with rfl | hnil
      · rw [hzero]
        rfl
      · have hlen := length_toDigits_ofDigitChars hrest
        have hdrop := (List.dropWhile_sublist (· == '0') (l := digits)).length_le
        have hpos := List.length_pos_iff.mpr hnil
        have hvalue : Nat.ofDigitChars 10 (ch :: digits) 0 = Nat.ofDigitChars 10 digits 0 := by
          rw [ofDigitChars_cons_zero, hzero, Nat.sub_self, Nat.mul_zero, Nat.zero_add]
        rw [hvalue, List.length_cons, Nat.succ_sub (by omega), List.replicate_succ,
          List.cons_append, ih hrest hnil, hzero]
    · rw [toDigits_ofDigitChars hdigits hne fun hhead => absurd (Option.some.inj hhead) hzero]
      simp

/-- The text of an integer with at least `width` characters: zeros stand between its sign and its
digits as far as these are too few. -/
def zeroPadded (width : ℕ) (n : ℤ) : List Char :=
  let sign := if n < 0 then ['-'] else []
  let digits := Nat.toDigits 10 n.natAbs
  sign ++ List.replicate (width - sign.length - digits.length) '0' ++ digits

/-- Digits are the padded text of their value. -/
lemma zeroPadded_eq {digits : List Char} (hdigits : ∀ ch ∈ digits, ch.isDigit = true)
    (hne : digits ≠ []) {n : ℕ} (hvalue : Nat.ofDigitChars 10 digits 0 = n) :
    zeroPadded digits.length n = digits := by
  have hpad := Digits.replicate_append_toDigits hdigits hne
  have hpos : ¬ ((n : ℤ) < 0) := by omega
  rw [hvalue] at hpad
  simpa [zeroPadded, hpos] using hpad

/-- The padded text of a number that is not negative consists of digits. -/
lemma isDigit_of_mem_zeroPadded {w : ℕ} {n : ℤ} (hn : 0 ≤ n) :
    ∀ ch ∈ zeroPadded w n, ch.isDigit = true := by
  intro ch h
  rw [zeroPadded, if_neg (by omega), List.nil_append, List.mem_append] at h
  rcases h with hzero | hdigit
  · rw [List.eq_of_mem_replicate hzero]
    rfl
  · exact Nat.isDigit_of_mem_toDigits (by decide) le_rfl hdigit

end Digits
