import Mathlib.Data.Rat.Lemmas
import Mathlib.Tactic

set_option relaxedAutoImplicit false
set_option autoImplicit false

/-!
# Fixed-point numerals

A coefficient and a scale denote the rational `units / b ^ scale`. Rescaling keeps the value, equal
scales compare by coefficient, and stripping trailing zeros reaches the one reduced numeral of a
value.

## Main definitions

* `FixedPoint.value`: the rational that a numeral denotes.
* `FixedPoint.rescale`, `FixedPoint.strip`: to a larger scale, and to the smallest.
* `FixedPoint.Reduced`: no trailing zero is left.

## Main results

* `FixedPoint.value_rescale`, `FixedPoint.value_strip`: neither changes the value.
* `FixedPoint.compare_eq`: at one scale, values compare as coefficients.
* `FixedPoint.Reduced.eq_of_value_eq`: a value has one reduced numeral.
-/

namespace FixedPoint

/-- The rational `units / b ^ scale`. -/
def value (b : ℕ) (units : ℤ) (scale : ℕ) : ℚ := units / (b : ℚ) ^ scale

/-- The coefficient at another scale, which is not smaller. -/
def rescale (b : ℕ) (units : ℤ) (scale scale' : ℕ) : ℤ := units * (b : ℤ) ^ (scale' - scale)

/-- The numeral without trailing zeros, as far as the scale goes. -/
def strip (b : ℕ) (units : ℤ) : ℕ → ℤ × ℕ
  | 0 => (units, 0)
  | scale + 1 => if (b : ℤ) ∣ units then strip b (units / b) scale else (units, scale + 1)

/-- No trailing zero could be stripped. -/
def Reduced (b : ℕ) (numeral : ℤ × ℕ) : Prop := numeral.2 = 0 ∨ ¬ (b : ℤ) ∣ numeral.1

variable {b : ℕ} {units units' : ℤ} {scale scale' : ℕ}

/-- Rescaling to a larger scale keeps the value, since each step multiplies the units by the
base. -/
lemma value_rescale (hb : 0 < b) (hle : scale ≤ scale') :
    value b (rescale b units scale scale') scale' = value b units scale := by
  have hpos : (b : ℚ) ^ scale' ≠ 0 := by positivity
  have hpos' : (b : ℚ) ^ scale ≠ 0 := by positivity
  have hpow : (b : ℚ) ^ (scale' - scale) * (b : ℚ) ^ scale = (b : ℚ) ^ scale' := by
    rw [← pow_add, Nat.sub_add_cancel hle]
  rw [value, value, rescale, div_eq_div_iff hpos hpos', ← hpow]
  push_cast
  ring

/-- At one scale, the coefficient of a sum is the sum of the coefficients. -/
lemma value_add (units units' : ℤ) :
    value b (units + units') scale = value b units scale + value b units' scale := by
  rw [value, value, value, ← add_div, Int.cast_add]

/-- The numeral of the opposite value has the opposite units, at the same scale. -/
lemma value_neg (units : ℤ) : value b (-units) scale = -value b units scale := by
  rw [value, value, Int.cast_neg, neg_div]

/-- The coefficient is the value, scaled: the units are the value times the power of the base. -/
lemma value_mul_pow (hb : 0 < b) : value b units scale * (b : ℚ) ^ scale = units := by
  have hpos : (b : ℚ) ^ scale ≠ 0 := by positivity
  rw [value, div_mul_cancel₀ _ hpos]

/-- At one scale, the value grows with the coefficient. -/
lemma value_strictMono (hb : 0 < b) (scale : ℕ) : StrictMono fun units => value b units scale := by
  intro units units' hlt
  have hpos : (0 : ℚ) < (b : ℚ) ^ scale := by positivity
  exact (div_lt_div_iff_of_pos_right hpos).mpr (by exact_mod_cast hlt)

/-- **Numerals compare as their values** once they are at one scale. -/
lemma compare_eq (hb : 0 < b) {s : ℕ} (hle : scale ≤ s) (hle' : scale' ≤ s) :
    compare (rescale b units scale s) (rescale b units' scale' s) =
      compare (value b units scale) (value b units' scale') := by
  rw [← value_rescale hb hle, ← value_rescale hb hle', ← cmp_eq_compare, ← cmp_eq_compare]
  exact ((value_strictMono hb s).cmp_map_eq _ _).symm

/-- Stripping zeros keeps the value, since each step divides the units by the base without a
remainder. -/
lemma value_strip (hb : 0 < b) (units : ℤ) (scale : ℕ) :
    value b (strip b units scale).1 (strip b units scale).2 = value b units scale := by
  induction scale generalizing units with
  | zero => rfl
  | succ scale ih =>
    rw [strip]
    split_ifs with hdvd
    · have hne : (b : ℤ) ≠ 0 := by positivity
      have hunits : rescale b (units / b) scale (scale + 1) = units := by
        rw [rescale, Nat.add_sub_cancel_left, pow_one, Int.ediv_mul_cancel hdvd]
      rw [ih, ← value_rescale hb (Nat.le_succ scale), hunits]
    · rfl

/-- What is left by stripping is reduced. -/
lemma reduced_strip (b : ℕ) (units : ℤ) (scale : ℕ) : Reduced b (strip b units scale) := by
  induction scale generalizing units with
  | zero => exact Or.inl rfl
  | succ scale ih =>
    rw [strip]
    split_ifs with hdvd
    · exact ih _
    · exact Or.inr hdvd

/-- The reduced numeral at the smaller scale has the same scale as another of its value. -/
lemma Reduced.scale_le (hb : 0 < b) (h : Reduced b (units, scale))
    (heq : value b units scale = value b units' scale') : scale ≤ scale' := by
  by_contra hlt
  have hle : scale' ≤ scale := by omega
  have hsame : rescale b units' scale' scale = units := by
    refine (value_strictMono hb scale).injective ?_
    show value b _ scale = value b _ scale
    rw [value_rescale hb hle, heq]
  have hdvd : (b : ℤ) ∣ units := by
    rw [← hsame]
    exact Dvd.dvd.mul_left (dvd_pow_self _ (by omega)) _
  rcases h with hzero | hno
  · have : scale = 0 := hzero
    omega
  · exact hno hdvd

/-- **A value has one reduced numeral**: two reduced numerals of one value have the same units and
the same scale. -/
lemma Reduced.eq_of_value_eq (hb : 0 < b) (h : Reduced b (units, scale))
    (h' : Reduced b (units', scale')) (heq : value b units scale = value b units' scale') :
    (units, scale) = (units', scale') := by
  obtain rfl : scale = scale' := le_antisymm (h.scale_le hb heq) (h'.scale_le hb heq.symm)
  rw [(value_strictMono hb scale).injective heq]

/-- **Stripped numerals are equal exactly when their values are.** -/
lemma strip_eq_iff (hb : 0 < b) :
    strip b units scale = strip b units' scale' ↔
      value b units scale = value b units' scale' := by
  constructor
  · intro heq
    rw [← value_strip hb units, ← value_strip hb units', heq]
  · intro heq
    refine Reduced.eq_of_value_eq hb (reduced_strip b units scale)
      (reduced_strip b units' scale') ?_
    rw [value_strip hb, value_strip hb, heq]

end FixedPoint
