import Sumer.Lib.FixedPoint
import Sumer.Money.Parse

set_option relaxedAutoImplicit false
set_option autoImplicit false

/-!
# Arithmetic and comparison of amounts

`Amount::add`, `Amount::sub`, `Amount::neg`, `Amount::cmp_same_asset`, `Amount::normalized` and the
two notions of equality built on them (`core/money/src/amount.rs`), against the exact rational that
an amount denotes.

## Main definitions

* `Sumer.Money.Amount.value`: the rational an amount denotes.
* `Sumer.Money.Amount.add`, `Sumer.Money.Amount.sub`, `Sumer.Money.Amount.neg`.
* `Sumer.Money.Amount.cmpSameAsset`, `Sumer.Money.Amount.normalized`.

## Main results

* `Sumer.Money.Amount.add_spec`: when a sum exists, and what it is.
* `Sumer.Money.Amount.cmpSameAsset_eq`: comparison is the order of the values.
* `Sumer.Money.Amount.normalized_eq_iff`: the hashed form tells values apart.
* `Sumer.Money.arithmetic_exact`: arithmetic, comparison, equality and hashing are exact.
-/

namespace Sumer.Money

open FixedPoint

/-- The rational that an amount denotes. -/
def Amount.value (a : Amount) : ℚ := FixedPoint.value 10 a.units a.scale

/-- `rescale_units`. -/
def rescaleUnits (units : ℤ) (fromScale toScale : ℕ) : ℤ :=
  if fromScale = toScale then units else units * 10 ^ (toScale - fromScale)

/-- `Amount::add`. -/
def Amount.add (a b : Amount) : Except MoneyError Amount :=
  if a.asset ≠ b.asset then .error .assetMismatch
  else
    let scale := max a.scale b.scale
    let units := rescaleUnits a.units a.scale scale + rescaleUnits b.units b.scale scale
    match Amount.checked a.asset units scale with
    | .error (.tooManyDigits _) => .error .coefficientOverflow
    | .error e => .error e
    | .ok sum => .ok sum

/-- A coefficient and its opposite have the same digits. -/
@[simp]
lemma digitCount_neg (n : ℤ) : digitCount (-n) = digitCount n := by
  rw [digitCount, digitCount, magnitudeDigits, magnitudeDigits, Int.natAbs_neg]

/-- `Amount::neg`, which cannot fail. -/
def Amount.neg (a : Amount) : Amount :=
  { a with
    units := -a.units
    digits_le := (digitCount_neg a.units).symm ▸ a.digits_le }

/-- `Amount::sub`. -/
def Amount.sub (a b : Amount) : Except MoneyError Amount := a.add b.neg

/-- `Amount::cmp_same_asset`. -/
def Amount.cmpSameAsset (a b : Amount) : Except MoneyError Ordering :=
  if a.asset ≠ b.asset then .error .assetMismatch
  else
    let scale := max a.scale b.scale
    .ok (compare (rescaleUnits a.units a.scale scale) (rescaleUnits b.units b.scale scale))

/-- The loop of `Amount::normalized`. The remainder and the quotient truncate. -/
def normalizedLoop (units : ℤ) : ℕ → ℤ × ℕ
  | 0 => (units, 0)
  | scale + 1 =>
    if units.tmod 10 ≠ 0 then (units, scale + 1) else normalizedLoop (units.tdiv 10) scale

/-- `Amount::normalized`. -/
def Amount.normalized (a : Amount) : ℤ × ℕ := normalizedLoop a.units a.scale

/-- `==` of two amounts. -/
def Amount.eq (a b : Amount) : Bool :=
  match a.cmpSameAsset b with
  | .ok .eq => true
  | _ => false

/-- What an amount feeds to a hasher. -/
def Amount.hashed (a : Amount) : AssetId × ℤ × ℕ := (a.asset, a.normalized)

/-- `partial_cmp` of two amounts. -/
def Amount.partialCmp (a b : Amount) : Option Ordering := (a.cmpSameAsset b).toOption

/-! ### Exactness -/

section Exactness

variable {a b c : Amount}

/-- The rescaling of the source, which multiplies by a power of ten, is that of fixed-point numbers
at base ten. -/
lemma rescaleUnits_eq (units : ℤ) (fromScale toScale : ℕ) :
    rescaleUnits units fromScale toScale = rescale 10 units fromScale toScale := by
  rw [rescaleUnits, rescale]
  split_ifs with heq
  · rw [heq, Nat.sub_self, pow_zero, mul_one]
  · rfl

/-- The loop of the source that strips zeros is the one of fixed-point numbers at base ten. -/
lemma normalizedLoop_eq (units : ℤ) (scale : ℕ) :
    normalizedLoop units scale = strip 10 units scale := by
  induction scale generalizing units with
  | zero => rfl
  | succ scale ih =>
    rw [normalizedLoop, strip]
    by_cases hdvd : (10 : ℤ) ∣ units
    · have hquot : units.tdiv 10 = units / 10 := Int.tdiv_eq_ediv_of_dvd hdvd
      rw [if_neg (not_not_intro (Int.tmod_eq_zero_of_dvd hdvd)), if_pos (by exact_mod_cast hdvd),
        ih,
        hquot]
      rfl
    · rw [if_pos fun hzero => hdvd (Int.dvd_of_tmod_eq_zero hzero),
        if_neg (by exact_mod_cast hdvd)]

/-- The coefficient of the exact sum of two amounts at the larger of their scales. -/
def Amount.sumUnits (a b : Amount) : ℤ :=
  rescale 10 a.units a.scale (max a.scale b.scale) +
    rescale 10 b.units b.scale (max a.scale b.scale)

/-- At the larger scale, a sum is its exact value. -/
lemma Amount.value_sumUnits (a b : Amount) :
    FixedPoint.value 10 (a.sumUnits b) (max a.scale b.scale) = a.value + b.value := by
  rw [sumUnits, value_add, value_rescale (by decide) (le_max_left _ _),
    value_rescale (by decide) (le_max_right _ _)]
  rfl

/-- A sum has one coefficient at the larger scale. -/
lemma Amount.eq_sumUnits_iff {n : ℤ} :
    n = a.sumUnits b ↔ (n : ℚ) = (a.value + b.value) * 10 ^ max a.scale b.scale := by
  have hsum : ((a.sumUnits b : ℤ) : ℚ) = (a.value + b.value) * 10 ^ max a.scale b.scale := by
    rw [← value_sumUnits]
    exact (value_mul_pow (by decide)).symm
  rw [← hsum]
  exact Int.cast_inj.symm

/-- **A sum**: it exists exactly when the assets agree and the coefficient at the larger scale has
few enough digits, and then it is exact. -/
lemma Amount.add_spec (a b : Amount) :
    a.add b =
      if a.asset ≠ b.asset then .error .assetMismatch
      else if h : digitCount (a.sumUnits b) ≤ MAX_DIGITS then
        .ok ⟨a.asset, a.sumUnits b, max a.scale b.scale, h, max_le a.scale_le b.scale_le⟩
      else .error .coefficientOverflow := by
  have hscale : ¬ MAX_SCALE < max a.scale b.scale := not_lt.mpr (max_le a.scale_le b.scale_le)
  have hunits : rescaleUnits a.units a.scale (max a.scale b.scale) +
      rescaleUnits b.units b.scale (max a.scale b.scale) = a.sumUnits b := by
    rw [rescaleUnits_eq, rescaleUnits_eq, sumUnits]
  rw [add]
  split_ifs with hasset hdigits
  · rfl
  · simp only [hunits, checked, dif_neg (not_lt.mpr hdigits), dif_neg hscale]
  · simp only [hunits, checked, dif_pos (not_le.mp hdigits)]

/-- A sum has the asset of its parts, the sum of their values and the larger of their scales. -/
lemma Amount.add_eq_ok (h : a.add b = .ok c) :
    c.asset = a.asset ∧ c.value = a.value + b.value ∧ c.scale = max a.scale b.scale := by
  rw [add_spec] at h
  split_ifs at h with hasset hdigits
  · obtain rfl := Except.ok.inj h
    exact ⟨rfl, value_sumUnits a b, rfl⟩

/-- There is a sum exactly when the assets agree and its units, at the larger scale, have no more
digits than an amount may have. -/
lemma Amount.add_isOk_iff (a b : Amount) :
    (∃ s, a.add b = .ok s) ↔ a.asset = b.asset ∧ ∃ n : ℤ,
      (n : ℚ) = (a.value + b.value) * 10 ^ max a.scale b.scale ∧ digitCount n ≤ MAX_DIGITS := by
  simp only [← eq_sumUnits_iff, exists_eq_left, add_spec]
  split_ifs with hasset hdigits
  · simp [hasset]
  · simp [not_not.mp hasset, hdigits]
  · simp [hdigits]

/-- Sums commute, also in their errors: the two sums fail together and alike. -/
lemma Amount.add_comm (a b : Amount) : a.add b = b.add a := by
  have hunits : b.sumUnits a = a.sumUnits b := by
    rw [sumUnits, sumUnits, max_comm, Int.add_comm]
  rw [add_spec, add_spec]
  by_cases hasset : a.asset = b.asset
  · simp [hasset, hunits, max_comm]
  · simp [hasset, Ne.symm hasset]

/-- **Comparison is the order of the values.** -/
lemma Amount.cmpSameAsset_eq (h : a.asset = b.asset) :
    a.cmpSameAsset b = .ok (compare a.value b.value) := by
  rw [cmpSameAsset, if_neg (not_not_intro h)]
  simp only [rescaleUnits_eq]
  exact congrArg Except.ok (compare_eq (by decide) (le_max_left _ _) (le_max_right _ _))

/-- **The normalized form tells values apart**, and nothing else. -/
lemma Amount.normalized_eq_iff : a.normalized = b.normalized ↔ a.value = b.value := by
  rw [normalized, normalized, normalizedLoop_eq, normalizedLoop_eq]
  exact strip_eq_iff (by decide)

/-- Negating an amount negates the number it stands for. -/
@[simp]
lemma Amount.value_neg (a : Amount) : a.neg.value = -a.value := FixedPoint.value_neg a.units

/-- An amount negated twice is the amount itself, its scale and its asset included. -/
lemma Amount.neg_neg (a : Amount) : a.neg.neg = a := by
  obtain ⟨asset, units, scale, hdigits, hscale⟩ := a
  simp [neg]

/-- Two amounts are equal when their assets and values are. -/
lemma Amount.eq_iff : a.eq b = true ↔ a.asset = b.asset ∧ a.value = b.value := by
  unfold Amount.eq
  by_cases hasset : a.asset = b.asset
  · rw [cmpSameAsset_eq hasset]
    cases hcmp : compare a.value b.value with
    | eq => simpa [hasset] using compare_eq_iff_eq.mp hcmp
    | lt => simpa [hasset] using (compare_lt_iff_lt.mp hcmp).ne
    | gt => simpa [hasset] using (compare_gt_iff_gt.mp hcmp).ne'
  · simp [cmpSameAsset, hasset]

end Exactness

/-- **Arithmetic and comparison are exact.** A sum exists exactly when the assets agree and the
exact sum, written at the larger scale, has few enough digits; then it is that sum, at that scale.
A difference is the sum with the opposite, sums commute, and the opposite of the opposite is the
amount. Comparison is the order of the values, total and transitive at any scales, and an amount
equals another exactly when the assets agree and the hashed numerals do.

**Proof sketch.** Everything is read off the values of the amounts. The sum of the units at the
larger scale has the sum of the values (`Amount.add_spec`), so that addition succeeds exactly
when that number of units has few enough digits; subtraction is addition of the opposite. The
comparison of the units at a common scale is the comparison of the values
(`Amount.cmpSameAsset_eq`), from which its laws follow, and the normalized forms of two amounts
agree exactly when their values do. -/
theorem arithmetic_exact (a b c : Amount) :
    ((∃ s, a.add b = .ok s) ↔ a.asset = b.asset ∧ ∃ n : ℤ,
        (n : ℚ) = (a.value + b.value) * 10 ^ max a.scale b.scale ∧ digitCount n ≤ MAX_DIGITS) ∧
      ((∃ d, a.sub b = .ok d) ↔ a.asset = b.asset ∧ ∃ n : ℤ,
        (n : ℚ) = (a.value - b.value) * 10 ^ max a.scale b.scale ∧ digitCount n ≤ MAX_DIGITS) ∧
      (∀ s, a.add b = .ok s → s.asset = a.asset ∧ s.value = a.value + b.value ∧
        s.scale = max a.scale b.scale ∧ digitCount s.units ≤ MAX_DIGITS ∧ s.scale ≤ MAX_SCALE) ∧
      (∀ d, a.sub b = .ok d → d.asset = a.asset ∧ d.value = a.value - b.value ∧
        d.scale = max a.scale b.scale ∧ digitCount d.units ≤ MAX_DIGITS ∧ d.scale ≤ MAX_SCALE) ∧
      a.add b = b.add a ∧
      a.sub b = a.add b.neg ∧
      (a.neg.value = -a.value ∧ a.neg.scale = a.scale ∧ a.neg.neg = a) ∧
      (a.asset = b.asset → a.cmpSameAsset b = .ok (compare a.value b.value)) ∧
      (a.asset ≠ b.asset → a.cmpSameAsset b = .error .assetMismatch) ∧
      (a.asset = b.asset → a.cmpSameAsset b = (b.cmpSameAsset a).map Ordering.swap) ∧
      (a.asset = b.asset → b.asset = c.asset → ∀ o, a.cmpSameAsset b = .ok o →
        b.cmpSameAsset c = .ok o → a.cmpSameAsset c = .ok o) ∧
      (a.eq b = true ↔ a.asset = b.asset ∧ a.normalized = b.normalized) ∧
      (a.eq b = true ↔ a.hashed = b.hashed) ∧
      a.partialCmp b = if a.asset = b.asset then some (compare a.value b.value) else none := by
  have hneg : b.neg.asset = b.asset := rfl
  have hscale : b.neg.scale = b.scale := rfl
  have heq : a.eq b = true ↔ a.asset = b.asset ∧ a.normalized = b.normalized := by
    rw [Amount.eq_iff, Amount.normalized_eq_iff]
  refine ⟨Amount.add_isOk_iff a b, ?_, fun s hs => ?_, fun d hd => ?_, Amount.add_comm a b, rfl,
    ⟨Amount.value_neg a, rfl, Amount.neg_neg a⟩, Amount.cmpSameAsset_eq, fun hne => ?_,
    fun hasset => ?_, fun hab hbc o ho ho' => ?_, heq, ?_, ?_⟩
  · rw [Amount.sub, Amount.add_isOk_iff, Amount.value_neg, hneg, hscale, ← sub_eq_add_neg]
  · obtain ⟨hasset, hvalue, hmax⟩ := Amount.add_eq_ok hs
    exact ⟨hasset, hvalue, hmax, s.digits_le, s.scale_le⟩
  · obtain ⟨hasset, hvalue, hmax⟩ := Amount.add_eq_ok hd
    rw [Amount.value_neg, ← sub_eq_add_neg] at hvalue
    exact ⟨hasset, hvalue, hmax, d.digits_le, d.scale_le⟩
  · rw [Amount.cmpSameAsset, if_pos hne]
  · rw [Amount.cmpSameAsset_eq hasset, Amount.cmpSameAsset_eq hasset.symm]
    exact congrArg Except.ok (Std.OrientedOrd.eq_swap)
  · rw [Amount.cmpSameAsset_eq hab] at ho
    rw [Amount.cmpSameAsset_eq hbc] at ho'
    rw [Amount.cmpSameAsset_eq (hab.trans hbc)]
    cases o with
    | lt =>
      have hlt := compare_lt_iff_lt.mp (Except.ok.inj ho)
      have hlt' := compare_lt_iff_lt.mp (Except.ok.inj ho')
      exact congrArg Except.ok (compare_lt_iff_lt.mpr (hlt.trans hlt'))
    | eq =>
      have he := compare_eq_iff_eq.mp (Except.ok.inj ho)
      have he' := compare_eq_iff_eq.mp (Except.ok.inj ho')
      exact congrArg Except.ok (compare_eq_iff_eq.mpr (he.trans he'))
    | gt =>
      have hgt := compare_gt_iff_gt.mp (Except.ok.inj ho)
      have hgt' := compare_gt_iff_gt.mp (Except.ok.inj ho')
      exact congrArg Except.ok (compare_gt_iff_gt.mpr (hgt'.trans hgt))
  · rw [heq]
    exact Prod.mk_inj.symm
  · rw [Amount.partialCmp]
    split_ifs with hasset
    · rw [Amount.cmpSameAsset_eq hasset]
      rfl
    · rw [Amount.cmpSameAsset, if_pos hasset]
      rfl

end Sumer.Money
