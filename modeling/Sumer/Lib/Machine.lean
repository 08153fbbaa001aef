import Mathlib.Tactic

set_option relaxedAutoImplicit false
set_option autoImplicit false

/-!
# Machine integers

The results of arithmetic in fixed-width types, where one that does not fit is an error.

## Main definitions

* `Machine.i64`, `Machine.u32`: a result in its type.
-/

namespace Machine

/-- A result that does not fit. -/
structure Overflow where
deriving DecidableEq

/-- A signed 64-bit result. -/
def i64 (n : ℤ) : Except Overflow ℤ := if -2 ^ 63 ≤ n ∧ n < 2 ^ 63 then .ok n else .error ⟨⟩

/-- An unsigned 32-bit result. -/
def u32 (n : ℕ) : Except Overflow ℕ := if n < 2 ^ 32 then .ok n else .error ⟨⟩

/-- An integer in the range of `i64` is the value of the checked operation, which fails only outside
of it. -/
lemma i64_eq {n : ℤ} (h : -2 ^ 63 ≤ n ∧ n < 2 ^ 63) : i64 n = .ok n := if_pos h

/-- A natural number below `2 ^ 32` is the value of the checked operation, which fails only from
there on. -/
lemma u32_eq {n : ℕ} (h : n < 2 ^ 32) : u32 n = .ok n := if_pos h

/-- A result that fits is passed on. -/
lemma i64_bind {α : Type} {n : ℤ} {k : ℤ → Except Overflow α} (h : -2 ^ 63 ≤ n ∧ n < 2 ^ 63) :
    i64 n >>= k = k n := by
  rw [i64_eq h]
  rfl

/-- Truncating division stays within a range around zero. -/
lemma tdiv_mem {a bound : ℤ} (h : -bound ≤ a ∧ a ≤ bound) (b : ℤ) :
    -bound ≤ a.tdiv b ∧ a.tdiv b ≤ bound := by
  have hle := Int.natAbs_tdiv_le_natAbs a b
  omega

end Machine
