import Mathlib.Data.Fintype.EquivFin
import Mathlib.Tactic

set_option relaxedAutoImplicit false
set_option autoImplicit false

/-!
# Orbits of a partial step

A step that goes on to another point or stops. Where the points that it visits are finitely many,
it stops exactly when it visits none of them twice: a point that comes back comes back for ever.

## Main definitions

* `Sumer.orbit`: the point after some steps, if there is one.

## Main results

* `Sumer.orbit_stops_iff`: when a step stops.
-/

namespace Sumer

variable {α : Type}

/-- The point after some steps, while the step goes on. -/
def orbit (next : α → Option α) (start : α) : ℕ → Option α
  | 0 => some start
  | n + 1 => (orbit next start n).bind next

section Orbit

variable {next : α → Option α} {start x : α} {i j : ℕ}

/-- No step from the start is the start itself. -/
@[simp]
lemma orbit_zero : orbit next start 0 = some start := rfl

/-- One step more is taken from where the orbit has come, when it has not stopped before. -/
lemma orbit_succ (n : ℕ) : orbit next start (n + 1) = (orbit next start n).bind next := rfl

/-- One step from the start is the step itself. -/
lemma orbit_one : orbit next start 1 = next start := rfl

/-- An orbit from a start with a next element goes on as the orbit of that element. -/
lemma orbit_succ' {second : α} (h : next start = some second) (n : ℕ) :
    orbit next start (n + 1) = orbit next second n := by
  induction n with
  | zero => exact h
  | succ n ih => rw [orbit_succ, ih, ← orbit_succ]

/-- What is reached goes on from there. -/
lemma orbit_add (h : orbit next start i = some x) (k : ℕ) :
    orbit next start (i + k) = orbit next x k := by
  induction k with
  | zero => exact h
  | succ k ih => rw [← Nat.add_assoc, orbit_succ, ih, orbit_succ]

/-- A step that goes on so far has gone on before. -/
lemma exists_orbit_of_le (h : orbit next start j = some x) (hij : i ≤ j) :
    ∃ y, orbit next start i = some y := by
  induction j generalizing x with
  | zero =>
    obtain rfl := Nat.le_zero.mp hij
    exact ⟨x, h⟩
  | succ j ih =>
    rcases Nat.lt_or_ge i (j + 1) with hlt | hge
    · obtain ⟨y, hy, -⟩ := Option.bind_eq_some_iff.mp h
      exact ih hy (Nat.le_of_lt_succ hlt)
    · obtain rfl := le_antisymm hij hge
      exact ⟨x, h⟩

/-- A point that comes back comes back for ever. -/
lemma orbit_ne_none (hij : i < j) (hi : orbit next start i = some x)
    (hj : orbit next start j = some x) (n : ℕ) : ∃ y, orbit next start n = some y := by
  induction n using Nat.strong_induction_on with
  | _ n ih =>
    rcases Nat.lt_or_ge n j with hlt | hge
    · exact exists_orbit_of_le hj hlt.le
    · -- one period earlier the orbit stood at the same point
      obtain ⟨k, rfl⟩ : ∃ k, n = j + k := ⟨n - j, by omega⟩
      rw [orbit_add hj, ← orbit_add hi]
      exact ih (i + k) (by omega)

/-- **When a step stops** that visits finitely many points: when it visits none of them twice.

**Proof sketch.** A point that is visited twice is visited for ever, so the step does not stop. If
it does not stop and visits no point twice, the points of infinitely many steps are all different,
and there are finitely many. -/
theorem orbit_stops_iff (S : Finset α) (hS : ∀ n x, orbit next start n = some x → x ∈ S) :
    (∃ n, orbit next start n = none) ↔
      ∀ i j x, i < j → orbit next start i = some x → orbit next start j ≠ some x := by
  constructor
  · rintro ⟨n, hn⟩ i j x hij hi hj
    obtain ⟨y, hy⟩ := orbit_ne_none hij hi hj n
    rw [hn] at hy
    cases hy
  · intro hdistinct
    by_contra hgoes
    have hall (n : ℕ) : ∃ x, orbit next start n = some x :=
      Option.ne_none_iff_exists'.mp fun hn => hgoes ⟨n, hn⟩
    choose point hpoint using hall
    -- otherwise the points would be as many as the numbers
    obtain ⟨i, j, hne, heq⟩ := Finite.exists_ne_map_eq_of_infinite
      fun n => (⟨point n, hS n _ (hpoint n)⟩ : S)
    have heq : point i = point j := congrArg Subtype.val heq
    rcases Nat.lt_or_gt_of_ne hne with hlt | hlt
    · exact hdistinct i j _ hlt (hpoint i) (heq ▸ hpoint j)
    · exact hdistinct j i _ hlt (hpoint j) (heq ▸ hpoint i)

end Orbit

end Sumer
