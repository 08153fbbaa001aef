import Mathlib.Logic.Function.Basic

set_option relaxedAutoImplicit false
set_option autoImplicit false

/-!
# Locks held by program counters

A lock has at most one owner. Where a thread is in its code says whether it holds the lock, and the
lock's word says the same: the rules for a step of one thread that leaves the lock alone, takes it
while it is free, or releases it.

## Main definitions

* `Mutex.Held`: the word of a lock names exactly the threads that hold it.

## Main results

* `Mutex.Held.keep`, `Mutex.Held.take`, `Mutex.Held.release`: the three kinds of steps.
* `Mutex.Held.unique`: mutual exclusion.
-/

namespace Mutex

open Function

variable {ι α : Type}

/-- A thread is where it holds the lock exactly when the lock's word names it. -/
def Held (holds : ι → α → Prop) (pc : ι → α) (lock : Option ι) : Prop :=
  ∀ i, holds i (pc i) ↔ lock = some i

section Held

variable {holds : ι → α → Prop} {pc : ι → α} {lock : Option ι} {i j : ι} {here next : α}

/-- **Mutual exclusion**: two parties whose places say that they hold the lock are one. -/
lemma Held.unique (h : Held holds pc lock) (hi : holds i (pc i)) (hj : holds j (pc j)) : i = j :=
  Option.some.inj (((h i).mp hi).symm.trans ((h j).mp hj))

/-- Nobody holds a free lock. -/
lemma Held.not_of_none (h : Held holds pc none) (i : ι) : ¬ holds i (pc i) :=
  fun hi => nomatch (h i).mp hi

variable [DecidableEq ι]

/-- A step on the same side of the lock. -/
lemma Held.keep (h : Held holds pc lock) (hpc : pc i = here)
    (hsame : holds i next ↔ holds i here) : Held holds (update pc i next) lock := by
  intro j
  by_cases hj : j = i
  · subst hj
    rw [update_self, hsame, ← hpc, h]
  · rw [update_of_ne hj, h]

/-- A free lock is taken by moving to a place that holds it; the party that moved is then its
owner. -/
lemma Held.take (h : Held holds pc none) (hholds : holds i next) :
    Held holds (update pc i next) (some i) := by
  intro j
  by_cases hj : j = i
  · subst hj
    rw [update_self]
    exact iff_of_true hholds rfl
  · rw [update_of_ne hj, h]
    exact iff_of_false nofun fun heq => hj (Option.some.inj heq).symm

/-- The owner releases the lock by moving from a place that holds it to one that does not. -/
lemma Held.release (h : Held holds pc lock) (hpc : pc i = here) (hholds : holds i here)
    (hnot : ¬ holds i next) : Held holds (update pc i next) none := by
  subst hpc
  intro j
  by_cases hj : j = i
  · subst hj
    rw [update_self]
    exact iff_of_false hnot nofun
  · rw [update_of_ne hj, h, (h i).mp hholds]
    exact iff_of_false (fun heq => hj (Option.some.inj heq).symm) nofun

end Held

end Mutex
