import Mathlib.Tactic

set_option relaxedAutoImplicit false
set_option autoImplicit false

/-!
# Loops that can fail

A fold whose every turn either goes on with a new state or fails, which ends it. A failed loop
failed at one of its turns, in the state that the turns before had reached.

## Main results

* `Sumer.except_bind_eq_ok`: how two steps one after the other succeed.
* `Sumer.foldlM_append_eq_ok`: how a loop through two lists succeeds.
* `Sumer.foldlM_eq_error`: where a loop failed.
* `Sumer.foldlM_invariant`: what every turn preserves.
-/

namespace Sumer

variable {ε σ α β : Type}

/-- Two steps one after the other succeed when both do. -/
lemma except_bind_eq_ok {x : Except ε α} {f : α → Except ε β} {b : β} :
    x >>= f = .ok b ↔ ∃ a, x = .ok a ∧ f a = .ok b := by
  cases x <;> simp [bind, Except.bind]

/-- A step succeeds when it leaves something. -/
lemma exists_eq_ok_iff {x : Except ε α} : (∃ a, x = .ok a) ↔ x.toOption.isSome = true := by
  cases x <;> simp [Except.toOption]

/-- Two steps one after the other fail when the first does, or the second after the first. -/
lemma except_bind_eq_error {x : Except ε α} {f : α → Except ε β} {e : ε} :
    x >>= f = .error e ↔ x = .error e ∨ ∃ a, x = .ok a ∧ f a = .error e := by
  cases x <;> simp [bind, Except.bind]

section Fold

variable {step : σ → α → Except ε σ} {s s' : σ}

/-- A loop through two lists one after the other. -/
lemma foldlM_append_eq_ok {xs ys : List α} :
    (xs ++ ys).foldlM step s = .ok s' ↔
      ∃ mid, xs.foldlM step s = .ok mid ∧ ys.foldlM step mid = .ok s' := by
  rw [List.foldlM_append, except_bind_eq_ok]

/-- A loop with a first turn goes through exactly when that turn does and the rest goes through from
there. -/
lemma foldlM_cons_eq_ok {x : α} {xs : List α} :
    (x :: xs).foldlM step s = .ok s' ↔ ∃ mid, step s x = .ok mid ∧ xs.foldlM step mid = .ok s' := by
  rw [List.foldlM_cons, except_bind_eq_ok]

/-- **Where a loop failed**: at one of its turns, in the state that the turns before had
reached.

**Proof sketch.** Induction on the list: the loop failed at its first turn, or its first turn went
through and the rest failed. -/
lemma foldlM_eq_error {xs : List α} {e : ε} :
    xs.foldlM step s = .error e ↔
      ∃ before x after mid, xs = before ++ x :: after ∧ before.foldlM step s = .ok mid ∧
        step mid x = .error e := by
  induction xs generalizing s with
  | nil =>
    constructor
    · intro h
      cases h
    · rintro ⟨before, x, after, mid, h, -⟩
      exact absurd h.symm (by simp)
  | cons x xs ih =>
    rw [List.foldlM_cons, except_bind_eq_error]
    constructor
    · rintro (h | ⟨mid, hmid, h⟩)
      · exact ⟨[], x, xs, s, rfl, rfl, h⟩
      · obtain ⟨before, y, after, mid', rfl, hbefore, hy⟩ := ih.mp h
        exact ⟨x :: before, y, after, mid', rfl, foldlM_cons_eq_ok.mpr ⟨mid, hmid, hbefore⟩, hy⟩
    · rintro ⟨before, y, after, mid, heq, hbefore, hy⟩
      cases before with
      | nil =>
        obtain ⟨rfl, rfl⟩ := List.cons.inj heq
        cases hbefore
        exact .inl hy
      | cons b before =>
        obtain ⟨rfl, rfl⟩ := List.cons.inj heq
        obtain ⟨mid', hmid', hbefore⟩ := foldlM_cons_eq_ok.mp hbefore
        exact .inr ⟨mid', hmid', ih.mpr ⟨before, y, after, mid, rfl, hbefore, hy⟩⟩

/-- **The invariant rule**: what every turn preserves holds of what the loop ends with. -/
lemma foldlM_invariant {P : σ → Prop} {xs : List α}
    (hstep : ∀ s x s', x ∈ xs → P s → step s x = .ok s' → P s') (hs : P s)
    (h : xs.foldlM step s = .ok s') : P s' := by
  induction xs generalizing s with
  | nil =>
    cases h
    exact hs
  | cons x xs ih =>
    obtain ⟨mid, hmid, h⟩ := foldlM_cons_eq_ok.mp h
    exact ih (fun t y t' hy => hstep t y t' (List.mem_cons_of_mem _ hy))
      (hstep s x mid List.mem_cons_self hs hmid) h

end Fold

end Sumer
