import Mathlib.Tactic

set_option relaxedAutoImplicit false
set_option autoImplicit false

/-!
# Interruptible loops

A loop that reads one event a turn. Its body either goes on with a new state or stops with a
result; when the events run out the loop is cut off in the state it has reached. Since the list
of events can end anywhere, every statement about `loop` for all event lists is a statement about
every point at which the loop can be interrupted.

## Main definitions

* `Sumer.advance`: the state of a loop that is still running after a list of events.
* `Sumer.loop`: the result of a loop.

## Main results

* `Sumer.advance_invariant`: what every turn preserves holds in every state the loop reaches.
* `Sumer.exists_first`: the step at which something comes to hold.
* `Sumer.loop_cases`: how a loop ended, with the turns before its last one.
* `Sumer.loop_append`: a loop resumes where a prefix of its events left it.
-/

namespace Sumer

variable {σ ε ρ : Type*}

/-- The state of the loop after the given events, if it is still running then. -/
def advance (body : σ → ε → σ ⊕ ρ) : σ → List ε → Option σ
  | s, [] => some s
  | s, e :: es =>
    match body s e with
    | .inl s' => advance body s' es
    | .inr _ => none

/-- The result of the loop: that of the turn that stops it, or `cut` of the state in which the
events ran out. -/
def loop (body : σ → ε → σ ⊕ ρ) (cut : σ → ρ) : σ → List ε → ρ
  | s, [] => cut s
  | s, e :: es =>
    match body s e with
    | .inl s' => loop body cut s' es
    | .inr r => r

section Advance

variable {body : σ → ε → σ ⊕ ρ} {s s' : σ}

/-- A loop that is given no element is in the state it started from. -/
@[simp]
lemma advance_nil (s : σ) : advance body s [] = some s := rfl

/-- A turn that goes on hands its state to the turns after it. -/
lemma advance_cons {e : ε} (h : body s e = .inl s') (es : List ε) :
    advance body s (e :: es) = advance body s' es := by
  simp only [advance, h]

/-- Going on through two lists of events one after the other. -/
lemma advance_append (es fs : List ε) :
    advance body s (es ++ fs) = (advance body s es).bind fun t => advance body t fs := by
  induction es generalizing s with
  | nil => rfl
  | cons e es ih =>
    simp only [List.cons_append, advance]
    cases body s e with
    | inl t => exact ih
    | inr r => rfl

/-- One more turn starts in the state that the earlier ones reached, if the loop has gone on so
far. -/
lemma advance_concat (es : List ε) (e : ε) :
    advance body s (es ++ [e]) = (advance body s es).bind fun t => (body t e).getLeft? := by
  have hone (t : σ) : advance body t [e] = (body t e).getLeft? := by
    simp only [advance]
    cases body t e <;> rfl
  rw [advance_append]
  simp only [hone]

/-- **The invariant rule.** What holds at the start of the events and of the state reached by
them, and is kept by every turn that goes on, holds of every state the loop reaches and the events
that led there. -/
lemma advance_invariant (P : List ε → σ → Prop)
    (hstep : ∀ es t e t', P es t → body t e = .inl t' → P (es ++ [e]) t')
    {es : List ε} (h : advance body s es = some s') (hs : P [] s) : P es s' := by
  induction es using List.reverseRecOn generalizing s' with
  | nil =>
    obtain rfl : s = s' := by simpa using h
    exact hs
  | append_singleton es e ih =>
    rw [advance_concat, Option.bind_eq_some_iff] at h
    obtain ⟨t, ht, hlast⟩ := h
    exact hstep es t e s' (ih ht) (Sum.getLeft?_eq_some_iff.mp hlast)

end Advance

section Loop

variable {body : σ → ε → σ ⊕ ρ} {cut : σ → ρ} {s s' : σ}

/-- A loop goes on from the state a prefix of its events left it in. -/
lemma loop_append {es : List ε} (h : advance body s es = some s') (fs : List ε) :
    loop body cut s (es ++ fs) = loop body cut s' fs := by
  induction es generalizing s with
  | nil =>
    obtain rfl : s = s' := by simpa using h
    rfl
  | cons e es ih =>
    simp only [advance] at h
    simp only [List.cons_append, loop]
    cases hb : body s e with
    | inl t =>
      rw [hb] at h
      exact ih h
    | inr r => simp [hb] at h

/-- **How a loop ended.** Either it was cut off after all its events, or some turn stopped it;
in both cases every turn before was one that goes on. -/
lemma loop_cases (body : σ → ε → σ ⊕ ρ) (cut : σ → ρ) (s : σ) (es : List ε) :
    (∃ s', advance body s es = some s' ∧ loop body cut s es = cut s') ∨
      ∃ pre e post s' r, es = pre ++ e :: post ∧ advance body s pre = some s' ∧
        body s' e = .inr r ∧ loop body cut s es = r := by
  induction es generalizing s with
  | nil => exact Or.inl ⟨s, rfl, rfl⟩
  | cons e es ih =>
    cases hb : body s e with
    | inl t =>
      rcases ih t with ⟨s', hadv, hloop⟩ | ⟨pre, f, post, s', r, rfl, hadv, hstop, hloop⟩
      · refine Or.inl ⟨s', (advance_cons hb es).trans hadv, ?_⟩
        simpa only [loop, hb] using hloop
      · refine Or.inr ⟨e :: pre, f, post, s', r, rfl, (advance_cons hb pre).trans hadv, hstop, ?_⟩
        simpa only [loop, hb] using hloop
    | inr r =>
      refine Or.inr ⟨[], e, es, s, r, rfl, rfl, hb, ?_⟩
      simp only [loop, hb]

end Loop

/-- **What does not hold at first and holds in the end came to hold at some step.** -/
lemma exists_first {α : Type*} (f : σ → α → σ) (P : σ → Prop) {s : σ} {as : List α} (hs : ¬ P s)
    (h : P (as.foldl f s)) :
    ∃ before a after, as = before ++ a :: after ∧ ¬ P (before.foldl f s) ∧
      P (f (before.foldl f s) a) := by
  induction as generalizing s with
  | nil => exact absurd h hs
  | cons a as ih =>
    by_cases hstep : P (f s a)
    · exact ⟨[], a, as, rfl, hs, hstep⟩
    · obtain ⟨before, b, after, rfl, hbefore, hb⟩ := ih hstep h
      exact ⟨a :: before, b, after, rfl, hbefore, hb⟩

end Sumer
