import Mathlib.Data.List.Sort
import Mathlib.Order.Basic
import Mathlib.Tactic

set_option relaxedAutoImplicit false
set_option autoImplicit false

/-!
# The latest element of a log

A log is a list in arrival order whose elements carry a key of a linear order. Its *latest*
element is the one of greatest key, and among equals the one that arrived last. This is the
head of a log that is kept sorted by `(key, arrival)`.

## Main definitions

* `Sumer.latest`: the latest element of a log.

## Main results

* `Sumer.latest_concat`: what one more arrival does to it.
* `Sumer.latest_eq_some_iff`: the latest element, by what comes before and after it.
* `Sumer.getLast?_eq_latest`: sorting by `(key, arrival)` puts the latest element last.
-/

namespace Sumer

variable {α β κ : Type*} [LinearOrder κ]

/-- The later of the best element so far and a new arrival: a tie goes to the new one. -/
def later (key : α → κ) (best : Option α) (a : α) : Option α :=
  match best with
  | none => some a
  | some b => if key b ≤ key a then some a else some b

/-- The latest element of a log in arrival order: greatest key, ties to the last arrival. -/
def latest (key : α → κ) (l : List α) : Option α := l.foldl (later key) none

/-- An empty list has no latest element. -/
@[simp]
lemma latest_nil (key : α → κ) : latest key [] = none := rfl

/-- One more arrival is the new latest element exactly when its key reaches the old one's. -/
lemma latest_concat (key : α → κ) (l : List α) (a : α) :
    latest key (l ++ [a]) = later key (latest key l) a := by
  simp [latest, List.foldl_append]

/-- The later of two is one of the two. -/
lemma later_eq_some (key : α → κ) (best : Option α) (a : α) :
    later key best a = some a ∨ ∃ b, best = some b ∧ key a < key b ∧ later key best a = some b := by
  cases best with
  | none => exact Or.inl rfl
  | some b =>
    by_cases h : key b ≤ key a
    · exact Or.inl (if_pos h)
    · exact Or.inr ⟨b, rfl, not_le.mp h, if_neg h⟩

/-- A nonempty log has a latest element. -/
lemma latest_isSome (key : α → κ) {l : List α} (h : l ≠ []) : (latest key l).isSome := by
  obtain ⟨l', a, rfl⟩ := List.eq_nil_or_concat' l |>.resolve_left h
  rw [latest_concat]
  rcases later_eq_some key (latest key l') a with ha | ⟨b, -, -, hb⟩
  · simp [ha]
  · simp [hb]

/-- Only an empty list has no latest element. -/
@[simp]
lemma latest_eq_none_iff (key : α → κ) (l : List α) : latest key l = none ↔ l = [] := by
  constructor
  · intro h
    by_contra hne
    simpa [h] using latest_isSome key hne
  · rintro rfl
    rfl

/-- The latest element by what surrounds it: nothing before it has a greater key, everything
after it has a smaller one.

**Proof sketch.** Induction on the log from its end: an arrival either takes over, and then all
that came before is below it, or is itself below the element that stays. -/
lemma latest_eq_some_iff (key : α → κ) (l : List α) (a : α) :
    latest key l = some a ↔
      ∃ s t, l = s ++ a :: t ∧ (∀ b ∈ s, key b ≤ key a) ∧ ∀ b ∈ t, key b < key a := by
  constructor
  · induction l using List.reverseRecOn generalizing a with
    | nil => intro h; simp at h
    | append_singleton l x ih =>
      intro h
      rw [latest_concat] at h
      rcases later_eq_some key (latest key l) x with hx | ⟨b, hb, hlt, hx⟩
      · obtain rfl : x = a := by simpa [hx] using h
        refine ⟨l, [], by simp, ?_, by simp⟩
        intro b hbl
        obtain ⟨m, hm⟩ := Option.isSome_iff_exists.mp (latest_isSome key (List.ne_nil_of_mem hbl))
        have hmx : key m ≤ key x := by
          by_contra hnot
          simp only [hm, later, if_neg hnot, Option.some.injEq] at hx
          exact hnot (hx ▸ le_rfl)
        obtain ⟨s, t, rfl, hs, ht⟩ := ih m hm
        rcases List.mem_append.mp hbl with hbs | hbt
        · exact (hs b hbs).trans hmx
        · rcases List.mem_cons.mp hbt with rfl | hbt
          · exact hmx
          · exact (ht b hbt).le.trans hmx
      · obtain rfl : b = a := by simpa [hx] using h
        obtain ⟨s, t, rfl, hs, ht⟩ := ih b hb
        refine ⟨s, t ++ [x], by simp, hs, ?_⟩
        intro y hy
        rcases List.mem_append.mp hy with hy | hy
        · exact ht y hy
        · rwa [List.mem_singleton.mp hy]
  · rintro ⟨s, t, rfl, hs, ht⟩
    induction t using List.reverseRecOn with
    | nil =>
      rw [latest_concat]
      rcases later_eq_some key (latest key s) a with ha | ⟨b, hb, hlt, -⟩
      · exact ha
      · have hmem : b ∈ s := by
          clear hs ht
          induction s using List.reverseRecOn generalizing b with
          | nil => simp at hb
          | append_singleton s x ih =>
            rw [latest_concat] at hb
            rcases later_eq_some key (latest key s) x with hx | ⟨y, hy, hxy, hx⟩
            · simp [show b = x by simpa [hx] using hb.symm]
            · obtain rfl : y = b := by simpa [hx] using hb
              exact List.mem_append_left _ (ih y hy hlt)
        exact absurd (hs b hmem) (not_le.mpr hlt)
    | append_singleton t x ih =>
      have hbegins : latest key (s ++ a :: t) = some a :=
        ih fun b hb => ht b (List.mem_append_left _ hb)
      have hx : ¬ key a ≤ key x := not_le.mpr (ht x (by simp))
      rw [show s ++ a :: (t ++ [x]) = (s ++ a :: t) ++ [x] by simp, latest_concat, hbegins]
      simp [later, hx]

/-- The latest element of a list is an element of it. -/
lemma mem_of_latest (key : α → κ) {l : List α} {a : α} (h : latest key l = some a) : a ∈ l := by
  obtain ⟨s, t, rfl, -, -⟩ := (latest_eq_some_iff key l a).mp h
  simp

/-- No element has a greater key than the latest one. -/
lemma le_of_latest (key : α → κ) {l : List α} {a b : α} (h : latest key l = some a)
    (hb : b ∈ l) : key b ≤ key a := by
  obtain ⟨s, t, rfl, hs, ht⟩ := (latest_eq_some_iff key l a).mp h
  rcases List.mem_append.mp hb with hb | hb
  · exact hs b hb
  · rcases List.mem_cons.mp hb with rfl | hb
    · exact le_rfl
    · exact (ht b hb).le

/-- The latest element of a mapped log, when the map respects the key. -/
lemma latest_map (key : α → κ) (key' : β → κ) (f : α → β) (hf : ∀ a, key' (f a) = key a)
    (l : List α) : latest key' (l.map f) = (latest key l).map f := by
  induction l using List.reverseRecOn with
  | nil => rfl
  | append_singleton l x ih =>
    rw [List.map_append, List.map_singleton, latest_concat, latest_concat, ih]
    cases latest key l with
    | none => rfl
    | some b =>
      by_cases h : key b ≤ key x <;> simp [later, hf, h]

/-- Sorting forgets the order of arrival, when the relation is antisymmetric on the log. -/
lemma insertionSort_eq_of_perm {r : α → α → Prop} [DecidableRel r] [Std.Total r] [IsTrans α r]
    {l l' : List α} (hperm : l.Perm l')
    (hanti : ∀ a b, a ∈ l → b ∈ l → r a b → r b a → a = b) :
    l.insertionSort r = l'.insertionSort r := by
  have hsort := (List.perm_insertionSort r l).trans
    (hperm.trans (List.perm_insertionSort r l').symm)
  refine List.Perm.eq_of_pairwise ?_ (List.pairwise_insertionSort r l)
    (List.pairwise_insertionSort r l') hsort
  intro a b ha hb
  exact hanti a b (by simpa using ha) (hperm.mem_iff.mpr (by simpa using hb))

/-- **Sorting by `(key, arrival)` puts the latest element last.** `r` compares by the key and
breaks ties by arrival, which increases along the log.

**Proof sketch.** The last element of a sorted list bounds every element, and so does the latest
one; `r` is antisymmetric on the log. -/
lemma getLast?_eq_latest (key : α → κ) (r : α → α → Prop) {l sorted : List α}
    (hperm : sorted.Perm l) (hsorted : sorted.Pairwise r) (hrefl : ∀ a, r a a)
    (hanti : ∀ a b, a ∈ l → b ∈ l → r a b → r b a → a = b)
    (hlt : ∀ a b, key a < key b → r a b)
    (harrival : l.Pairwise fun a b => key a = key b → r a b) :
    sorted.getLast? = latest key l := by
  rcases List.eq_nil_or_concat' sorted with rfl | ⟨front, top, rfl⟩
  · rw [List.nil_perm.mp hperm]
    rfl
  · obtain ⟨a, ha⟩ := Option.isSome_iff_exists.mp
      (latest_isSome key (l := l) (by rintro rfl; simpa using hperm.length_eq))
    have htop : ∀ b ∈ l, r b top := by
      intro b hb
      rcases List.mem_append.mp (hperm.mem_iff.mpr hb) with hb | hb
      · exact (List.pairwise_append.mp hsorted).2.2 b hb top (by simp)
      · rw [List.mem_singleton.mp hb]
        exact hrefl top
    have hbound : ∀ b ∈ l, r b a := by
      obtain ⟨s, t, rfl, hs, ht⟩ := (latest_eq_some_iff key l a).mp ha
      intro b hb
      rcases List.mem_append.mp hb with hb | hb
      · rcases (hs b hb).lt_or_eq with hba | hba
        · exact hlt b a hba
        · exact (List.pairwise_append.mp harrival).2.2 b hb a (by simp) hba
      · rcases List.mem_cons.mp hb with rfl | hb
        · exact hrefl b
        · exact hlt b a (ht b hb)
    have htopmem : top ∈ l := hperm.mem_iff.mp (by simp)
    have hmem : a ∈ l := mem_of_latest key ha
    have : top = a := hanti top a htopmem hmem (hbound top htopmem) (htop a hmem)
    simp [this, ha]

end Sumer
