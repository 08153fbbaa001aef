import Mathlib.Data.List.Sort
import Mathlib.Tactic

set_option relaxedAutoImplicit false
set_option autoImplicit false

/-!
# Stable sorting by a key

A list sorted by a key keeps the elements of one key in their order, and is determined by them. So
two lists that agree on the order of the elements of every single key are sorted alike, however
their elements of different keys are interleaved.

## Main definitions

* `StableSort.sortBy`: a list, sorted by a key.

## Main results

* `StableSort.filter_sortBy`: the elements of one key keep their order.
* `StableSort.sortBy_eq_of_filter_eq`: nothing else determines the result.
* `StableSort.map_insertionSort`: sorting by a finer order, seen through a map.
-/

namespace StableSort

variable {α β κ : Type*} [LinearOrder κ]

/-- A list, sorted by a key. -/
def sortBy (key : α → κ) (l : List α) : List α := l.insertionSort fun a b => key a ≤ key b

variable {key : α → κ} {l l' : List α}

/-- Sorting reorders a list and does nothing else: no element is lost and none is added. -/
lemma perm_sortBy (key : α → κ) (l : List α) : (sortBy key l).Perm l := List.perm_insertionSort _ l

/-- What is sorted is in the order of the key. -/
lemma pairwise_sortBy (key : α → κ) (l : List α) :
    (sortBy key l).Pairwise fun a b => key a ≤ key b := by
  have : Std.Total fun a b : α => key a ≤ key b := ⟨fun a b => le_total _ _⟩
  have : IsTrans α fun a b => key a ≤ key b := ⟨fun _ _ _ => le_trans⟩
  exact List.pairwise_insertionSort _ l

/-- **Sorting keeps the elements of one key in their order.** -/
lemma filter_sortBy (key : α → κ) (v : κ) (l : List α) :
    (sortBy key l).filter (fun a => key a = v) = l.filter fun a => key a = v := by
  have : Std.Total fun a b : α => key a ≤ key b := ⟨fun a b => le_total _ _⟩
  have : IsTrans α fun a b => key a ≤ key b := ⟨fun _ _ _ => le_trans⟩
  have hsub : (l.filter fun a => key a = v).Sublist (sortBy key l) := by
    refine List.sublist_insertionSort ?_ List.filter_sublist
    refine List.pairwise_of_forall_mem_list fun a ha b hb => ?_
    have hkey : key a = v := by simpa using (List.mem_filter.mp ha).2
    have hkey' : key b = v := by simpa using (List.mem_filter.mp hb).2
    rw [hkey, hkey']
  have hsub' := hsub.filter fun a => decide (key a = v)
  rw [List.filter_filter] at hsub'
  simp only [Bool.and_self] at hsub'
  exact (hsub'.eq_of_length ((perm_sortBy key l).filter _).length_eq.symm).symm

/-- The first element of a list in the order of a key has the least key. -/
lemma key_le_of_mem {a b : α} (h : (a :: l).Pairwise fun a b => key a ≤ key b) (hb : b ∈ a :: l) :
    key a ≤ key b := by
  rcases List.mem_cons.mp hb with rfl | hb
  · exact le_rfl
  · exact (List.pairwise_cons.mp h).1 b hb

/-- An element of one list is one of another that agrees with it on the elements of its key. -/
lemma mem_of_filter_eq {a : α}
    (hfilter : ∀ v, (l.filter fun a => key a = v) = l'.filter fun a => key a = v) (ha : a ∈ l) :
    a ∈ l' := by
  have hmem : a ∈ l.filter fun b => key b = key a := by simpa using ha
  rw [hfilter] at hmem
  exact (List.mem_filter.mp hmem).1

/-- **A list in the order of a key is determined by its elements of every single key.**

**Proof sketch.** Induction on the lists. The first element of each list is in the other, by the
filters at its key; both lists are in order, so the two first elements have the same key, and the
filter at this key has both of them in the first place. They are equal, and the tails satisfy the
hypotheses again. -/
lemma eq_of_filter_eq (h : l.Pairwise fun a b => key a ≤ key b)
    (h' : l'.Pairwise fun a b => key a ≤ key b)
    (hfilter : ∀ v, (l.filter fun a => key a = v) = l'.filter fun a => key a = v) : l = l' := by
  induction l generalizing l' with
  | nil =>
    cases l' with
    | nil => rfl
    | cons b l' =>
      have := mem_of_filter_eq (fun v => (hfilter v).symm) (List.mem_cons_self (a := b) (l := l'))
      exact absurd this List.not_mem_nil
  | cons a l ih =>
    cases l' with
    | nil => exact absurd (mem_of_filter_eq hfilter List.mem_cons_self) List.not_mem_nil
    | cons b l' =>
      have hkey : key a = key b := by
        refine le_antisymm ?_ ?_
        · exact key_le_of_mem h (mem_of_filter_eq (fun v => (hfilter v).symm) List.mem_cons_self)
        · exact key_le_of_mem h' (mem_of_filter_eq hfilter List.mem_cons_self)
      have hhead := hfilter (key a)
      rw [List.filter_cons_of_pos (by simp), List.filter_cons_of_pos (by simp [hkey])] at hhead
      obtain ⟨rfl, -⟩ := List.cons.inj hhead
      have htail := ih (List.pairwise_cons.mp h).2 (List.pairwise_cons.mp h').2 fun v => by
        have hv := hfilter v
        by_cases heq : key a = v
        · rw [List.filter_cons_of_pos (by simp [heq]),
            List.filter_cons_of_pos (by simp [heq])] at hv
          exact (List.cons.inj hv).2
        · rwa [List.filter_cons_of_neg (by simp [heq]),
            List.filter_cons_of_neg (by simp [heq])] at hv
      rw [htail]

/-- **Lists that agree on the elements of every single key are sorted alike.** -/
lemma sortBy_eq_of_filter_eq
    (hfilter : ∀ v, (l.filter fun a => key a = v) = l'.filter fun a => key a = v) :
    sortBy key l = sortBy key l' := by
  refine eq_of_filter_eq (pairwise_sortBy key l) (pairwise_sortBy key l') fun v => ?_
  rw [filter_sortBy, filter_sortBy, hfilter]

/-- Sorting compares an element with later ones only, so that a map that keeps these comparisons
commutes with it.

**Proof sketch.** Induction on the list. The tail is sorted alike on both sides, and the first
element is inserted by comparisons with elements of the tail, which the map keeps. -/
lemma map_insertionSort {r : α → α → Prop} [DecidableRel r] {s : β → β → Prop} [DecidableRel s]
    (f : α → β) (h : l.Pairwise fun a b => r a b ↔ s (f a) (f b)) :
    (l.insertionSort r).map f = (l.map f).insertionSort s := by
  induction l with
  | nil => rfl
  | cons a l ih =>
    obtain ⟨ha, hl⟩ := List.pairwise_cons.mp h
    have hinsert (m : List α) (hm : ∀ b ∈ m, r a b ↔ s (f a) (f b)) :
        (m.orderedInsert r a).map f = (m.map f).orderedInsert s (f a) := by
      induction m with
      | nil => rfl
      | cons b m ihm =>
        have ihm := ihm fun c hc => hm c (List.mem_cons_of_mem _ hc)
        have hb := hm b List.mem_cons_self
        rw [List.orderedInsert_cons, List.map_cons, List.orderedInsert_cons]
        by_cases hab : r a b
        · rw [if_pos hab, if_pos (hb.mp hab)]
          rfl
        · rw [if_neg hab, if_neg fun hs => hab (hb.mpr hs), List.map_cons, ihm]
    rw [List.insertionSort_cons, List.map_cons, List.insertionSort_cons, ← ih hl]
    exact hinsert _ fun b hb => ha b ((List.mem_insertionSort r).mp hb)

end StableSort
