import Mathlib.Order.Basic
import Mathlib.Tactic

set_option relaxedAutoImplicit false
set_option autoImplicit false

/-!
# Grouping a list by a key

A list is grouped by putting each element at the end of the group of its key, in a list of groups
that is kept in the order of their keys. This is what an ordered map from keys to lists holds
after every element has been pushed to the entry of its key.

## Main definitions

* `Grouping.push`, `Grouping.groups`: one element, and a whole list.

## Main results

* `Grouping.mem_groups`: the group of a key is what the list has of it.
* `Grouping.nodup_groups`: no two groups have the same key.
-/

namespace Grouping

variable {α κ : Type*} [LinearOrder κ]

/-- Adds an element to the group of its key. -/
def push (key : α → κ) (x : α) : List (κ × List α) → List (κ × List α)
  | [] => [(key x, [x])]
  | (k, group) :: rest =>
    if key x = k then (k, group ++ [x]) :: rest
    else if key x < k then (key x, [x]) :: (k, group) :: rest
    else (k, group) :: push key x rest

/-- A list, grouped by a key. -/
def groups (key : α → κ) (xs : List α) : List (κ × List α) :=
  xs.foldl (fun gs x => push key x gs) []

variable {key : α → κ} {x : α} {xs : List α} {gs : List (κ × List α)}

/-- The keys of the groups are in strict order. -/
def Ordered (gs : List (κ × List α)) : Prop := (gs.map Prod.fst).Pairwise (· < ·)

/-- Adding an element adds its key, and no other. -/
lemma mem_keys_push {k : κ} :
    k ∈ (push key x gs).map Prod.fst ↔ k = key x ∨ k ∈ gs.map Prod.fst := by
  induction gs with
  | nil => simp [push]
  | cons g rest ih =>
    obtain ⟨k', group⟩ := g
    rw [push]
    split_ifs with heq hlt
    · simp only [List.map_cons, List.mem_cons, ← heq]
      tauto
    · simp only [List.map_cons, List.mem_cons]
    · simp only [List.map_cons, List.mem_cons, ih]
      tauto

/-- Adding an element keeps the groups in strictly increasing order of their keys. -/
lemma Ordered.push (h : Ordered gs) : Ordered (push key x gs) := by
  induction gs with
  | nil => simp [Grouping.push, Ordered]
  | cons g rest ih =>
    obtain ⟨k, group⟩ := g
    obtain ⟨hfirst, hrest⟩ := List.pairwise_cons.mp h
    rw [Grouping.push]
    split_ifs with heq hlt
    · exact h
    · refine List.pairwise_cons.mpr ⟨fun k' hk' => ?_, h⟩
      rcases List.mem_cons.mp hk' with rfl | hk'
      · exact hlt
      · exact hlt.trans (hfirst k' hk')
    · refine List.pairwise_cons.mpr ⟨fun k' hk' => ?_, ih hrest⟩
      rcases mem_keys_push.mp hk' with rfl | hk'
      · exact lt_of_le_of_ne (not_lt.mp hlt) (Ne.symm heq)
      · exact hfirst k' hk'

/-- The groups after an element was added: its own has it at the end, and is new if there was
none; the others are as they were.

**Proof sketch.** Induction on the groups, along the three cases of the insertion: the key is the
first group's, it comes before the first group, or it belongs further back. Since the keys increase,
a group of that key stands nowhere else in the first two cases. -/
lemma mem_push (h : Ordered gs) {k : κ} {group : List α} :
    (k, group) ∈ push key x gs ↔
      (k ≠ key x ∧ (k, group) ∈ gs) ∨
      (k = key x ∧ ((∃ before, (k, before) ∈ gs ∧ group = before ++ [x]) ∨
        (k ∉ gs.map Prod.fst ∧ group = [x]))) := by
  induction gs with
  | nil => simp [push]
  | cons g rest ih =>
    obtain ⟨k', group'⟩ := g
    obtain ⟨hfirst, hrest⟩ := List.pairwise_cons.mp h
    have hnew : k' ∉ rest.map Prod.fst := fun hk => lt_irrefl _ (hfirst k' hk)
    have hother {g : List α} (hk : (k, g) ∈ rest) : k ≠ k' := fun heq =>
      hnew (heq ▸ List.mem_map.mpr ⟨(k, g), hk, rfl⟩)
    rw [push]
    split_ifs with heq hlt
    · simp only [List.mem_cons, Prod.mk.injEq, List.map_cons, heq]
      constructor
      · rintro (⟨rfl, rfl⟩ | hk)
        · exact .inr ⟨rfl, .inl ⟨group', .inl ⟨rfl, rfl⟩, rfl⟩⟩
        · exact .inl ⟨hother hk, .inr hk⟩
      · rintro (⟨hne, ⟨rfl, -⟩ | hk⟩ | ⟨rfl, ⟨before, ⟨-, rfl⟩ | hk, rfl⟩ | ⟨hk, -⟩⟩)
        · exact absurd rfl hne
        · exact .inr hk
        · exact .inl ⟨rfl, rfl⟩
        · exact absurd rfl (hother hk)
        · exact absurd (.inl rfl) hk
    · have hfresh : key x ∉ ((k', group') :: rest).map Prod.fst := by
        simp only [List.map_cons, List.mem_cons, not_or]
        exact ⟨heq, fun hk => lt_asymm hlt (hfirst _ hk)⟩
      have hone : k = key x → ∀ g, (k, g) ∉ (k', group') :: rest := fun hk g hmem =>
        hfresh (hk ▸ List.mem_map.mpr ⟨(k, g), hmem, rfl⟩)
      rw [List.mem_cons, Prod.mk.injEq]
      constructor
      · rintro (⟨rfl, rfl⟩ | hmem)
        · exact .inr ⟨rfl, .inr ⟨hfresh, rfl⟩⟩
        · exact .inl ⟨fun hk => hone hk group hmem, hmem⟩
      · rintro (⟨-, hmem⟩ | ⟨hk, ⟨before, hmem, -⟩ | ⟨-, rfl⟩⟩)
        · exact .inr hmem
        · exact absurd hmem (hone hk before)
        · exact .inl ⟨hk, rfl⟩
    · rw [List.mem_cons, ih hrest, Prod.mk.injEq]
      simp only [List.mem_cons, Prod.mk.injEq, List.map_cons, not_or]
      constructor
      · rintro (⟨rfl, rfl⟩ | ⟨hne, hmem⟩ | ⟨rfl, ⟨before, hmem, rfl⟩ | ⟨hk, rfl⟩⟩)
        · exact .inl ⟨Ne.symm heq, .inl ⟨rfl, rfl⟩⟩
        · exact .inl ⟨hne, .inr hmem⟩
        · exact .inr ⟨rfl, .inl ⟨before, .inr hmem, rfl⟩⟩
        · exact .inr ⟨rfl, .inr ⟨⟨heq, hk⟩, rfl⟩⟩
      · rintro (⟨hne, ⟨rfl, rfl⟩ | hmem⟩ | ⟨rfl, ⟨before, ⟨rfl, -⟩ | hmem, rfl⟩ | ⟨hk, rfl⟩⟩)
        · exact .inl ⟨rfl, rfl⟩
        · exact .inr (.inl ⟨hne, hmem⟩)
        · exact absurd rfl heq
        · exact .inr (.inr ⟨rfl, .inl ⟨before, hmem, rfl⟩⟩)
        · exact .inr (.inr ⟨rfl, .inr ⟨hk.2, rfl⟩⟩)

/-- The groups of a list with one element more: that element is pushed into its group. -/
lemma groups_concat (key : α → κ) (xs : List α) (x : α) :
    groups key (xs ++ [x]) = push key x (groups key xs) := by
  simp [groups, List.foldl_append]

/-- The groups of a list stand in the order of their keys: pushing an element keeps them in it. -/
lemma ordered_groups (key : α → κ) (xs : List α) : Ordered (groups key xs) := by
  induction xs using List.reverseRecOn with
  | nil => exact List.Pairwise.nil
  | append_singleton xs x ih =>
    rw [groups_concat]
    exact ih.push

/-- **No two groups have the same key.** -/
lemma nodup_groups (key : α → κ) (xs : List α) : ((groups key xs).map Prod.fst).Nodup :=
  (ordered_groups key xs).imp ne_of_lt

/-- **The group of a key is what the list has of it**, in its order, and there is one if it has
any.

**Proof sketch.** Induction on the list from its end. The element that is added last goes to the
group of its key (`mem_push`), and so it does in the part of the list that has this key; for every
other key neither changes. -/
lemma mem_groups {k : κ} {group : List α} :
    (k, group) ∈ groups key xs ↔ group = xs.filter (fun x => key x = k) ∧ group ≠ [] := by
  induction xs using List.reverseRecOn generalizing group with
  | nil => simp [groups]
  | append_singleton xs x ih =>
    have hkeys : k ∉ (groups key xs).map Prod.fst ↔ xs.filter (fun x => key x = k) = [] := by
      constructor
      · intro hk
        by_contra hne
        exact hk (List.mem_map.mpr ⟨(k, _), ih.mpr ⟨rfl, hne⟩, rfl⟩)
      · intro hnil hk
        obtain ⟨⟨k', group'⟩, hmem, rfl⟩ := List.mem_map.mp hk
        obtain ⟨heq, hne⟩ := ih.mp hmem
        exact hne (heq.trans hnil)
    rw [groups_concat, mem_push (ordered_groups key xs), List.filter_append, hkeys]
    by_cases hk : k = key x
    · subst hk
      simp only [ne_eq, not_true_eq_false, false_and, true_and, false_or, decide_true,
        List.filter_cons_of_pos, List.filter_nil, ih]
      constructor
      · rintro (⟨before, ⟨rfl, -⟩, rfl⟩ | ⟨hnil, rfl⟩)
        · exact ⟨rfl, by simp⟩
        · exact ⟨by rw [hnil, List.nil_append], by simp⟩
      · rintro ⟨rfl, -⟩
        by_cases hnil : xs.filter (fun y => key y = key x) = []
        · exact .inr ⟨hnil, by rw [hnil, List.nil_append]⟩
        · exact .inl ⟨_, ⟨rfl, hnil⟩, rfl⟩
    · have hlast : [x].filter (fun x => key x = k) = [] := by simp [Ne.symm hk]
      simp only [ne_eq, hk, not_false_eq_true, true_and, false_and, or_false, hlast,
        List.append_nil, ih]

end Grouping
