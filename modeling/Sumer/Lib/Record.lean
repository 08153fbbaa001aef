import Mathlib.Data.String.Basic
import Sumer.Lib.Fallible

set_option relaxedAutoImplicit false
set_option autoImplicit false

/-!
# Records

An object read as a record: every key is the name of a field, and comes once. What is read does not
depend on the order of the members, and an object that is written field by field is a record.

## Main definitions

* `Sumer.Record.visit`, `Sumer.Record.collect`: the members of an object, one after the other.
* `Sumer.Record.toMap`: an object as a map, its keys in order.

## Main results

* `Sumer.Record.collect_eq_ok`: which objects are records.
* `Sumer.Record.lookup_perm`: what a record has does not depend on the order of its members.
* `Sumer.Record.collect_of_sublist`: what is written field by field is a record.
* `Sumer.Record.toMap_spec`, `Sumer.Record.toMap_perm`, `Sumer.Record.toMap_of_pairwise`: what a map
  has, and that it is its own.
-/

namespace Sumer.Record

variable {V : Type}

/-- Why an object is not a record. -/
inductive Fault where
  | unknownField (key : String)
  | duplicateField (key : String)
deriving DecidableEq

/-- Takes a member in: its key is a field, and is new. -/
def visit (fields : List String) (given : List (String × V)) (m : String × V) :
    Except Fault (List (String × V)) :=
  if m.1 ∉ fields then .error (.unknownField m.1)
  else if (given.lookup m.1).isSome then .error (.duplicateField m.1)
  else .ok (given ++ [m])

/-- The members of an object, as those of a record. -/
def collect (fields : List String) (members : List (String × V)) :
    Except Fault (List (String × V)) :=
  members.foldlM (visit fields) []

/-- A map, in key order, with another value for a key. -/
def insert (m : String × V) : List (String × V) → List (String × V)
  | [] => [m]
  | m' :: rest =>
    if m.1 < m'.1 then m :: m' :: rest
    else if m.1 = m'.1 then m :: rest
    else m' :: insert m rest

/-- An object as a map, in key order. The last value of a key stays. -/
def toMap (members : List (String × V)) : List (String × V) :=
  members.foldl (fun map m => insert m map) []

section Lookup

variable {key : String} {members members' : List (String × V)}

/-- A key without a value is the key of no member. -/
lemma lookup_eq_none_iff : members.lookup key = none ↔ key ∉ members.map Prod.fst := by
  induction members with
  | nil => simp
  | cons m members ih =>
    obtain ⟨k, w⟩ := m
    rw [List.lookup_cons, List.map_cons, List.mem_cons, not_or]
    by_cases hk : key = k
    · simp [hk]
    · rw [beq_false_of_ne hk, ih]
      simp [hk]

/-- The value of a member, when no key comes twice. -/
lemma lookup_eq_some_iff (hnodup : (members.map Prod.fst).Nodup) {v : V} :
    members.lookup key = some v ↔ (key, v) ∈ members := by
  induction members with
  | nil => simp
  | cons m members ih =>
    obtain ⟨k, w⟩ := m
    rw [List.map_cons, List.nodup_cons] at hnodup
    rw [List.lookup_cons, List.mem_cons]
    by_cases hk : key = k
    · subst hk
      have hnot : (key, v) ∉ members := fun hmem =>
        hnodup.1 (List.mem_map.mpr ⟨(key, v), hmem, rfl⟩)
      simp [hnot, eq_comm]
    · rw [beq_false_of_ne hk, ih hnodup.2]
      simp [hk]

/-- **What a record has** does not depend on the order of its members. -/
lemma lookup_perm (h : members.Perm members') (hnodup : (members.map Prod.fst).Nodup) :
    members.lookup key = members'.lookup key := by
  have hnodup' : (members'.map Prod.fst).Nodup := (h.map Prod.fst).nodup_iff.mp hnodup
  refine Option.ext fun v => ?_
  rw [lookup_eq_some_iff hnodup, lookup_eq_some_iff hnodup', h.mem_iff]

/-- What two lists of members have for a key. -/
@[simp]
lemma lookup_append : (members ++ members').lookup key =
    (members.lookup key).or (members'.lookup key) := List.lookup_append

end Lookup

section Collect

variable {fields : List String} {given members members' out : List (String × V)}

/-- Members that are taken in.

**Proof sketch.** Induction on the members. One of them is taken in when its key is a field and none
of those before it had that key; what has been taken in so far is carried along, so that for the
rest these are the keys that are used up. -/
lemma foldlM_visit_eq_ok : members.foldlM (visit fields) given = .ok out ↔
    (∀ m ∈ members, m.1 ∈ fields) ∧ (members.map Prod.fst).Nodup ∧
      (∀ m ∈ members, m.1 ∉ given.map Prod.fst) ∧ out = given ++ members := by
  induction members generalizing given with
  | nil => simp [pure, Except.pure, eq_comm]
  | cons m members ih =>
    rw [foldlM_cons_eq_ok]
    have hvisit (mid : List (String × V)) : visit fields given m = .ok mid ↔
        m.1 ∈ fields ∧ m.1 ∉ given.map Prod.fst ∧ mid = given ++ [m] := by
      rw [visit, ← lookup_eq_none_iff]
      by_cases hknown : m.1 ∈ fields
      swap
      · simp [hknown]
      rw [if_neg (not_not.mpr hknown)]
      cases hseen : given.lookup m.1 with
      | none => simp [hknown, eq_comm]
      | some v => simp
    constructor
    · rintro ⟨mid, hmid, hrest⟩
      obtain ⟨hknown, hnew, rfl⟩ := (hvisit mid).mp hmid
      obtain ⟨hfields, hnodup, hnew', rfl⟩ := ih.mp hrest
      refine ⟨List.forall_mem_cons.mpr ⟨hknown, hfields⟩, ?_,
        List.forall_mem_cons.mpr ⟨hnew, fun x hx hmem => hnew' x hx ?_⟩,
        List.append_assoc given [m] members⟩
      · rw [List.map_cons, List.nodup_cons]
        refine ⟨fun hmem => ?_, hnodup⟩
        obtain ⟨x, hx, heq⟩ := List.mem_map.mp hmem
        refine hnew' x hx ?_
        rw [List.map_append, heq]
        exact List.mem_append_right _ List.mem_cons_self
      · rw [List.map_append]
        exact List.mem_append_left _ hmem
    · rintro ⟨hfields, hnodup, hnew, rfl⟩
      rw [List.map_cons, List.nodup_cons] at hnodup
      refine ⟨given ++ [m], (hvisit _).mpr ⟨hfields m List.mem_cons_self,
        hnew m List.mem_cons_self, rfl⟩, ih.mpr ⟨fun x hx => hfields x (List.mem_cons_of_mem _ hx),
        hnodup.2, fun x hx hmem => ?_, (List.append_assoc given [m] members).symm⟩⟩
      rw [List.map_append, List.mem_append] at hmem
      rcases hmem with hmem | hmem
      · exact hnew x (List.mem_cons_of_mem _ hx) hmem
      · rw [List.map_cons, List.map_nil, List.mem_singleton] at hmem
        exact hnodup.1 (hmem ▸ List.mem_map_of_mem (f := Prod.fst) hx)

/-- **Which objects are records**: those whose keys are fields, and different. They are taken as
they are. -/
lemma collect_eq_ok : collect fields members = .ok out ↔
    (∀ m ∈ members, m.1 ∈ fields) ∧ (members.map Prod.fst).Nodup ∧ out = members := by
  rw [collect, foldlM_visit_eq_ok]
  simp

/-- **What is written field by field** is a record. -/
lemma collect_of_sublist (h : (members.map Prod.fst).Sublist fields) (hnodup : fields.Nodup) :
    collect fields members = .ok members :=
  collect_eq_ok.mpr ⟨fun _ hm => h.subset (List.mem_map_of_mem hm), hnodup.sublist h, rfl⟩

end Collect

section Map

variable {members map : List (String × V)} {m : String × V}

/-- A key beyond those of a map goes to its end. -/
lemma insert_of_lt (h : ∀ m' ∈ map, m'.1 < m.1) : insert m map = map ++ [m] := by
  induction map with
  | nil => rfl
  | cons m' map ih =>
    have hlt := h m' List.mem_cons_self
    rw [insert, if_neg (lt_asymm hlt), if_neg hlt.ne',
      ih fun x hx => h x (List.mem_cons_of_mem _ hx), List.cons_append]

/-- Keys in order are put one after the other. -/
lemma foldl_insert_of_pairwise (hsorted : (map ++ members).Pairwise fun a b => a.1 < b.1) :
    members.foldl (fun map m => insert m map) map = map ++ members := by
  induction members generalizing map with
  | nil => simp
  | cons m members ih =>
    have hlast : ∀ m' ∈ map, m'.1 < m.1 := fun m' hm' =>
      (List.pairwise_append.mp hsorted).2.2 m' hm' m List.mem_cons_self
    rw [List.foldl_cons, insert_of_lt hlast, ih, List.append_assoc]
    · rfl
    · rwa [List.append_assoc]

/-- **A map is its own**: keys in order, each once. -/
lemma toMap_of_pairwise (hsorted : members.Pairwise fun a b => a.1 < b.1) :
    toMap members = members := foldl_insert_of_pairwise hsorted

/-- What a map with another value has comes from the map or is the value. -/
lemma mem_insert {x : String × V} (h : x ∈ insert m map) : x = m ∨ x ∈ map := by
  induction map with
  | nil => exact .inl (List.mem_singleton.mp h)
  | cons m' map ih =>
    rw [insert] at h
    split_ifs at h
    · exact List.mem_cons.mp h
    · rcases List.mem_cons.mp h with rfl | h
      · exact .inl rfl
      · exact .inr (List.mem_cons_of_mem _ h)
    · rcases List.mem_cons.mp h with rfl | h
      · exact .inr List.mem_cons_self
      · exact (ih h).imp id (List.mem_cons_of_mem _)

/-- A map with another value has its keys in order. -/
lemma pairwise_insert (h : map.Pairwise fun a b => a.1 < b.1) :
    (insert m map).Pairwise fun a b => a.1 < b.1 := by
  induction map with
  | nil => exact List.pairwise_singleton _ _
  | cons m' map ih =>
    obtain ⟨hfirst, hrest⟩ := List.pairwise_cons.mp h
    rw [insert]
    split_ifs with hlt heq
    · refine List.pairwise_cons.mpr ⟨fun x hx => ?_, h⟩
      rcases List.mem_cons.mp hx with rfl | hx
      · exact hlt
      · exact hlt.trans (hfirst x hx)
    · exact List.pairwise_cons.mpr ⟨fun x hx => heq ▸ hfirst x hx, hrest⟩
    · refine List.pairwise_cons.mpr ⟨fun x hx => ?_, ih hrest⟩
      rcases mem_insert hx with rfl | hx
      · exact lt_of_le_of_ne (not_lt.mp hlt) fun h => heq h.symm
      · exact hfirst x hx

/-- **A map has its keys in order**, each once, and nothing but members of the object. -/
lemma toMap_spec (members : List (String × V)) :
    (toMap members).Pairwise (fun a b => a.1 < b.1) ∧ ∀ x ∈ toMap members, x ∈ members := by
  have hfold (map : List (String × V)) (hmap : map.Pairwise fun a b => a.1 < b.1) :
      (members.foldl (fun map m => insert m map) map).Pairwise (fun a b => a.1 < b.1) ∧
        ∀ x ∈ members.foldl (fun map m => insert m map) map, x ∈ map ∨ x ∈ members := by
    induction members generalizing map with
    | nil => exact ⟨hmap, fun x hx => .inl hx⟩
    | cons m members ih =>
      obtain ⟨hsorted, hmem⟩ := ih (insert m map) (pairwise_insert hmap)
      refine ⟨hsorted, fun x hx => ?_⟩
      rcases hmem x hx with hx | hx
      · rcases mem_insert hx with rfl | hx
        · exact .inr List.mem_cons_self
        · exact .inl hx
      · exact .inr (List.mem_cons_of_mem _ hx)
  obtain ⟨hsorted, hmem⟩ := hfold [] List.Pairwise.nil
  exact ⟨hsorted, fun x hx => (hmem x hx).resolve_left (List.not_mem_nil)⟩

/-- A new key is put among those of a map. -/
lemma insert_perm (h : m.1 ∉ map.map Prod.fst) : (insert m map).Perm (m :: map) := by
  induction map with
  | nil => exact .refl _
  | cons m' map ih =>
    rw [List.map_cons, List.mem_cons, not_or] at h
    rw [insert]
    split_ifs with hlt heq
    · exact .refl _
    · exact absurd heq h.1
    · exact ((ih h.2).cons m').trans (.swap m m' map)

/-- Different keys are put among those of a map. -/
lemma foldl_insert_perm (hnodup : ((map ++ members).map Prod.fst).Nodup) :
    (members.foldl (fun map m => insert m map) map).Perm (map ++ members) := by
  induction members generalizing map with
  | nil => simp
  | cons m members ih =>
    have hswap : (map ++ m :: members).Perm (m :: map ++ members) := List.perm_middle
    have hkeys := (hswap.map Prod.fst).nodup_iff.mp hnodup
    rw [List.cons_append, List.map_cons, List.nodup_cons, List.map_append, List.mem_append,
      not_or] at hkeys
    have hall := ((insert_perm hkeys.1.1).append_right members).trans hswap.symm
    exact (ih ((hall.map Prod.fst).nodup_iff.mpr hnodup)).trans hall

/-- **A map of different keys** is made of the members of the object. -/
lemma toMap_perm (hnodup : (members.map Prod.fst).Nodup) : (toMap members).Perm members :=
  foldl_insert_perm hnodup

end Map

end Sumer.Record
