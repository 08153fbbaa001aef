import Mathlib.Data.List.AList
import Sumer.Lib.Latest
import Sumer.Wire.Observation

set_option relaxedAutoImplicit false
set_option autoImplicit false

/-!
# Revision assignment and the live-set fold

The fold (`core/host/src/fold.rs`): observations in arrival order become one chain per
`(adapter_id, local_id)`. A revision is the place of an observation in the arrival order of its
chain; the chain itself is sorted by `(received_at, surface, arrival)`, and its last entry is its
head.

## Main definitions

* `Sumer.Host.Fold`, `Sumer.Host.Fold.ingest`: the fold and its one operation.
* `Sumer.Host.replay`: the fold of a list of observations.
* `Sumer.Host.revisions`: the observations of one chain in arrival order, with their revisions.

## Main results

* `Sumer.Host.ingest_replay`: the revision an ingested observation gets.
* `Sumer.Host.chain_replay`: a chain is its entries in arrival order, sorted.
* `Sumer.Host.head_replay`: the head of a chain is its latest observation.
* `Sumer.Host.highestRevision_replay`: the highest revision is the length of the chain.
-/

namespace Sumer.Host

open Sumer.Wire

/-- One observation with the revision it was given at arrival. -/
structure RevisionedObservation where
  revision : ℕ
  observation : Observation

/-- An entry of a chain. -/
structure Entry where
  arrivalIndex : ℕ
  revisioned : RevisionedObservation

/-- The key of the chain an observation belongs to. -/
def chainKey (o : Observation) : String × String := (o.provenance.adapterId, o.localId)

/-- The place of an entry in the total order of its chain. -/
def Entry.key (e : Entry) : String ×ₗ String ×ₗ ℕ :=
  foldOrderKey e.revisioned.observation.provenance.receivedAt e.revisioned.observation.surface
    e.arrivalIndex

/-- Comparison of two entries of a chain. -/
def Entry.le (a b : Entry) : Prop := a.key ≤ b.key

/-- Which of two entries comes first is decided by their keys. -/
instance : DecidableRel Entry.le := fun a b => inferInstanceAs (Decidable (a.key ≤ b.key))

/-- Per-chain history, and how many observations have arrived. -/
structure Fold where
  chains : AList fun _ : String × String => List Entry
  arrivalCounter : ℕ

/-- `Fold::new`: nothing has arrived. -/
def Fold.new : Fold := ⟨∅, 0⟩

/-- The entries of one chain, in its total order. -/
def Fold.entries (f : Fold) (key : String × String) : List Entry :=
  (f.chains.lookup key).getD []

/-- Ingests one observation and returns the revision assigned to it: one more than the length of
its chain. -/
def Fold.ingest (f : Fold) (observation : Observation) : Fold × ℕ :=
  let key := chainKey observation
  let chain := f.entries key
  let revision := chain.length + 1
  let pushed := chain ++ [⟨f.arrivalCounter, ⟨revision, observation⟩⟩]
  (⟨f.chains.insert key (pushed.insertionSort Entry.le), f.arrivalCounter + 1⟩, revision)

/-- The ordered observation chain of one `(adapter_id, local_id)`. -/
def Fold.chain (f : Fold) (adapterId localId : String) : List RevisionedObservation :=
  (f.entries (adapterId, localId)).map Entry.revisioned

/-- The highest revision in one chain. -/
def Fold.highestRevision (f : Fold) (adapterId localId : String) : Option ℕ :=
  ((f.entries (adapterId, localId)).map fun e => e.revisioned.revision).max?

/-- The live set: the head of every chain whose head is active. -/
def Fold.liveSet (f : Fold) : List ((String × String) × RevisionedObservation) :=
  f.chains.entries.filterMap fun ⟨key, entries⟩ =>
    match entries.getLast? with
    | some latest =>
      if latest.revisioned.observation.state = .active then some (key, latest.revisioned) else none
    | none => none

/-- The fold of a list of observations in arrival order. -/
def replay (observations : List Observation) : Fold :=
  observations.foldl (fun f o => (f.ingest o).1) Fold.new

/-- The entries of one chain in arrival order: its observations with their places among all
arrivals and among the arrivals of the chain. -/
def arrivals (observations : List Observation) (key : String × String) : List Entry :=
  ((observations.zipIdx.filter fun p => chainKey p.1 = key).zipIdx 1).map
    fun p => ⟨p.1.2, ⟨p.2, p.1.1⟩⟩

/-- The observations of one chain in arrival order, with their revisions. -/
def revisions (observations : List Observation) (key : String × String) :
    List RevisionedObservation :=
  ((observations.filter fun o => chainKey o = key).zipIdx 1).map fun p => ⟨p.2, p.1⟩

/-- Receipt time and surface: what orders a chain before arrival breaks ties. -/
def orderKey (o : Observation) : String ×ₗ String := toLex (o.provenance.receivedAt.text, o.surface)

section Order

/-- The total order of a chain is that of `orderKey`, with ties broken by arrival. -/
lemma Entry.le_iff (a b : Entry) :
    a.le b ↔ orderKey a.revisioned.observation < orderKey b.revisioned.observation ∨
      (orderKey a.revisioned.observation = orderKey b.revisioned.observation ∧
        a.arrivalIndex ≤ b.arrivalIndex) := by
  simp only [Entry.le, Entry.key, foldOrderKey, orderKey, Prod.Lex.toLex_le_toLex,
    Prod.Lex.toLex_lt_toLex, toLex_inj, Prod.mk.injEq]
  tauto

/-- Of two entries one comes first: their keys are in a linear order. -/
instance : Std.Total Entry.le := ⟨fun a b => le_total a.key b.key⟩

/-- An entry before another one is before whatever comes after that. -/
instance : IsTrans Entry Entry.le := ⟨fun _ _ _ hab hbc => @le_trans (_ ×ₗ _) _ _ _ _ hab hbc⟩

/-- Entries that compare equal arrived at the same place. -/
lemma Entry.arrivalIndex_eq {a b : Entry} (hab : a.le b) (hba : b.le a) :
    a.arrivalIndex = b.arrivalIndex := by
  rcases (Entry.le_iff a b).mp hab with h | ⟨h, hle⟩
  · rcases (Entry.le_iff b a).mp hba with h' | ⟨h', -⟩
    · exact absurd (h.trans h') (lt_irrefl _)
    · exact absurd h (h' ▸ lt_irrefl _)
  · rcases (Entry.le_iff b a).mp hba with h' | ⟨-, hge⟩
    · exact absurd h' (h ▸ lt_irrefl _)
    · omega

end Order

section LiveSet

variable (f : Fold)

/-- The live set holds the active heads, and nothing else.

**Proof sketch.** A key has one group of entries, and the head of its chain is the last of them. The
live set goes through the groups and keeps the last entry of each when it is active. -/
lemma Fold.mem_liveSet (key : String × String) (h : RevisionedObservation) :
    (key, h) ∈ f.liveSet ↔
      (f.chain key.1 key.2).getLast? = some h ∧ h.observation.state = .active := by
  have hlookup : (∃ entries : List Entry, (⟨key, entries⟩ : Sigma _) ∈ f.chains.entries ∧
      entries.getLast?.map Entry.revisioned = some h) ↔
        (f.chain key.1 key.2).getLast? = some h := by
    rw [Fold.chain, List.getLast?_map, Fold.entries]
    cases hk : f.chains.lookup (key.1, key.2) with
    | none =>
      refine iff_of_false ?_ (by simp)
      rintro ⟨entries, hmem, -⟩
      exact AList.lookup_eq_none.mp hk (AList.mem_keys.mpr (List.mem_keys.mpr ⟨entries, hmem⟩))
    | some entries =>
      constructor
      · rintro ⟨entries', hmem, hlast⟩
        obtain rfl : entries = entries' :=
          Option.some.inj (hk.symm.trans (AList.mem_lookup_iff.mpr hmem))
        exact hlast
      · intro hlast
        exact ⟨entries, AList.mem_lookup_iff.mp hk, hlast⟩
  rw [← hlookup]
  simp only [Fold.liveSet, List.mem_filterMap, Sigma.exists]
  constructor
  · rintro ⟨key', entries, hmem, heq⟩
    cases hlast : entries.getLast? with
    | none => simp [hlast] at heq
    | some latest =>
      simp only [hlast, Option.ite_none_right_eq_some, Option.some.injEq, Prod.mk.injEq] at heq
      obtain ⟨hactive, rfl, rfl⟩ := heq
      exact ⟨⟨entries, hmem, by simp [hlast]⟩, hactive⟩
  · rintro ⟨⟨entries, hmem, hlast⟩, hactive⟩
    obtain ⟨latest, hlatest, rfl⟩ := Option.map_eq_some_iff.mp hlast
    exact ⟨key, entries, hmem, by simp [hlatest, hactive]⟩

/-- No key is live twice, since a key has one group of entries and one head. -/
lemma Fold.nodup_liveSet : (f.liveSet.map Prod.fst).Nodup := by
  refine List.Nodup.sublist ?_ f.chains.keys_nodup
  rw [Fold.liveSet, AList.keys, List.keys]
  induction f.chains.entries with
  | nil => simp
  | cons s entries ih =>
    obtain ⟨key, chain⟩ := s
    rw [List.filterMap_cons, List.map_cons]
    cases hlast : chain.getLast? with
    | none => simpa only [hlast] using ih.cons key
    | some latest =>
      by_cases hactive : latest.revisioned.observation.state = .active
      · simpa only [hlast, if_pos hactive, List.map_cons] using ih.cons_cons key
      · simpa only [hlast, if_neg hactive] using ih.cons key

end LiveSet

section Arrivals

variable (observations : List Observation) (key : String × String)

/-- No observation has arrived of a key in an empty sequence. -/
@[simp]
lemma arrivals_nil : arrivals [] key = [] := rfl

/-- One more arrival adds one entry to its own chain and none to the others. -/
lemma arrivals_concat (o : Observation) :
    arrivals (observations ++ [o]) key =
      if chainKey o = key then
        arrivals observations key ++
          [⟨observations.length, ⟨(arrivals observations key).length + 1, o⟩⟩]
      else arrivals observations key := by
  split_ifs with h
  · simp [arrivals, List.zipIdx_append, h, Nat.add_comm]
  · simp [arrivals, List.zipIdx_append, h]

/-- The arrivals of a chain without their global places. -/
lemma map_revisioned_arrivals :
    (arrivals observations key).map Entry.revisioned = revisions observations key := by
  induction observations using List.reverseRecOn with
  | nil => rfl
  | append_singleton observations o ih =>
    have hlen : (arrivals observations key).length =
        (observations.filter fun o => chainKey o = key).length := by
      simpa [revisions] using congrArg List.length ih
    rw [arrivals_concat]
    split_ifs with h
    · simp [revisions, List.zipIdx_append, h, hlen, ih, Nat.add_comm]
    · simp [revisions, h, ih]

/-- A key has as many revisions as there are observations of it: none of them is merged into
another. -/
@[simp]
lemma length_revisions : (revisions observations key).length =
    (observations.filter fun o => chainKey o = key).length := by
  simp [revisions]

/-- Every entry of a chain arrived before now. -/
lemma arrivalIndex_lt {e : Entry} (he : e ∈ arrivals observations key) :
    e.arrivalIndex < observations.length := by
  induction observations using List.reverseRecOn with
  | nil => simp at he
  | append_singleton observations o ih =>
    rw [arrivals_concat] at he
    rw [List.length_append, List.length_singleton]
    split_ifs at he with h
    · rcases List.mem_append.mp he with he | he
      · exact (ih he).trans (Nat.lt_succ_self _)
      · rw [List.mem_singleton.mp he]
        exact Nat.lt_succ_self _
    · exact (ih he).trans (Nat.lt_succ_self _)

/-- The entries of a chain are listed in the order of their arrival. -/
lemma pairwise_arrivals :
    (arrivals observations key).Pairwise fun a b => a.arrivalIndex < b.arrivalIndex := by
  induction observations using List.reverseRecOn with
  | nil => exact List.Pairwise.nil
  | append_singleton observations o ih =>
    rw [arrivals_concat]
    split_ifs with h
    · refine List.pairwise_append.mpr ⟨ih, List.pairwise_singleton _ _, ?_⟩
      intro a ha b hb
      rw [List.mem_singleton.mp hb]
      exact arrivalIndex_lt observations key ha
    · exact ih

/-- Two entries of a chain that compare equal are one entry. -/
lemma arrivals_antisymm {a b : Entry} (ha : a ∈ arrivals observations key)
    (hb : b ∈ arrivals observations key) (hab : a.le b) (hba : b.le a) : a = b := by
  by_contra hne
  have heq := Entry.arrivalIndex_eq hab hba
  have hpair : (arrivals observations key).Pairwise fun a b => a.arrivalIndex ≠ b.arrivalIndex :=
    (pairwise_arrivals observations key).imp fun h => h.ne
  have : Std.Symm fun a b : Entry => a.arrivalIndex ≠ b.arrivalIndex := ⟨fun _ _ h => h.symm⟩
  exact hpair.forall ha hb hne heq

end Arrivals

section Replay

variable (observations : List Observation)

/-- Replaying one more observation is ingesting it. -/
lemma replay_concat (o : Observation) :
    replay (observations ++ [o]) = ((replay observations).ingest o).1 := by
  simp [replay, List.foldl_append]

/-- The counter of arrivals counts every observation that was ingested, whatever its key. -/
@[simp]
lemma arrivalCounter_replay : (replay observations).arrivalCounter = observations.length := by
  induction observations using List.reverseRecOn with
  | nil => rfl
  | append_singleton observations o ih => simp [replay_concat, Fold.ingest, ih]

/-- What ingesting does to the entries of every chain. -/
lemma Fold.entries_ingest (f : Fold) (o : Observation) (key : String × String) :
    (f.ingest o).1.entries key =
      if chainKey o = key then
        List.insertionSort Entry.le
          (f.entries key ++ [⟨f.arrivalCounter, ⟨(f.entries key).length + 1, o⟩⟩])
      else f.entries key := by
  split_ifs with h
  · subst h
    simp [Fold.ingest, Fold.entries]
  · simp only [Fold.ingest, Fold.entries]
    rw [AList.lookup_insert_ne (Ne.symm h)]

/-- **A chain is its entries in arrival order, sorted.**

**Proof sketch.** Induction over the arrivals. Sorting after every arrival or once at the end is
the same, since no two entries of a chain compare equal. -/
lemma chain_replay (key : String × String) :
    (replay observations).entries key = (arrivals observations key).insertionSort Entry.le := by
  induction observations using List.reverseRecOn with
  | nil => rfl
  | append_singleton observations o ih =>
    have hanti := @arrivals_antisymm (observations ++ [o]) key
    rw [replay_concat, Fold.entries_ingest, ih, arrivalCounter_replay,
      List.length_insertionSort]
    rw [arrivals_concat] at hanti ⊢
    split_ifs at hanti ⊢ with h
    · refine (insertionSort_eq_of_perm ?_ fun a b ha hb => hanti ha hb).symm
      exact (List.perm_insertionSort Entry.le _).symm.append_right _
    · rfl

/-- The entries of a chain, up to order, are its revisions. -/
lemma chain_perm_revisions (adapterId localId : String) :
    ((replay observations).chain adapterId localId).Perm
      (revisions observations (adapterId, localId)) := by
  rw [Fold.chain, chain_replay, ← map_revisioned_arrivals]
  exact (List.perm_insertionSort _ _).map _

/-- The revision of an ingested observation is one more than the arrivals of its chain. -/
lemma ingest_replay (o : Observation) :
    ((replay observations).ingest o).2 = (revisions observations (chainKey o)).length + 1 := by
  simp [Fold.ingest, chain_replay, ← map_revisioned_arrivals]

/-- **The head of a chain is its latest observation** by receipt time and surface. -/
lemma head_replay (adapterId localId : String) :
    ((replay observations).chain adapterId localId).getLast? =
      latest (fun h => orderKey h.observation) (revisions observations (adapterId, localId)) := by
  have hlast : ((replay observations).entries (adapterId, localId)).getLast? =
      latest (fun e => orderKey e.revisioned.observation)
        (arrivals observations (adapterId, localId)) := by
    rw [chain_replay]
    refine getLast?_eq_latest _ Entry.le (List.perm_insertionSort _ _)
      (List.pairwise_insertionSort _ _) (fun a => le_refl a.key)
      (fun a b => arrivals_antisymm observations _) ?_ ?_
    · intro a b h
      exact (Entry.le_iff a b).mpr (Or.inl h)
    · refine (pairwise_arrivals observations _).imp ?_
      intro a b hidx hkey
      exact (Entry.le_iff a b).mpr (Or.inr ⟨hkey, hidx.le⟩)
  rw [Fold.chain, List.getLast?_map, hlast, ← map_revisioned_arrivals]
  exact (latest_map (fun e : Entry => orderKey e.revisioned.observation) _ Entry.revisioned
    (fun _ => rfl) _).symm

/-- The revisions of a chain are `1, 2, …, n` in arrival order. -/
lemma map_revision_revisions (key : String × String) :
    (revisions observations key).map RevisionedObservation.revision =
      List.range' 1 (revisions observations key).length := by
  have hsnd : RevisionedObservation.revision ∘
      (fun p : Observation × ℕ => (⟨p.2, p.1⟩ : RevisionedObservation)) = Prod.snd := rfl
  rw [length_revisions, revisions, List.map_map, hsnd, List.zipIdx_map_snd]

/-- **The highest revision of a chain is its length**, and an empty chain has none.

**Proof sketch.** The revisions of a chain are, in some order, the numbers from one to its length,
and the greatest of them is the length. -/
lemma highestRevision_replay (adapterId localId : String) :
    (replay observations).highestRevision adapterId localId =
      if (revisions observations (adapterId, localId)).length = 0 then none
      else some (revisions observations (adapterId, localId)).length := by
  have hperm : (((replay observations).entries (adapterId, localId)).map
      fun e => e.revisioned.revision).Perm
        (List.range' 1 (revisions observations (adapterId, localId)).length) := by
    rw [← map_revision_revisions]
    simpa [Fold.chain, Function.comp_def] using
      (chain_perm_revisions observations adapterId localId).map RevisionedObservation.revision
  rw [Fold.highestRevision]
  split_ifs with h
  · rw [h] at hperm
    simp [List.perm_nil.mp hperm]
  · rw [List.max?_eq_some_iff]
    constructor
    · rw [hperm.mem_iff, List.mem_range'_1]
      omega
    · intro b hb
      rw [hperm.mem_iff, List.mem_range'_1] at hb
      omega

end Replay

end Sumer.Host
