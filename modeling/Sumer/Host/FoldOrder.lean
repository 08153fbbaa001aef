import Sumer.Lib.StableSort
import Sumer.Host.Fold

set_option relaxedAutoImplicit false
set_option autoImplicit false

/-!
# The fold under other arrival orders

The total order of a chain mixes a receipt time, a surface and a counter that all chains share
(`core/host/src/fold.rs`). The counter only breaks ties, so that a chain is its observations sorted
stably by receipt time and surface: other chains do not show in it, and of the arrival order only
the order of observations that tie does.

## Main results

* `Sumer.Host.chain_eq_sortBy`: a chain is its revisions, sorted stably.
* `Sumer.Host.fold_order_robust`: the fold isolates keys and is robust to the order of arrival.
-/

namespace Sumer.Host

open Sumer.Wire StableSort

variable (observations : List Observation)

/-- **A chain is its revisions, sorted stably** by receipt time and surface. -/
lemma chain_eq_sortBy (adapterId localId : String) :
    (replay observations).chain adapterId localId =
      sortBy (fun h => orderKey h.observation) (revisions observations (adapterId, localId)) := by
  rw [Fold.chain, chain_replay, ← map_revisioned_arrivals]
  refine map_insertionSort Entry.revisioned ((pairwise_arrivals observations _).imp ?_)
  intro a b hlt
  rw [Entry.le_iff]
  show _ ↔ orderKey _ ≤ orderKey _
  rw [le_iff_lt_or_eq (a := orderKey _)]
  exact or_congr_right ⟨And.left, fun heq => ⟨heq, hlt.le⟩⟩

/-- The observations of a chain, sorted stably by receipt time and surface. -/
lemma map_observation_chain (adapterId localId : String) :
    ((replay observations).chain adapterId localId).map RevisionedObservation.observation =
      sortBy orderKey (observations.filter fun o => chainKey o = (adapterId, localId)) := by
  have hrevisions : (revisions observations (adapterId, localId)).map
      RevisionedObservation.observation =
        observations.filter fun o => chainKey o = (adapterId, localId) := by
    rw [revisions, List.map_map]
    exact List.zipIdx_map_fst 1 _
  rw [chain_eq_sortBy, ← hrevisions]
  exact map_insertionSort RevisionedObservation.observation
    (List.pairwise_of_forall fun _ _ => Iff.rfl)

/-- The revisions of a chain read nothing but the observations of its key. -/
lemma revisions_congr {observations others : List Observation} {key : String × String}
    (h : (observations.filter fun o => chainKey o = key) =
      others.filter fun o => chainKey o = key) :
    revisions observations key = revisions others key := by
  rw [revisions, revisions, h]

/-- No two entries of a chain tie: the chain is in strictly increasing order. -/
lemma pairwise_entries (key : String × String) :
    ((replay observations).entries key).Pairwise fun a b => a.key < b.key := by
  have hne : ((replay observations).entries key).Pairwise
      fun a b => a.arrivalIndex ≠ b.arrivalIndex := by
    rw [chain_replay]
    refine ((List.perm_insertionSort _ _).pairwise_iff fun h => Ne.symm h).mpr ?_
    exact (pairwise_arrivals observations key).imp fun hlt => hlt.ne
  have hle : ((replay observations).entries key).Pairwise Entry.le := by
    rw [chain_replay]
    exact List.pairwise_insertionSort _ _
  refine (hle.and hne).imp fun {a b} h => lt_of_le_of_ne h.1 fun heq => h.2 ?_
  exact Entry.arrivalIndex_eq h.1 (le_of_eq heq.symm)

/-- What is live under a key, by the chain of that key. -/
lemma mem_liveSet_congr {observations others : List Observation} {adapterId localId : String}
    (h : (replay observations).chain adapterId localId = (replay others).chain adapterId localId)
    (head : RevisionedObservation) :
    ((adapterId, localId), head) ∈ (replay observations).liveSet ↔
      ((adapterId, localId), head) ∈ (replay others).liveSet := by
  rw [Fold.mem_liveSet, Fold.mem_liveSet, h]

/-- The observation that is live under a key, by the observations of the chain of that key. -/
lemma exists_live_iff (key : String × String) (o : Observation) :
    (∃ head, (key, head) ∈ (replay observations).liveSet ∧ head.observation = o) ↔
      (((replay observations).chain key.1 key.2).map
        RevisionedObservation.observation).getLast? = some o ∧ o.state = .active := by
  simp only [Fold.mem_liveSet, List.getLast?_map, Option.map_eq_some_iff]
  constructor
  · rintro ⟨head, ⟨hlast, hactive⟩, rfl⟩
    exact ⟨⟨head, hlast, rfl⟩, hactive⟩
  · rintro ⟨⟨head, hlast, rfl⟩, hactive⟩
    exact ⟨head, ⟨hlast, hactive⟩, rfl⟩

/-- **The fold isolates keys and is robust to the order of arrival.** The chain, the revisions, the
head and the live entry of a key read nothing but the observations of that key. The chain is in
strictly increasing order of receipt time, surface and arrival, has every arrival of its key exactly
once, and its revisions are those of the arrivals, from one on. Two arrival orders that agree, for
each key, receipt time and surface, on the observations with them in order give the same
observations in every chain and the same live observations.

**Proof sketch.** A chain is the arrivals of its key, numbered as they came and sorted by receipt
time, surface and number (`chain_replay`), so it reads nothing else. It is sorted strictly because
the numbers differ, it has the same elements as the arrivals because sorting permutes, and the
revisions are the numbers from one on. Two orders of arrival that agree on the records of each key,
time and surface sort to the same list of observations, and liveness is a matter of the last of
them. -/
theorem fold_order_robust (adapterId localId : String) :
    (∀ others : List Observation,
        (observations.filter fun o => chainKey o = (adapterId, localId)) =
          (others.filter fun o => chainKey o = (adapterId, localId)) →
        (replay observations).chain adapterId localId = (replay others).chain adapterId localId ∧
          (replay observations).highestRevision adapterId localId =
            (replay others).highestRevision adapterId localId ∧
          ∀ head, ((adapterId, localId), head) ∈ (replay observations).liveSet ↔
            ((adapterId, localId), head) ∈ (replay others).liveSet) ∧
      ((replay observations).entries (adapterId, localId)).Pairwise (fun a b => a.key < b.key) ∧
      ((replay observations).entries (adapterId, localId)).Perm
        (arrivals observations (adapterId, localId)) ∧
      (((replay observations).chain adapterId localId).map
        RevisionedObservation.observation).Perm
          (observations.filter fun o => chainKey o = (adapterId, localId)) ∧
      (((replay observations).chain adapterId localId).map RevisionedObservation.revision).Perm
        (List.range' 1 (observations.filter fun o => chainKey o = (adapterId, localId)).length) ∧
      (replay observations).highestRevision adapterId localId =
        (if (observations.filter fun o => chainKey o = (adapterId, localId)).length = 0 then none
        else some (observations.filter fun o => chainKey o = (adapterId, localId)).length) ∧
      ∀ others : List Observation, others.Perm observations →
        (∀ key order, (observations.filter fun o => chainKey o = key ∧ orderKey o = order) =
          others.filter fun o => chainKey o = key ∧ orderKey o = order) →
        (∀ key : String × String,
          ((replay observations).chain key.1 key.2).map RevisionedObservation.observation =
            ((replay others).chain key.1 key.2).map RevisionedObservation.observation) ∧
          ∀ key o, (∃ head, (key, head) ∈ (replay observations).liveSet ∧ head.observation = o) ↔
            ∃ head, (key, head) ∈ (replay others).liveSet ∧ head.observation = o := by
  refine ⟨fun others h => ?_, pairwise_entries observations _, ?_, ?_, ?_, ?_,
    fun others _ hties => ?_⟩
  · have hchain : (replay observations).chain adapterId localId =
        (replay others).chain adapterId localId := by
      rw [chain_eq_sortBy, chain_eq_sortBy, revisions_congr h]
    refine ⟨hchain, ?_, mem_liveSet_congr hchain⟩
    rw [highestRevision_replay, highestRevision_replay, revisions_congr h]
  · rw [chain_replay]
    exact List.perm_insertionSort _ _
  · rw [map_observation_chain]
    exact perm_sortBy _ _
  · rw [← length_revisions, ← map_revision_revisions]
    exact (chain_perm_revisions observations adapterId localId).map _
  · rw [highestRevision_replay, length_revisions]
  · have hsame (key : String × String) :
        ((replay observations).chain key.1 key.2).map RevisionedObservation.observation =
          ((replay others).chain key.1 key.2).map RevisionedObservation.observation := by
      rw [map_observation_chain, map_observation_chain]
      refine sortBy_eq_of_filter_eq fun order => ?_
      have htie := hties key order
      rw [List.filter_filter, List.filter_filter]
      simpa only [Bool.decide_and, Bool.and_comm] using htie
    refine ⟨hsame, fun key o => ?_⟩
    rw [exists_live_iff, exists_live_iff, hsame key]

end Sumer.Host
