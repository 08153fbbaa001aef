import Sumer.Host.Balances
import Sumer.Wire.Json

set_option relaxedAutoImplicit false
set_option autoImplicit false

/-!
# Reading history

What the host makes of a `history.read` reply (`core/host/src/lib.rs`): it is refused unless it
gives every requested resource exactly one status, and the observations under the connection's own
id are measured. Those of other adapters pass, whatever their size: the sweep refuses them.

## Main definitions

* `Sumer.Host.dropOwnOversized`: the measuring, as this call does it.
* `Sumer.Host.historyRead`: the call, from the decoded reply on.

## Main results

* `Sumer.Host.dropOwnOversized_eq`: what is kept and what each status notes.
-/

namespace Sumer.Host

open Sumer.Wire

/-- The history op. -/
def OP_HISTORY_READ : String := "history.read"

/-- A decoded `history.read` reply. -/
structure HistoryReply where
  observations : List ObservationWire
  statuses : List ResourceStatus

/-- Drops the adapter's own observations that are too large, each noted by its local id. -/
def dropOwnOversized (own : String) (observations : List ObservationWire)
    (statuses : List ResourceStatus) : List ObservationWire × List ResourceStatus :=
  dropOversized ObservationWire.bytes (fun o => o.provenance.adapterId == own)
    (fun o => (o.resourceId, some o.localId)) observations statuses

/-- `history.read` over a connection that announced `helloAdapterId`, from the decoded reply
on. -/
def historyRead (texts : Texts) (helloAdapterId : String) (resourceIds : List String)
    (raw : HistoryReply) (receivedAt : Rfc3339) : Except HostError HistoryRead :=
  match checkStatusCoverage texts OP_HISTORY_READ resourceIds raw.statuses with
  | .error e => .error e
  | .ok () =>
    let staleness := stalenessByResource raw.statuses
    let (kept, statuses) := dropOwnOversized helloAdapterId raw.observations raw.statuses
    .ok ⟨kept.map fun wire =>
      Observation.stamp wire receivedAt (stalenessFor staleness wire.resourceId), statuses⟩

/-! ### What is dropped -/

section Dropped

variable {T : Type} (bytes : T → ℕ) (measure : T → Bool) (key : T → String × Option String)

/-- Whether a record is measured and too large. -/
def isOversized (o : T) : Bool := measure o && decide (MAX_OBSERVATION_BYTES < bytes o)

/-- The dropped records of one resource, as its status notes them. -/
def droppedOf (os : List T) (resourceId : String) : List Degraded :=
  (os.filter fun o => isOversized bytes measure o && (key o).1 == resourceId).map fun o =>
    ⟨(key o).2, bytes o⟩

/-- A status with more degraded records. -/
def withDegraded (more : String → List Degraded) (s : ResourceStatus) : ResourceStatus :=
  { s with degraded := s.degraded ++ more s.resourceId }

variable {bytes measure key}

/-- With one status a resource, noting a record is appending it to that resource's status. -/
lemma reportOversized_eq {statuses : List ResourceStatus}
    (hnodup : (statuses.map ResourceStatus.resourceId).Nodup) (resourceId : String)
    (d : Degraded) :
    reportOversized resourceId d statuses =
      statuses.map (withDegraded fun id => if resourceId = id then [d] else []) := by
  induction statuses with
  | nil => rfl
  | cons s rest ih =>
    rw [List.map_cons, List.nodup_cons] at hnodup
    rw [reportOversized, List.map_cons]
    by_cases hs : s.resourceId = resourceId
    · have hrest : ∀ t ∈ rest,
          withDegraded (fun id => if resourceId = id then [d] else []) t = t := by
        intro t ht
        have hne : resourceId ≠ t.resourceId := fun heq =>
          hnodup.1 (List.mem_map.mpr ⟨t, ht, heq.symm.trans hs.symm⟩)
        simp [withDegraded, hne]
      rw [if_pos (by simpa using hs), List.map_congr_left hrest, List.map_id']
      simp [withDegraded, hs]
    · rw [if_neg (by simpa using hs), ih hnodup.2]
      simp [withDegraded, Ne.symm hs]

/-- Noting dropped records in the statuses leaves the resources they are about. -/
lemma resourceId_map_withDegraded (more : String → List Degraded)
    (statuses : List ResourceStatus) :
    (statuses.map (withDegraded more)).map ResourceStatus.resourceId =
      statuses.map ResourceStatus.resourceId := by
  simp [withDegraded, Function.comp_def]

/-- **What dropping does**: the records that are not measured or fit stay, in order, and each
status is followed by the dropped records of its resource, in order.

**Proof sketch.** Induction on the records. One that is kept changes no status; one that is dropped
is noted with the status of its resource, of which there is one, and comes after what was noted
there before. -/
lemma dropOversized_eq (os : List T) {statuses : List ResourceStatus}
    (hnodup : (statuses.map ResourceStatus.resourceId).Nodup) :
    dropOversized bytes measure key os statuses =
      (os.filter fun o => !isOversized bytes measure o,
        statuses.map (withDegraded (droppedOf bytes measure key os))) := by
  induction os generalizing statuses with
  | nil =>
    have hid : withDegraded (droppedOf bytes measure key []) = id := by
      funext s
      simp [withDegraded, droppedOf]
    simp [dropOversized, hid]
  | cons o os ih =>
    rw [dropOversized]
    by_cases hkept : isOversized bytes measure o = true
    · have hpass : (!measure o || decide (bytes o ≤ MAX_OBSERVATION_BYTES)) = false := by
        simp only [isOversized, Bool.and_eq_true, decide_eq_true_eq] at hkept
        simp [hkept.1, hkept.2]
      rw [hpass, if_neg (by simp), reportOversized_eq hnodup,
        ih (by rwa [resourceId_map_withDegraded]), List.map_map]
      refine Prod.ext (by simp [hkept]) (List.map_congr_left fun s _ => ?_)
      by_cases hkey : (key o).1 = s.resourceId <;> simp [withDegraded, droppedOf, hkept, hkey]
    · have hpass : (!measure o || decide (bytes o ≤ MAX_OBSERVATION_BYTES)) = true := by
        simp only [isOversized, Bool.and_eq_true, decide_eq_true_eq, not_and, not_lt] at hkept
        by_cases hmeasure : measure o = true
        · simp [hkept hmeasure]
        · simp [hmeasure]
      rw [hpass, if_pos rfl, ih hnodup]
      refine Prod.ext (by simp [hkept]) (List.map_congr_left fun s _ => ?_)
      simp [withDegraded, droppedOf, hkept]

end Dropped

/-- Whether the host drops an observation of a connection. -/
def dropsOwn (own : String) : ObservationWire → Bool :=
  isOversized ObservationWire.bytes fun o => o.provenance.adapterId == own

/-- The dropped observations of one resource, as its status notes them. -/
def droppedOwn (own : String) : List ObservationWire → String → List Degraded :=
  droppedOf ObservationWire.bytes (fun o => o.provenance.adapterId == own)
    (fun o => (o.resourceId, some o.localId))

/-- Dropping what is oversized keeps the observations below the bound and degrades the status of
each resource that lost one, and no other status. -/
lemma dropOwnOversized_eq (own : String) (observations : List ObservationWire)
    {statuses : List ResourceStatus} (hnodup : (statuses.map ResourceStatus.resourceId).Nodup) :
    dropOwnOversized own observations statuses =
      (observations.filter fun o => !dropsOwn own o,
        statuses.map (withDegraded (droppedOwn own observations))) :=
  dropOversized_eq observations hnodup

/-- An observation is dropped when it is the adapter's own and takes more bytes than the bound. -/
lemma dropsOwn_iff {own : String} {o : ObservationWire} :
    dropsOwn own o = true ↔
      o.provenance.adapterId = own ∧ MAX_OBSERVATION_BYTES < o.bytes := by
  simp [dropsOwn, isOversized]

/-- **An accepted reply**: no resource has two statuses, every requested one has one, and both
parts are what is kept and noted. -/
lemma historyRead_eq_ok {texts : Texts} {own : String} {resourceIds : List String}
    {raw : HistoryReply} {receivedAt : Rfc3339} {read : HistoryRead} :
    historyRead texts own resourceIds raw receivedAt = .ok read ↔
      (raw.statuses.map ResourceStatus.resourceId).Nodup ∧
      (∀ id ∈ resourceIds, id ∈ raw.statuses.map ResourceStatus.resourceId) ∧
      read = ⟨(raw.observations.filter fun o => !dropsOwn own o).map fun wire =>
          Observation.stamp wire receivedAt
            (stalenessFor (stalenessByResource raw.statuses) wire.resourceId),
        raw.statuses.map (withDegraded (droppedOwn own raw.observations))⟩ := by
  unfold historyRead
  cases hcover : checkStatusCoverage texts OP_HISTORY_READ resourceIds raw.statuses with
  | error e =>
    have hnot : ¬checkStatusCoverage texts OP_HISTORY_READ resourceIds raw.statuses = .ok () := by
      simp [hcover]
    rw [checkStatusCoverage_eq_ok, not_and] at hnot
    simp only [reduceCtorEq, false_iff]
    exact fun h => hnot h.1 h.2.1
  | ok u =>
    obtain ⟨hnodup, hasked⟩ := checkStatusCoverage_eq_ok.mp hcover
    rw [dropOwnOversized_eq own _ hnodup]
    simp only [Except.ok.injEq]
    exact ⟨fun h => ⟨hnodup, hasked, h.symm⟩, fun h => h.2.2.symm⟩

end Sumer.Host
