import Sumer.Host.History
import Sumer.Store.Retraction

set_option relaxedAutoImplicit false
set_option autoImplicit false

/-!
# Oversized records and the gate

What the host drops for its size reaches the retraction gate through the statuses alone
(`core/host/src/lib.rs`, `core/store/src/sweep.rs`). A dropped record is exempt from the sweep's
retraction; nothing the host writes hides what the adapter itself reported, and an observation of
another adapter is never dropped.

## Main results

* `Sumer.Store.oversized_dropped`: what is dropped, what is noted, and what a sweep makes of it.
-/

namespace Sumer.Store

open Sumer.Wire Sumer.Host

section Oversized

variable {texts : Texts} {input : SweepInput} {resourceIds : List String} {raw : HistoryReply}
  {receivedAt : Rfc3339} {read : HistoryRead}

/-- The status of a resource in an accepted reply: the adapter's, with what was dropped. -/
lemma statusFor_historyRead
    (hread : historyRead texts input.adapterId resourceIds raw receivedAt = .ok read)
    {s : ResourceStatus} (hs : s ∈ raw.statuses) (hid : s.resourceId = input.resourceId) :
    statusFor input read = some (withDegraded (droppedOwn input.adapterId raw.observations) s) := by
  obtain ⟨hnodup, -, rfl⟩ := historyRead_eq_ok.mp hread
  have hmem : withDegraded (droppedOwn input.adapterId raw.observations) s ∈
      raw.statuses.map (withDegraded (droppedOwn input.adapterId raw.observations)) :=
    List.mem_map_of_mem hs
  cases hfind : (raw.statuses.map
      (withDegraded (droppedOwn input.adapterId raw.observations))).find?
        (·.resourceId == input.resourceId) with
  | none => exact absurd (List.find?_eq_none.mp hfind _ hmem) (by simp [withDegraded, hid])
  | some t =>
    have ht : t.resourceId = input.resourceId := by simpa using List.find?_some hfind
    have heq : t = withDegraded (droppedOwn input.adapterId raw.observations) s := by
      refine List.inj_on_of_nodup_map ?_ (List.mem_of_find?_eq_some hfind) hmem
        (ht.trans hid.symm)
      rwa [resourceId_map_withDegraded]
    rw [statusFor, hfind, heq]

/-- A status found in an accepted reply is the adapter's, with what was dropped. -/
lemma exists_of_statusFor
    (hread : historyRead texts input.adapterId resourceIds raw receivedAt = .ok read)
    {status : ResourceStatus} (hstatus : statusFor input read = some status) :
    ∃ s ∈ raw.statuses, s.resourceId = input.resourceId ∧
      status = withDegraded (droppedOwn input.adapterId raw.observations) s := by
  obtain ⟨-, -, rfl⟩ := historyRead_eq_ok.mp hread
  obtain ⟨s, hs, rfl⟩ := List.mem_map.mp (List.mem_of_find?_eq_some hstatus)
  exact ⟨s, hs, by simpa [withDegraded] using List.find?_some hstatus, rfl⟩

/-- An observation of another adapter reaches the sweep. -/
lemma pageForeign_historyRead
    (hread : historyRead texts input.adapterId resourceIds raw receivedAt = .ok read)
    {o : ObservationWire} (ho : o ∈ raw.observations)
    (hforeign : o.provenance.adapterId ≠ input.adapterId) : pageForeign input read = true := by
  obtain ⟨-, -, rfl⟩ := historyRead_eq_ok.mp hread
  have hkept : o ∈ raw.observations.filter fun o => !dropsOwn input.adapterId o := by
    refine List.mem_filter.mpr ⟨ho, ?_⟩
    rw [Bool.not_eq_true', ← Bool.not_eq_true, dropsOwn_iff]
    exact fun h => hforeign h.1
  refine List.any_eq_true.mpr ⟨_, List.mem_map_of_mem hkept, ?_⟩
  simpa [Observation.stamp, Provenance.stamp] using hforeign

end Oversized

/-- **Oversized records are dropped without weakening any evidence.** Of the observations, those
of other adapters and those that fit are kept, in order; each status notes, after what it noted
before, one entry for each dropped observation of its resource, in order. And of a sweep that
commits the page: a dropped record of its resource is not retracted by it, and an anonymous
degrade of the adapter's or an observation of another adapter, whatever its size, leaves it
incomplete and without retractions.

**Proof sketch.** The first part is the description of the fold, with its tests read as the two
bounds. For the second, a dropped record of the resource is named by the status of that resource in
the page that the store took in, so it is exempt, and a sweep retracts no exempt record
(`sweep_retracted`). An anonymous degrade stays anonymous, and an observation of another adapter is
kept whatever its size, is foreign when the page is checked, and disqualifies; a sweep with either
is not complete, and retracts nothing. -/
theorem oversized_dropped (own : String) (observations : List ObservationWire)
    (statuses : List ResourceStatus)
    (hdistinct : (statuses.map ResourceStatus.resourceId).Nodup) :
    dropOwnOversized own observations statuses =
      (observations.filter fun o =>
        decide (o.provenance.adapterId ≠ own ∨ o.bytes ≤ MAX_OBSERVATION_BYTES),
      statuses.map fun s =>
        { s with degraded := s.degraded ++
          (observations.filter fun o => decide (o.provenance.adapterId = own ∧
            MAX_OBSERVATION_BYTES < o.bytes ∧ o.resourceId = s.resourceId)).map fun o =>
              ⟨some o.localId, o.bytes⟩ }) ∧
    ∀ (texts : Texts) (resourceIds : List String) (receivedAt : Rfc3339) (read : HistoryRead)
      (c : Crates) (actions : List Action) (input : SweepInput) (script : Script),
      input.adapterId = own →
      historyRead texts own resourceIds ⟨observations, statuses⟩ receivedAt = .ok read →
      read ∈ (sweepResource c (run c actions) input script).committed →
      let before := run c actions
      let out := sweepResource c before input script
      (∀ o ∈ observations, o.provenance.adapterId = own → MAX_OBSERVATION_BYTES < o.bytes →
        o.resourceId = input.resourceId →
        ∀ ρ ∈ out.db.retractions, ρ ∉ before.retractions → ρ.localId ≠ o.localId) ∧
      ((∃ s ∈ statuses, s.resourceId = input.resourceId ∧ ∃ d ∈ s.degraded, d.localId = none) →
        ¬ out.Complete ∧ out.db.retractions = before.retractions) ∧
      ((∃ o ∈ observations, o.provenance.adapterId ≠ own) →
        ¬ out.Complete ∧ out.db.retractions = before.retractions) := by
  constructor
  · rw [dropOwnOversized_eq own observations hdistinct]
    refine Prod.ext (List.filter_congr fun o _ => ?_) (List.map_congr_left fun s _ => ?_)
    · rw [Bool.eq_iff_iff, Bool.not_eq_true', ← Bool.not_eq_true, dropsOwn_iff, decide_eq_true_iff,
        not_and_or, not_lt]
    · have hsame : (observations.filter fun o => isOversized ObservationWire.bytes
            (fun o => o.provenance.adapterId == own) o && o.resourceId == s.resourceId) =
          observations.filter fun o => decide (o.provenance.adapterId = own ∧
            MAX_OBSERVATION_BYTES < o.bytes ∧ o.resourceId = s.resourceId) := by
        refine List.filter_congr fun o _ => ?_
        rw [Bool.eq_iff_iff]
        simp [isOversized, and_assoc]
      simp only [withDegraded, droppedOwn, droppedOf, hsame]
  · rintro texts resourceIds receivedAt read c actions input script rfl hread hcommitted
    have hdb := consistent_run c actions
    refine ⟨?_, ?_, ?_⟩
    · intro o ho hown hlarge hresource ρ hρ hnew heq
      have hjustified := sweep_justified hdb hnew hρ
      obtain ⟨status, -, hstatus, -⟩ := hjustified.fetched read hcommitted
      obtain ⟨s, -, hid, rfl⟩ := exists_of_statusFor hread hstatus
      -- the status of the swept resource names the dropped record
      have hnoted : (⟨some o.localId, o.bytes⟩ : Degraded) ∈
          (withDegraded (droppedOwn input.adapterId observations) s).degraded := by
        refine List.mem_append_right _ (List.mem_map.mpr ⟨o, List.mem_filter.mpr ⟨ho, ?_⟩, rfl⟩)
        simp [isOversized, hown, hlarge, hresource, hid]
      exact hjustified.unnamed read hcommitted _ hstatus _ hnoted (congrArg some heq.symm)
    · rintro ⟨s, hs, hid, d, hd, hnone⟩
      refine (sweep_qualifies hdb).resolve_right ?_
      rintro ⟨k, rfl, hqualifies⟩
      have hnamed := hqualifies.named read hcommitted
      rw [pageAnonymous, statusFor_historyRead hread hs hid] at hnamed
      simp only [Option.any_some, List.any_eq_false] at hnamed
      exact hnamed d (List.mem_append_left _ hd) (by simp [hnone])
    · rintro ⟨o, ho, hforeign⟩
      refine (sweep_qualifies hdb).resolve_right ?_
      rintro ⟨k, rfl, hqualifies⟩
      have hown := hqualifies.own read hcommitted
      simp [pageForeign_historyRead hread ho hforeign] at hown

/-- An observation is at least as large as its description. -/
lemma textSize_le_bytes (o : ObservationWire) : textSize o.description ≤ o.bytes := by
  rw [ObservationWire.bytes, ObservationWire.toJson, Json.size]
  simp only [membersSize_append, membersSize, Json.size]
  omega

/-- A payment with a description of some length. -/
def rentOf (n : ℕ) : ObservationWire :=
  (Sample.record "checking" "x" "api" (String.ofList (List.replicate n 'a')) .active
    Sample.day₁).authored

/-- A payment whose description alone fills the limit. -/
def longRent : ObservationWire := rentOf MAX_OBSERVATION_BYTES

/-- The observation of the example is larger than a record may be. -/
lemma lt_bytes_longRent : MAX_OBSERVATION_BYTES < longRent.bytes := by
  have hsize : textSize longRent.description = MAX_OBSERVATION_BYTES + 2 := textSize_replicate _
  have hle := textSize_le_bytes longRent
  rw [hsize] at hle
  exact lt_of_lt_of_le (Nat.lt_add_of_pos_right Nat.two_pos) hle

/-- A payment of the same account, as another bank tells it. -/
def foreignRent : ObservationWire :=
  { longRent with provenance := { longRent.provenance with adapterId := "other" } }

/-- Of a payment that is too large and another bank's, the second is kept and the first noted. -/
theorem oversized_dropped_rent :
    dropOwnOversized "bank" [longRent, foreignRent]
        [⟨"checking", .fetched false, [], none, none⟩] =
      ([foreignRent],
        [⟨"checking", .fetched false, [⟨some "x", longRent.bytes⟩], none, none⟩]) := by
  have hown : longRent.provenance.adapterId = "bank" := rfl
  have hforeign : foreignRent.provenance.adapterId = "other" := rfl
  have hdropped := (oversized_dropped "bank" [longRent, foreignRent]
    [⟨"checking", .fetched false, [], none, none⟩] (by simp)).1
  rw [hdropped]
  have hlarge := lt_bytes_longRent
  have hid : longRent.resourceId = "checking" := rfl
  have hlocal : longRent.localId = "x" := rfl
  simp [hown, hforeign, hlarge, hlarge.not_ge, hid, hlocal]

end Sumer.Store
