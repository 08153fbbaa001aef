import Sumer.Host.Error

set_option relaxedAutoImplicit false
set_option autoImplicit false

/-!
# Reading balances

What the host makes of a `balances.read` reply (`core/host/src/lib.rs`): it is refused unless it
gives every requested resource exactly one status and carries balances of the connection's own
adapter for requested resources only. What is accepted is stamped with its receipt time and, by
resource, with the staleness of that resource's outcome.

## Main definitions

* `Sumer.Host.checkStatusCoverage`, `Sumer.Host.stalenessByResource`, `Sumer.Host.dropOversized`.
* `Sumer.Host.balancesRead`: the call, from the decoded reply on.

## Main results

* `Sumer.Host.balancesRead_eq_ok`: what an accepted reply looks like.
-/

namespace Sumer.Host

open Sumer.Wire

/-- The most bytes one observation may serialize to. -/
def MAX_OBSERVATION_BYTES : ℕ := 65536

/-- The balances op. -/
def OP_BALANCES_READ : String := "balances.read"

/-- What the host uses of third-party code here: the serialized size of a balance line, and the
debug text of an id. -/
structure Texts where
  balanceBytes : BalanceWire → ℕ
  debug : String → String

/-- A decoded `balances.read` reply. -/
structure BalancesReply where
  observations : List BalanceWire
  statuses : List ResourceStatus

/-- A `balances.read` reply with host-stamped provenance. -/
structure BalancesRead where
  observations : List Balance
  statuses : List ResourceStatus

/-- The error of a reply that is not what the op answers with. -/
def malformedReply (op detail : String) : HostError :=
  .wire ⟨.invalidRequest, "malformed " ++ op ++ " reply: " ++ detail⟩

/-- The first text of a list that has occurred in it before. -/
def firstRepeat : List String → List String → Option String
  | _, [] => none
  | seen, id :: ids => if id ∈ seen then some id else firstRepeat (id :: seen) ids

/-- Every requested resource appears in the statuses exactly once. -/
def checkStatusCoverage (texts : Texts) (op : String) (requested : List String)
    (statuses : List ResourceStatus) : Except HostError Unit :=
  let seen := statuses.map ResourceStatus.resourceId
  let malformed detail := malformedReply op
    (detail ++ "; every requested resource_id appears in `statuses` exactly once")
  match firstRepeat [] seen with
  | some id =>
    .error (malformed ("resource " ++ texts.debug id ++ " appears in `statuses` more than once"))
  | none =>
    match requested.find? fun id => decide (id ∉ seen) with
    | some id =>
      .error (malformed ("resource " ++ texts.debug id ++
        " was requested and does not appear in `statuses` at all"))
    | none => .ok ()

/-- The staleness of what a resource delivered under an outcome. -/
def outcomeStaleness : ReadOutcome → Staleness
  | .stale _ => .cached
  | .unavailable | .gone => .unavailable
  | .fetched _ | .notFetched | .rateLimited _ | .reauthRequired | .revoked | .scaRequired => .live

/-- The staleness a reply gives a resource. A map collected from a list keeps the last entry of a
key. -/
def stalenessByResource (statuses : List ResourceStatus) (resourceId : String) :
    Option Staleness :=
  (statuses.reverse.find? (·.resourceId == resourceId)).map fun s => outcomeStaleness s.outcome

/-- The staleness of one resource's lines. -/
def stalenessFor (byResource : String → Option Staleness) (resourceId : String) : Staleness :=
  (byResource resourceId).getD .unavailable

/-- Notes a dropped record on the status of its resource. -/
def reportOversized (resourceId : String) (degraded : Degraded) :
    List ResourceStatus → List ResourceStatus
  | [] => []
  | s :: rest =>
    if s.resourceId == resourceId then { s with degraded := s.degraded ++ [degraded] } :: rest
    else s :: reportOversized resourceId degraded rest

/-- Drops the records that are measured and too large, and notes each on its resource's status. -/
def dropOversized {T : Type} (bytes : T → ℕ) (measure : T → Bool)
    (key : T → String × Option String) :
    List T → List ResourceStatus → List T × List ResourceStatus
  | [], statuses => ([], statuses)
  | o :: rest, statuses =>
    if !measure o || decide (bytes o ≤ MAX_OBSERVATION_BYTES) then
      let (kept, statuses) := dropOversized bytes measure key rest statuses
      (o :: kept, statuses)
    else
      dropOversized bytes measure key rest
        (reportOversized (key o).1 ⟨(key o).2, bytes o⟩ statuses)

/-- `balances.read` over a connection that announced `helloAdapterId`, from the decoded reply
on. -/
def balancesRead (texts : Texts) (helloAdapterId : String) (resourceIds : List String)
    (raw : BalancesReply) (receivedAt : Rfc3339) : Except HostError BalancesRead :=
  match checkStatusCoverage texts OP_BALANCES_READ resourceIds raw.statuses with
  | .error e => .error e
  | .ok () =>
    match raw.observations.find? fun b => decide (b.provenance.adapterId ≠ helloAdapterId) with
    | some foreign =>
      .error (malformedReply OP_BALANCES_READ ("a balance for resource " ++
        texts.debug foreign.resourceId ++ " names adapter_id " ++
        texts.debug foreign.provenance.adapterId ++ " on the connection that announced " ++
        texts.debug helloAdapterId))
    | none =>
      match raw.observations.find? fun b => decide (b.resourceId ∉ resourceIds) with
      | some unasked =>
        .error (malformedReply OP_BALANCES_READ ("a balance for resource " ++
          texts.debug unasked.resourceId ++ ", which this call did not request"))
      | none =>
        let staleness := stalenessByResource raw.statuses
        let (kept, statuses) := dropOversized texts.balanceBytes (fun _ => true)
          (fun b => (b.resourceId, none)) raw.observations raw.statuses
        .ok ⟨kept.map fun wire =>
          Balance.stamp wire receivedAt (stalenessFor staleness wire.resourceId), statuses⟩

section Coverage

variable {texts : Texts} {op : String} {requested : List String} {statuses : List ResourceStatus}

/-- Nothing repeats exactly when the list has no duplicates and nothing was seen before. -/
lemma firstRepeat_eq_none {seen ids : List String} :
    firstRepeat seen ids = none ↔ ids.Nodup ∧ ∀ id ∈ ids, id ∉ seen := by
  induction ids generalizing seen with
  | nil => simp [firstRepeat]
  | cons id ids ih =>
    rw [firstRepeat]
    split_ifs with hseen
    · simp only [List.mem_cons, forall_eq_or_imp, false_iff]
      exact fun h => h.2.1 hseen
    · rw [ih]
      simp only [List.nodup_cons, List.mem_cons, not_or, forall_eq_or_imp]
      constructor
      · rintro ⟨hnodup, hfresh⟩
        exact ⟨⟨fun hmem => (hfresh id hmem).1 rfl, hnodup⟩, hseen, fun x hx => (hfresh x hx).2⟩
      · rintro ⟨⟨hid, hnodup⟩, -, hfresh⟩
        exact ⟨hnodup, fun x hx => ⟨fun heq => hid (heq ▸ hx), hfresh x hx⟩⟩

/-- **Coverage**: no resource has two statuses, and every requested one has one.

**Proof sketch.** The first check finds a repeated resource if there is one, the second a requested
one without a status; with neither, the check passes. -/
lemma checkStatusCoverage_eq_ok :
    checkStatusCoverage texts op requested statuses = .ok () ↔
      (statuses.map ResourceStatus.resourceId).Nodup ∧
        ∀ id ∈ requested, id ∈ statuses.map ResourceStatus.resourceId := by
  unfold checkStatusCoverage
  have hrepeat : firstRepeat [] (statuses.map ResourceStatus.resourceId) = none ↔ _ :=
    firstRepeat_eq_none
  dsimp only
  cases hfirst : firstRepeat [] (statuses.map ResourceStatus.resourceId) with
  | some id =>
    rw [hfirst] at hrepeat
    simp only [reduceCtorEq, false_iff] at hrepeat ⊢
    exact fun h => hrepeat ⟨h.1, fun _ _ => List.not_mem_nil⟩
  | none =>
    have hnodup := (hrepeat.mp hfirst).1
    cases hmissing : requested.find? fun id =>
        decide (id ∉ statuses.map ResourceStatus.resourceId) with
    | some id =>
      have hid := List.find?_some hmissing
      simp only [reduceCtorEq, false_iff]
      intro h
      exact of_decide_eq_true hid (h.2 id (List.mem_of_find?_eq_some hmissing))
    | none =>
      simp only [true_iff]
      refine ⟨hnodup, fun id hid => ?_⟩
      simpa using List.find?_eq_none.mp hmissing id hid

end Coverage

section Oversized

variable {T : Type} {bytes : T → ℕ} {measure : T → Bool} {key : T → String × Option String}

/-- Noting a dropped record changes what is degraded and nothing else. -/
lemma map_reportOversized (resourceId : String) (degraded : Degraded)
    (statuses : List ResourceStatus) :
    (reportOversized resourceId degraded statuses).map (fun s => (s.resourceId, s.outcome)) =
      statuses.map fun s => (s.resourceId, s.outcome) := by
  induction statuses with
  | nil => rfl
  | cons s rest ih =>
    rw [reportOversized]
    split_ifs
    · rfl
    · rw [List.map_cons, ih, List.map_cons]

/-- Dropping records leaves every resource's outcome, and the order of the statuses. -/
lemma map_dropOversized (os : List T) (statuses : List ResourceStatus) :
    (dropOversized bytes measure key os statuses).2.map (fun s => (s.resourceId, s.outcome)) =
      statuses.map fun s => (s.resourceId, s.outcome) := by
  induction os generalizing statuses with
  | nil => rfl
  | cons o os ih =>
    rw [dropOversized]
    split_ifs
    · exact ih statuses
    · exact (ih _).trans (map_reportOversized _ _ _)

/-- Dropping adds nothing: what is kept was there before. -/
lemma mem_dropOversized {os : List T} {statuses : List ResourceStatus} {o : T}
    (h : o ∈ (dropOversized bytes measure key os statuses).1) : o ∈ os := by
  induction os generalizing statuses with
  | nil => exact h
  | cons x os ih =>
    rw [dropOversized] at h
    split_ifs at h
    · rcases List.mem_cons.mp h with rfl | h
      · exact List.mem_cons_self
      · exact List.mem_cons_of_mem _ (ih h)
    · exact List.mem_cons_of_mem _ (ih h)

end Oversized

/-- With one status a resource, the last one is the first one. -/
lemma stalenessByResource_of_mem {statuses : List ResourceStatus} {s : ResourceStatus}
    (hnodup : (statuses.map ResourceStatus.resourceId).Nodup) (hs : s ∈ statuses) :
    stalenessByResource statuses s.resourceId = some (outcomeStaleness s.outcome) := by
  rw [stalenessByResource]
  cases hfind : statuses.reverse.find? (·.resourceId == s.resourceId) with
  | none => exact absurd (List.find?_eq_none.mp hfind s (List.mem_reverse.mpr hs)) (by simp)
  | some t =>
    have ht : t.resourceId = s.resourceId := by simpa using List.find?_some hfind
    have hmem : t ∈ statuses := List.mem_reverse.mp (List.mem_of_find?_eq_some hfind)
    rw [List.inj_on_of_nodup_map hnodup hmem hs ht]
    rfl

/-- **An accepted reply.** Each line is one the adapter sent for a requested resource, under the
connection's own id, stamped with the staleness of the one status of its resource; and the
outcomes are those the adapter sent.

**Proof sketch.** The checks are followed in order. The statuses name each resource once and only
resources that were asked for; no line is foreign; and no line is of a resource that was not asked
for, so each finds the one status of its resource, whose staleness it is stamped with. -/
lemma balancesRead_eq_ok {texts : Texts} {helloAdapterId : String} {resourceIds : List String}
    {raw : BalancesReply} {receivedAt : Rfc3339} {read : BalancesRead}
    (h : balancesRead texts helloAdapterId resourceIds raw receivedAt = .ok read) :
    (raw.statuses.map ResourceStatus.resourceId).Nodup ∧
      read.statuses.map (fun s => (s.resourceId, s.outcome)) =
        raw.statuses.map (fun s => (s.resourceId, s.outcome)) ∧
      ∀ b ∈ read.observations, ∃ wire ∈ raw.observations, ∃ s ∈ raw.statuses,
        b = Balance.stamp wire receivedAt (outcomeStaleness s.outcome) ∧
        s.resourceId = wire.resourceId ∧ wire.resourceId ∈ resourceIds ∧
        wire.provenance.adapterId = helloAdapterId := by
  unfold balancesRead at h
  cases hcover : checkStatusCoverage texts OP_BALANCES_READ resourceIds raw.statuses with
  | error e => simp [hcover] at h
  | ok u =>
    obtain ⟨hnodup, hasked⟩ := checkStatusCoverage_eq_ok.mp hcover
    simp only [hcover] at h
    cases hforeign : raw.observations.find? fun b =>
        decide (b.provenance.adapterId ≠ helloAdapterId) with
    | some b => simp only [hforeign, reduceCtorEq] at h
    | none =>
      simp only [hforeign] at h
      cases hunasked : raw.observations.find? fun b => decide (b.resourceId ∉ resourceIds) with
      | some b => simp only [hunasked, reduceCtorEq] at h
      | none =>
        simp only [hunasked, Except.ok.injEq] at h
        subst h
        refine ⟨hnodup, map_dropOversized _ _, fun b hb => ?_⟩
        obtain ⟨wire, hwire, rfl⟩ := List.mem_map.mp hb
        have hmem := mem_dropOversized hwire
        have hown : wire.provenance.adapterId = helloAdapterId := by
          simpa using List.find?_eq_none.mp hforeign wire hmem
        have hrequested : wire.resourceId ∈ resourceIds := by
          simpa using List.find?_eq_none.mp hunasked wire hmem
        obtain ⟨s, hs, hid⟩ := List.mem_map.mp (hasked _ hrequested)
        refine ⟨wire, hmem, s, hs, ?_, hid, hrequested, hown⟩
        rw [stalenessFor, ← hid, stalenessByResource_of_mem hnodup hs]
        rfl

end Sumer.Host
