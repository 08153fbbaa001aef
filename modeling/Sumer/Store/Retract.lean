import Sumer.Store.Ingest

set_option relaxedAutoImplicit false
set_option autoImplicit false

/-!
# What a derivation writes

The retraction derivation goes through the live records of a resource one by one. Its effect on
the tables is stated here in one piece: which records are absent without an excuse, and the rows
that retire them.

## Main definitions

* `Sumer.Store.Db.vantageMoved`, `Sumer.Store.emptyExempt`: the exemptions of a whole sweep.
* `Sumer.Store.Db.absent`: the live records a sweep finds absent.
* `Sumer.Store.Db.retractionRow`: the row that retires one of them.

## Main results

* `Sumer.Store.deriveRetractions_spec`: the derivation appends exactly those rows.
-/

namespace Sumer.Store

open Sumer.Wire Sumer.Host

/-- The vantage a resource was last reconciled from, if it is not the sweep's. -/
def Db.vantageMoved (db : Db) (input : SweepInput) : Option String :=
  ((db.resource input.adapterId input.resourceId).bind ResourceRow.lastProviderId).filter
    (· != input.providerId)

/-- Whether a sweep that observed nothing would retract all of a resource without leave to. -/
def emptyExempt (input : SweepInput) (observedIds : List String)
    (live : List (String × ℕ × Observation)) : Bool :=
  observedIds.isEmpty && !live.isEmpty && !input.options.confirmEmpty

/-- Whether nothing excuses the absence of a live record: the sweep did not observe it, no
degraded entry names it, and it is in the sweep's reach. -/
def unexcused (input : SweepInput) (observedIds exemptIds : List String)
    (record : String × ℕ × Observation) : Bool :=
  decide (record.1 ∉ observedIds) && decide (record.1 ∉ exemptIds) &&
    inReach input.historyStart record.2.2

/-- The live records of a resource whose absence a complete sweep acts on: none under an
exemption of the whole sweep, otherwise those without an excuse. -/
def Db.absent (db : Db) (input : SweepInput) (observedIds exemptIds : List String) :
    List (String × ℕ × Observation) :=
  let live := liveRecords db input.adapterId input.resourceId
  if (db.vantageMoved input).isSome || emptyExempt input observedIds live then []
  else live.filter (unexcused input observedIds exemptIds)

/-- The row that retires a record. -/
def retractionRow (input : SweepInput) (crawlId : ℕ) (now : Rfc3339)
    (headMeta : String → Option HeadMeta) (record : String × ℕ × Observation) : RetractionRow where
  adapterId := input.adapterId
  localId := record.1
  revision := record.2.1
  reason := retractionReason input (headMeta record.1)
  crawlId := crawlId
  retractedAt := now.text

/-- The row that notes a discrepancy. -/
def discrepancyRow (input : SweepInput) (crawlId : ℕ) (now : Rfc3339) (d : Discrepancy) :
    DiscrepancyRow where
  adapterId := input.adapterId
  resourceId := input.resourceId
  kind := d.kind
  crawlId := crawlId
  detail := d.detail
  notedAt := now.text

/-- The discrepancies a complete sweep notes. -/
def Db.discrepanciesOf (db : Db) (input : SweepInput) (crawlId : ℕ) (now : Rfc3339)
    (headMeta : String → Option HeadMeta) (observedIds exemptIds : List String) :
    List Discrepancy :=
  let live := liveRecords db input.adapterId input.resourceId
  match db.vantageMoved input with
  | some previous => [⟨KIND_VANTAGE, previous ++ " -> " ++ input.providerId⟩]
  | none =>
    if emptyExempt input observedIds live then [emptySweep live]
    else
      let rows := (db.absent input observedIds exemptIds).map
        (retractionRow input crawlId now headMeta)
      noted
        { db, retracted := rows.length
          derivationChanged := rows.countP (·.reason = REASON_DERIVATION)
          definitionChanged := rows.countP (·.reason = REASON_DEFINITION)
          historyStartExempt := live.countP fun record =>
            decide (record.1 ∉ observedIds) && decide (record.1 ∉ exemptIds) &&
              !inReach input.historyStart record.2.2 }

/-- The tables with the retractions and discrepancies of a complete sweep. -/
def Db.retract (db : Db) (rows : List RetractionRow) (notes : List DiscrepancyRow) : Db :=
  { db with
    retractions := db.retractions ++ rows
    discrepancies := db.discrepancies ++ notes }

section Derive

variable (input : SweepInput) (crawlId : ℕ) (now : Rfc3339) (headMeta : String → Option HeadMeta)
  (observedIds exemptIds : List String)

/-- One record of the derivation: retired when nothing excuses its absence. -/
lemma deriveOne_spec (s : Deriving) (hcrawl : s.db.hasCrawl crawlId = true)
    (record : String × ℕ × Observation) :
    deriveOne input crawlId headMeta observedIds exemptIds now s record =
      if unexcused input observedIds exemptIds record then
        let row := retractionRow input crawlId now headMeta record
        .ok {
          db := s.db.retract [row] []
          retracted := s.retracted + 1
          derivationChanged := s.derivationChanged +
            if row.reason = REASON_DERIVATION then 1 else 0
          definitionChanged := s.definitionChanged +
            if row.reason = REASON_DEFINITION then 1 else 0
          historyStartExempt := s.historyStartExempt }
      else
        .ok { s with
          historyStartExempt := s.historyStartExempt +
            if decide (record.1 ∉ observedIds) && decide (record.1 ∉ exemptIds) &&
              !inReach input.historyStart record.2.2 then 1 else 0 } := by
  obtain ⟨l, n, head⟩ := record
  by_cases hobs : l ∈ observedIds
  · simp [deriveOne, unexcused, hobs]
  · by_cases hex : l ∈ exemptIds
    · simp [deriveOne, unexcused, hobs, hex]
    · cases hreach : inReach input.historyStart head
      · simp [deriveOne, unexcused, hobs, hex, hreach]
      · simp [deriveOne, unexcused, hobs, hex, hreach, Db.appendRetraction, hcrawl, Db.retract,
          retractionRow]
        exact ⟨rfl, rfl⟩

/-- The derivation over a list of live records.

**Proof sketch.** Induction on the live records. One that is excused is passed over, and counted if
its head lies out of reach; one that is not is retracted, and counted by its reason. -/
lemma derive_spec (live : List (String × ℕ × Observation)) (s : Deriving)
    (hcrawl : s.db.hasCrawl crawlId = true) :
    let rows := (live.filter (unexcused input observedIds exemptIds)).map
      (retractionRow input crawlId now headMeta)
    live.foldlM (deriveOne input crawlId headMeta observedIds exemptIds now) s =
      (.ok {
        db := s.db.retract rows []
        retracted := s.retracted + rows.length
        derivationChanged := s.derivationChanged + rows.countP (·.reason = REASON_DERIVATION)
        definitionChanged := s.definitionChanged + rows.countP (·.reason = REASON_DEFINITION)
        historyStartExempt := s.historyStartExempt + live.countP fun record =>
          decide (record.1 ∉ observedIds) && decide (record.1 ∉ exemptIds) &&
            !inReach input.historyStart record.2.2 } : Except StoreError Deriving) := by
  intro rows
  induction live generalizing s with
  | nil => simp [rows, Db.retract, pure, Except.pure]
  | cons record live ih =>
    rw [List.foldlM_cons, deriveOne_spec input crawlId now headMeta observedIds exemptIds s hcrawl]
    cases hu : unexcused input observedIds exemptIds record with
    | true =>
      have hreach : inReach input.historyStart record.2.2 = true := by
        simp only [unexcused, Bool.and_eq_true] at hu
        exact hu.2
      simp only [if_true, bind, Except.bind]
      rw [ih _ (by exact hcrawl)]
      simp [rows, hu, hreach, Db.retract, List.countP_cons, Nat.add_assoc, Nat.add_comm]
    | false =>
      simp only [Bool.false_eq_true, if_false, bind, Except.bind]
      rw [ih _ (by exact hcrawl)]
      simp [rows, hu, List.countP_cons, Nat.add_assoc, Nat.add_comm]

/-- Noting discrepancies appends their rows, in order, and cannot fail for a crawl that is there. -/
lemma note_spec (ds : List Discrepancy) (db : Db) (hcrawl : db.hasCrawl crawlId = true) :
    ds.foldlM (noteDiscrepancy input crawlId now) db =
      (.ok (db.retract [] (ds.map (discrepancyRow input crawlId now))) :
        Except StoreError Db) := by
  induction ds generalizing db with
  | nil => simp [Db.retract, pure, Except.pure]
  | cons d ds ih =>
    have hone : noteDiscrepancy input crawlId now db d =
        .ok (db.retract [] [discrepancyRow input crawlId now d]) := by
      simp [noteDiscrepancy, Db.appendDiscrepancy, hcrawl, Db.retract, discrepancyRow]
    rw [List.foldlM_cons, hone]
    simp only [bind, Except.bind]
    rw [ih _ (by exact hcrawl)]
    simp [Db.retract]

/-- **What the derivation writes**: one retraction for each absent record, and the discrepancies,
when the fold in memory is the replay of what is stored.

**Proof sketch.** The live set of the fold in memory is the one of the replay of the tables
(`loadFold`), and the three exemptions are decided as the specification decides them. With a moved
vantage both the records and the notes other than the move come out empty; otherwise the cases are
those of an unconfirmed empty sweep, which retracts nothing and notes itself, and of an ordinary
one, which writes a row for each absent record. The notes are written down by one lemma in all of
them (`note_spec`). -/
lemma deriveRetractions_spec {db : Db} (hcrawl : db.hasCrawl crawlId = true) :
    let rows := (db.absent input observedIds exemptIds).map
      (retractionRow input crawlId now headMeta)
    let notes := db.discrepanciesOf input crawlId now headMeta observedIds exemptIds
    deriveRetractions db input crawlId (loadFold db input.adapterId) headMeta observedIds exemptIds
        now =
      .ok (db.retract rows (notes.map (discrepancyRow input crawlId now)),
        ⟨rows.length, notes⟩) := by
  intro rows notes
  have hlive : liveSet (loadFold db input.adapterId) (db.retractionHighWater input.adapterId)
      input.adapterId input.resourceId = liveRecords db input.adapterId input.resourceId := rfl
  have hmoved : ((db.resource input.adapterId input.resourceId).bind
      ResourceRow.lastProviderId).filter (· != input.providerId) = db.vantageMoved input := rfl
  have hempty : (observedIds.isEmpty &&
      !(liveRecords db input.adapterId input.resourceId).isEmpty && !input.options.confirmEmpty) =
        emptyExempt input observedIds (liveRecords db input.adapterId input.resourceId) := rfl
  have hnote := note_spec input crawlId now notes db hcrawl
  simp only [deriveRetractions, hlive, hmoved, hempty]
  cases hvantage : db.vantageMoved input with
  | some previous =>
    have hrows : rows = [] := by simp [rows, Db.absent, hvantage]
    have hnotes : notes = [⟨KIND_VANTAGE, previous ++ " -> " ++ input.providerId⟩] := by
      simp [notes, Db.discrepanciesOf, hvantage]
    rw [hnotes] at hnote
    simp only [List.foldlM_cons, List.foldlM_nil, bind_pure] at hnote
    simp only [hrows, hnotes, hnote]
    rfl
  | none =>
    cases hexempt : emptyExempt input observedIds
        (liveRecords db input.adapterId input.resourceId) with
    | true =>
      have hrows : rows = [] := by simp [rows, Db.absent, hexempt]
      have hnotes : notes = [emptySweep (liveRecords db input.adapterId input.resourceId)] := by
        simp [notes, Db.discrepanciesOf, hvantage, hexempt]
      rw [hnotes] at hnote
      simp only [List.foldlM_cons, List.foldlM_nil, bind_pure] at hnote
      simp only [hrows, hnotes, hnote]
      rfl
    | false =>
      have habsent : db.absent input observedIds exemptIds =
          (liveRecords db input.adapterId input.resourceId).filter
            (unexcused input observedIds exemptIds) := by
        simp [Db.absent, hvantage, hexempt]
      have hderive := derive_spec input crawlId now headMeta observedIds exemptIds
        (liveRecords db input.adapterId input.resourceId) ⟨db, 0, 0, 0, 0⟩ hcrawl
      have hfold : (db.absent input observedIds exemptIds).map
          (retractionRow input crawlId now headMeta) = rows := rfl
      simp only [← habsent, hfold, Nat.zero_add] at hderive
      have hnotes : notes = noted
          { db := db.retract rows [], retracted := rows.length
            derivationChanged := rows.countP (·.reason = REASON_DERIVATION)
            definitionChanged := rows.countP (·.reason = REASON_DEFINITION)
            historyStartExempt := (liveRecords db input.adapterId input.resourceId).countP
              fun record => decide (record.1 ∉ observedIds) && decide (record.1 ∉ exemptIds) &&
                !inReach input.historyStart record.2.2 } := by
        simp [notes, Db.discrepanciesOf, hvantage, hexempt, noted, rows]
      have hretract : (db.retract rows []).retract []
          (notes.map (discrepancyRow input crawlId now)) =
          db.retract rows (notes.map (discrepancyRow input crawlId now)) := by
        simp [Db.retract]
      have hnote' := note_spec input crawlId now notes (db.retract rows []) hcrawl
      rw [if_neg Bool.false_ne_true, hderive]
      simp only [bind, Except.bind, ← hnotes, hnote', hretract]
      rfl

end Derive

end Sumer.Store
