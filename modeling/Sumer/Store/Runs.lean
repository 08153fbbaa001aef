import Sumer.Store.Outcome

set_option relaxedAutoImplicit false
set_option autoImplicit false

/-!
# What every run keeps

The tables' invariant holds in every reachable database: each of the ways a sweep can end keeps
it, and so does every write outside sweeps. What an end leaves in each table is stated here once,
for all of them.

## Main definitions

* `Sumer.Store.SweepRun.Complete`: a sweep that reported itself complete.
* `Sumer.Store.observedTables`: the tables of a sweep's crawl with everything it observed.
* `Sumer.Store.Db.stored`: the stored records.

## Main results

* `Sumer.Store.Ends.observations`, `Sumer.Store.Ends.retractions`, `Sumer.Store.Ends.crawlIds`.
* `Sumer.Store.consistent_run`: every reachable database is consistent.
* `Sumer.Store.stored_prefix_run`: nothing stored is ever removed.
-/

namespace Sumer.Store

open Sumer.Wire Sumer.Host

/-- A sweep that reported itself complete. -/
def SweepRun.Complete (r : SweepRun) : Prop :=
  ∃ report, r.ended = .reported report ∧ report.complete = true

/-- Completeness is a condition on what a sweep reports, so that it can be evaluated. -/
instance (r : SweepRun) : Decidable r.Complete :=
  decidable_of_iff ((match r.ended with
    | .reported report => report.complete
    | _ => false) = true) (by
      cases h : r.ended <;> simp [SweepRun.Complete, h])

/-- The tables a sweep opened, with all observations of some pages and no other change. -/
def observedTables (c : Crates) (k : OpenCrawl) (db₁ : Db) (pages : List HistoryRead) : Db :=
  db₁.observeAll c k.input k.crawlId (allKept k.input pages)

/-! ### The statements of a closing crawl -/

section Books

variable {db : Db} {input : SweepInput} {crawlId : ℕ} {drained complete : Bool}
  {reason : Option String}

/-- Closing a crawl leaves the crawl ids. -/
lemma Db.crawlIds_finishCrawl :
    (db.finishCrawl crawlId drained complete reason).crawls.map CrawlRow.crawlId =
      db.crawls.map CrawlRow.crawlId :=
  map_update _ (fun row : CrawlRow => { row with
    drained := drained
    complete := complete
    disqualifiedReason := reason
    nextPage := if drained then none else row.nextPage }) _ (fun _ => rfl) _

/-- Closing the books stores no observation. -/
@[simp]
lemma Db.observations_closeBooks :
    (db.closeBooks input crawlId drained complete reason).observations = db.observations := rfl

/-- Closing the books retracts nothing: retractions come before it. -/
@[simp]
lemma Db.retractions_closeBooks :
    (db.closeBooks input crawlId drained complete reason).retractions = db.retractions := rfl

/-- Closing the books reports no discrepancy. -/
@[simp]
lemma Db.discrepancies_closeBooks :
    (db.closeBooks input crawlId drained complete reason).discrepancies = db.discrepancies := rfl

/-- Closing the books writes the crawl in one place only. -/
lemma Db.crawls_closeBooks :
    (db.closeBooks input crawlId drained complete reason).crawls =
      (db.finishCrawl crawlId drained complete reason).crawls := rfl

/-- The crawl ids after the books are closed. -/
lemma Db.crawlIds_closeBooks :
    (db.closeBooks input crawlId drained complete reason).crawls.map CrawlRow.crawlId =
      db.crawls.map CrawlRow.crawlId :=
  Db.crawlIds_finishCrawl

end Books

/-! ### Retractions -/

section Retract

variable {db : Db} {input : SweepInput} {observedIds exemptIds : List String}

/-- Which live records a complete sweep finds absent. -/
lemma Db.mem_absent {x : String × ℕ × Observation} :
    x ∈ db.absent input observedIds exemptIds ↔
      db.vantageMoved input = none ∧
        emptyExempt input observedIds (liveRecords db input.adapterId input.resourceId) = false ∧
        x ∈ liveRecords db input.adapterId input.resourceId ∧ x.1 ∉ observedIds ∧
        x.1 ∉ exemptIds ∧ inReach input.historyStart x.2.2 = true := by
  simp only [Db.absent]
  split_ifs with h
  · refine iff_of_false List.not_mem_nil ?_
    rintro ⟨hvantage, hempty, -⟩
    simp [hvantage, hempty] at h
  · simp only [Bool.or_eq_true, not_or, Bool.not_eq_true, Option.isSome_eq_false_iff,
      Option.isNone_iff_eq_none] at h
    simp [List.mem_filter, unexcused, h, and_assoc]

/-- No local id is absent twice. -/
lemma Db.nodup_absent :
    ((db.absent input observedIds exemptIds).map Prod.fst).Nodup := by
  simp only [Db.absent]
  split_ifs
  · exact List.nodup_nil
  · exact (nodup_liveRecords db input.adapterId input.resourceId).sublist
      (List.filter_sublist.map Prod.fst)

/-- An absent record is live, and is retired at the length of its chain. -/
lemma Db.Consistent.live_of_absent (hdb : db.Consistent) {x : String × ℕ × Observation}
    (hx : x ∈ db.absent input observedIds exemptIds) :
    db.Live input.adapterId input.resourceId x.1 ∧
      x.2.1 = (db.chainRows input.adapterId x.1).length := by
  have hlive := (mem_liveRecords hdb).mp (Db.mem_absent.mp hx).2.2.1
  exact ⟨hlive.1, hlive.2.1⟩

/-- **Retractions keep the tables' invariant.** A live chain has never been retracted at its
highest revision.

**Proof sketch.** The rows that are added are of absent records, which are live, so none of them was
retracted at its highest revision before; and a record is absent once. The other tables are as they
were. -/
lemma Db.Consistent.retract (hdb : db.Consistent) (input : SweepInput)
    (observedIds exemptIds : List String) (crawlId : ℕ) (now : Rfc3339)
    (rules : String → Option HeadMeta) (notes : List DiscrepancyRow) :
    (db.retract ((db.absent input observedIds exemptIds).map
      (retractionRow input crawlId now rules)) notes).Consistent where
  revisions := hdb.revisions
  provenance := hdb.provenance
  retracted ρ hρ := by
    rcases List.mem_append.mp hρ with hρ | hρ
    · exact hdb.retracted ρ hρ
    · obtain ⟨x, hx, rfl⟩ := List.mem_map.mp hρ
      obtain ⟨⟨head, hhead, -⟩, hrev⟩ := hdb.live_of_absent hx
      have hpos := List.length_pos_of_mem (Db.mem_of_headRow hhead)
      change 1 ≤ x.2.1 ∧ x.2.1 ≤ (db.chainRows input.adapterId x.1).length
      omega
  retractedOnce := by
    have hnew : ((db.absent input observedIds exemptIds).map
        (retractionRow input crawlId now rules)).Pairwise fun ρ σ => ρ.localId ≠ σ.localId :=
      List.pairwise_map.mpr (List.pairwise_map.mp Db.nodup_absent)
    rw [List.Nodup, List.pairwise_map]
    refine List.pairwise_append.mpr ⟨List.pairwise_map.mp hdb.retractedOnce, ?_, ?_⟩
    · exact hnew.imp fun hne heq => hne (by simpa using (Prod.ext_iff.mp (Prod.ext_iff.mp heq).2).1)
    · intro ρ hρ σ hσ heq
      obtain ⟨x, hx, rfl⟩ := List.mem_map.mp hσ
      obtain ⟨⟨head, hhead, -, -, hburied⟩, hrev⟩ := hdb.live_of_absent hx
      simp only [retractionRow, Prod.mk.injEq] at heq
      have := Db.buried_eq_false_iff.mp hburied ρ hρ heq.1 heq.2.1
      omega
  crawlIds := hdb.crawlIds

end Retract

/-! ### The ends of a sweep -/

section Ends

variable {c : Crates} {db db₁ : Db} {input : SweepInput} {script : Script} {k : OpenCrawl}
  {events : List Event} {r : SweepRun}

/-- The tables after some pages, by what those pages observed. -/
lemma observations_afterPages (pages : List HistoryRead) :
    (afterPages c k db₁ pages).observations = (observedTables c k db₁ pages).observations := by
  unfold afterPages observedTables
  split_ifs <;> rfl

/-- The pages of a sweep retract nothing. -/
@[simp]
lemma retractions_afterPages (pages : List HistoryRead) :
    (afterPages c k db₁ pages).retractions = db₁.retractions := by
  unfold afterPages
  split_ifs <;> simp [Db.setCrawlCursor]

/-- The pages of a sweep define no resource. -/
@[simp]
lemma resources_afterPages (pages : List HistoryRead) :
    (afterPages c k db₁ pages).resources = db₁.resources := by
  unfold afterPages
  split_ifs <;> simp [Db.setCrawlCursor]

/-- The pages of a sweep report no discrepancy. -/
@[simp]
lemma discrepancies_afterPages (pages : List HistoryRead) :
    (afterPages c k db₁ pages).discrepancies = db₁.discrepancies := by
  unfold afterPages
  split_ifs <;> simp [Db.setCrawlCursor]

/-- The pages of a sweep open no crawl and drop none: at most the cursor of one changes. -/
@[simp]
lemma crawlIds_afterPages (pages : List HistoryRead) :
    (afterPages c k db₁ pages).crawls.map CrawlRow.crawlId = db₁.crawls.map CrawlRow.crawlId := by
  unfold afterPages
  split_ifs
  · simp
  · rw [Db.crawlIds_setCrawlCursor, Db.crawls_observeAll]

/-- The last page retracts nothing while its records are stored. -/
@[simp]
lemma retractions_finalObserved (pages : List HistoryRead) (read : HistoryRead) :
    (finalObserved c k db₁ pages read).retractions = db₁.retractions := by
  simp [finalObserved]

/-- The last page defines no resource. -/
@[simp]
lemma resources_finalObserved (pages : List HistoryRead) (read : HistoryRead) :
    (finalObserved c k db₁ pages read).resources = db₁.resources := by
  simp [finalObserved]

/-- The last page reports no discrepancy while its records are stored. -/
@[simp]
lemma discrepancies_finalObserved (pages : List HistoryRead) (read : HistoryRead) :
    (finalObserved c k db₁ pages read).discrepancies = db₁.discrepancies := by
  simp [finalObserved]

/-- The records of a sweep's resource before its retractions, by what it observed. -/
lemma liveRecords_finalObserved (pages : List HistoryRead) (read : HistoryRead) :
    liveRecords (finalObserved c k db₁ pages read) =
      liveRecords (observedTables c k db₁ (pages ++ [read])) :=
  liveRecords_congr (observations_finalObserved pages read) (by simp [observedTables])

/-- The records a final page finds absent, by what the sweep observed. -/
lemma absent_finalObserved (pages : List HistoryRead) (read : HistoryRead) :
    (finalObserved c k db₁ pages read).absent =
      (observedTables c k db₁ (pages ++ [read])).absent := by
  funext input observedIds exemptIds
  simp [Db.absent, liveRecords_finalObserved, Db.vantageMoved, Db.resource, observedTables]

/-- **What any end leaves of the observations**: those of the pages it committed. -/
lemma Ends.observations (h : Ends c script k db₁ events r) :
    r.db.observations = (observedTables c k db₁ r.committed).observations := by
  cases h with
  | cut hat => exact hat.db ▸ observations_afterPages _
  | early hat => exact hat.db ▸ observations_afterPages _
  | partialSweep => exact observations_finalObserved _ _
  | complete => exact observations_finalObserved _ _

/-- The pages an end committed are the replies among its events. -/
lemma Ends.committed (h : Ends c script k db₁ events r) : r.committed = repliesOf events := by
  cases h with
  | cut hat => exact hat.committed
  | early hat => exact hat.committed
  | partialSweep hat => simp [repliesOf, hat.committed]
  | complete hat => simp [repliesOf, hat.committed]

/-- The verdict that a sweep ends with is the first violation of its events, or the one it began
with. -/
lemma Ends.verdict (h : Ends c script k db₁ events r) :
    r.verdict = latch script.verdict events := by
  cases h with
  | cut hat => exact hat.verdict
  | early hat => exact hat.verdict
  | partialSweep hat => simpa [latch] using hat.verdict
  | complete hat => simpa [latch] using hat.verdict

/-- A sweep that ended had opened its crawl. -/
lemma Ends.opened (h : Ends c script k db₁ events r) : r.opened = some k := by
  cases h <;> rfl

/-- A sweep whose report is not complete is not complete. -/
lemma SweepRun.not_complete {report : SweepReport} (hended : r.ended = .reported report)
    (hcomplete : report.complete = false) : ¬ r.Complete := by
  rintro ⟨report', hended', hcomplete'⟩
  obtain rfl : report = report' := Ended.reported.inj (hended.symm.trans hended')
  simp [hcomplete] at hcomplete'

/-- **What any end leaves of the retractions**: those there were, and, if the sweep is complete,
one for each absent record. -/
lemma Ends.retractions (h : Ends c script k db₁ events r) :
    (¬ r.Complete ∧ r.db.retractions = db₁.retractions) ∨
      (r.Complete ∧ Qualifies k r.committed true r.verdict ∧
        r.db.retractions = db₁.retractions ++
          ((observedTables c k db₁ r.committed).absent k.input (allObserved k.input r.committed)
            (allExempt k.input r.committed)).map (retractionRow k.input k.crawlId k.now
              ((observedTables c k db₁ r.committed).headRules k.input.adapterId))) := by
  cases h with
  | cut hat hended =>
    exact Or.inl ⟨fun ⟨report, hreport, _⟩ => hended report hreport,
      by simp [hat.db, Sweeping.stop]⟩
  | early hat reason report hcomplete =>
    exact Or.inl ⟨SweepRun.not_complete rfl hcomplete,
      by simp [hat.db, Sweeping.stop, Db.finishCrawl]⟩
  | partialSweep hat hstatus hlast reason hgate report hcomplete =>
    exact Or.inl ⟨SweepRun.not_complete rfl hcomplete, by simp⟩
  | @complete events s read status hat hstatus hlast hgate report hcomplete =>
    have hrules : (finalObserved c k db₁ s.committed read).headRules =
        (observedTables c k db₁ (s.committed ++ [read])).headRules :=
      Db.headRules_congr (observations_finalObserved s.committed read)
    refine Or.inr ⟨⟨report, rfl, hcomplete⟩, hgate.drained ▸ hgate, ?_⟩
    simp only [← absent_finalObserved, ← hrules]
    simp [completed, Db.retract]

/-- However a sweep ends, it has added no crawl since it opened and changed no id. -/
lemma Ends.crawlIds (h : Ends c script k db₁ events r) :
    r.db.crawls.map CrawlRow.crawlId = db₁.crawls.map CrawlRow.crawlId := by
  have hfinal (pages : List HistoryRead) (read : HistoryRead) :
      (finalObserved c k db₁ pages read).crawls.map CrawlRow.crawlId =
        db₁.crawls.map CrawlRow.crawlId := by
    rw [finalObserved, Db.crawls_observeAll, crawlIds_afterPages]
  cases h with
  | cut hat => exact hat.db ▸ crawlIds_afterPages _
  | early hat => exact Db.crawlIds_finishCrawl.trans (hat.db ▸ crawlIds_afterPages _)
  | partialSweep => exact Db.crawlIds_closeBooks.trans (hfinal _ _)
  | complete => exact Db.crawlIds_closeBooks.trans (hfinal _ _)

/-- **Every end keeps the tables' invariant**, since it writes with the operations that do. -/
lemma Ends.consistent (h : Ends c script k db₁ events r) (hdb : db₁.Consistent) :
    r.db.Consistent := by
  have hobserved : (observedTables c k db₁ r.committed).Consistent :=
    hdb.observeAll fun o ho => provenance_of_mem_allKept ho
  have hids : r.db.crawls.map CrawlRow.crawlId =
      (observedTables c k db₁ r.committed).crawls.map CrawlRow.crawlId := by
    rw [h.crawlIds, observedTables, Db.crawls_observeAll]
  rcases h.retractions with ⟨-, hret⟩ | ⟨-, -, hret⟩
  · exact hobserved.congr h.observations (by simp [hret, observedTables]) hids
  · have hretract := hobserved.retract k.input (allObserved k.input r.committed)
      (allExempt k.input r.committed) k.crawlId k.now
      ((observedTables c k db₁ r.committed).headRules k.input.adapterId) []
    exact hretract.congr h.observations (hret.trans (by simp [observedTables, Db.retract])) hids

end Ends

/-! ### Reachable databases -/

/-- A sweep keeps the tables' invariant, within any limit on its pages and however it ends. -/
lemma consistent_sweepWithin (pageLimit : Option ℕ) (c : Crates) {db : Db} (hdb : db.Consistent)
    (input : SweepInput) (script : Script) :
    (sweepWithin pageLimit c db input script).db.Consistent := by
  rcases sweep_outcome pageLimit c hdb input script with ⟨e, h⟩ | ⟨k, db₁, events, hopen, -, hends⟩
  · rw [h]
    exact hdb
  · exact hends.consistent (hopen.consistent hdb)

/-- A new profile, without a row, is consistent. -/
lemma consistent_empty : Db.empty.Consistent where
  revisions := by simp [Db.empty, Db.chainRows]
  provenance := by simp [Db.empty]
  retracted := by simp [Db.empty]
  retractedOnce := by simp [Db.empty]
  crawlIds := by simp [Db.empty]

/-- A write outside sweeps leaves crawls, observations and retractions. -/
lemma MetaWrite.apply_eq (db : Db) (w : MetaWrite) :
    (w.apply db).crawls = db.crawls ∧ (w.apply db).observations = db.observations ∧
      (w.apply db).retractions = db.retractions := by
  cases w with
  | upsertAdapter adapterId argv =>
    simp only [MetaWrite.apply, Db.upsertAdapter]
    split <;> simp
  | setAdapterDerivation adapterId derivation =>
    simp [MetaWrite.apply, Db.setAdapterDerivation]
  | upsertResource adapterId resourceId kind label =>
    simp only [MetaWrite.apply, Db.upsertResource]
    split_ifs <;> simp
  | setNeedsReauth adapterId needs => simp [MetaWrite.apply, Db.setNeedsReauth]
  | openBalanceRead adapterId =>
    simp only [MetaWrite.apply, Db.openBalanceRead]
    cases db.adapters.find? (·.adapterId == adapterId) <;> simp

/-- A write outside sweeps keeps the tables' invariant. -/
lemma MetaWrite.consistent_apply {db : Db} (hdb : db.Consistent) (w : MetaWrite) :
    (w.apply db).Consistent := by
  obtain ⟨hcrawls, hobs, hret⟩ := w.apply_eq db
  exact hdb.congr hobs hret (by rw [hcrawls])

/-- **Every reachable database is consistent**, by the invariant rule: writes and sweeps keep it
so. -/
lemma consistent_run (c : Crates) (actions : List Action) : (run c actions).Consistent :=
  run_invariant c Db.Consistent consistent_empty (fun _ w hdb => w.consistent_apply hdb)
    (fun _ input script hdb => consistent_sweepWithin _ c hdb input script) actions

/-! ### What is stored stays stored -/

/-- The stored records, without the columns a later sweep may stamp. -/
def Db.stored (db : Db) : List (String × Observation) :=
  db.observations.map fun r => (r.adapterId, r.observation)

section Stored

variable {c : Crates} {db : Db} {input : SweepInput} {crawlId : ℕ}

/-- An observation adds itself to what is stored, unless the head of its chain repeats it. -/
lemma Db.stored_observe (o : Observation) :
    (db.observe c input crawlId o).stored =
      if db.repeats c input.adapterId o then db.stored
      else db.stored ++ [(input.adapterId, o)] := by
  unfold Db.observe
  split_ifs
  · exact map_update _ (StoredObservation.stamped input crawlId) _ (fun _ => rfl) _
  · simp [Db.stored, Db.newRow]

/-- Observations remove nothing: what was stored stays, in order, at the front. -/
lemma Db.stored_prefix_observeAll (os : List Observation) :
    db.stored <+: (db.observeAll c input crawlId os).stored := by
  refine Db.observeAll_invariant (P := fun db' => db.stored <+: db'.stored) ?_ List.prefix_rfl
  intro db' o _ h
  rw [Db.stored_observe]
  split_ifs
  · exact h
  · exact h.trans (List.prefix_append _ _)

/-- **Whatever is observed is stored**: the same content is in its chain.

**Proof sketch.** Induction on the observations. One that is taken in is appended, or repeats a head
that has its content already, and nothing stored is removed by those after it. -/
lemma Db.stored_of_observed {os : List Observation} {o : Observation} (ho : o ∈ os) :
    ∃ o', (input.adapterId, o') ∈ (db.observeAll c input crawlId os).stored ∧
      o'.localId = o.localId ∧ contentHash c o' = contentHash c o := by
  induction os generalizing db with
  | nil => exact absurd ho List.not_mem_nil
  | cons o₁ os ih =>
    rcases List.mem_cons.mp ho with rfl | ho
    · have hbegins : (db.observe c input crawlId o).stored <+:
          ((db.observe c input crawlId o).observeAll c input crawlId os).stored :=
        Db.stored_prefix_observeAll os
      by_cases hrep : db.repeats c input.adapterId o = true
      · obtain ⟨head, hhead, -, hhash⟩ := Db.exists_head_of_repeats hrep
        obtain ⟨hmem, hadapter, hl⟩ := Db.mem_chainRows.mp (Db.mem_of_headRow hhead)
        refine ⟨head.observation, hbegins.subset ?_, hl, hhash⟩
        rw [Db.stored_observe, if_pos hrep]
        exact List.mem_map.mpr ⟨head, hmem, by rw [hadapter]⟩
      · refine ⟨o, hbegins.subset ?_, rfl, rfl⟩
        rw [Db.stored_observe, if_neg hrep]
        simp
    · exact ih ho

/-- A sweep removes nothing that was stored, however it ends. -/
lemma stored_prefix_sweepWithin (pageLimit : Option ℕ) (hdb : db.Consistent) (script : Script) :
    db.stored <+: (sweepWithin pageLimit c db input script).db.stored := by
  rcases sweep_outcome pageLimit c hdb input script with ⟨e, h⟩ | ⟨k, db₁, events, hopen, -, hends⟩
  · rw [h]
    exact List.prefix_rfl
  · have hstored : (sweepWithin pageLimit c db input script).db.stored =
        (observedTables c k db₁ (sweepWithin pageLimit c db input script).committed).stored := by
      rw [Db.stored, hends.observations, Db.stored]
    have hbefore : db₁.stored = db.stored := by rw [Db.stored, hopen.observations, Db.stored]
    rw [hstored, ← hbefore]
    exact Db.stored_prefix_observeAll _

/-- **Nothing stored is ever removed**: what a run has stored is a prefix of what it has after any
more actions. -/
lemma stored_prefix_run (c : Crates) (before after : List Action) :
    (run c before).stored <+: (run c (before ++ after)).stored := by
  induction after using List.reverseRecOn with
  | nil => simp
  | append_singleton after a ih =>
    rw [← List.append_assoc, run_concat]
    refine ih.trans ?_
    cases a with
    | write w =>
      have hsame : (Action.apply c (run c (before ++ after)) (.write w)).stored =
          (run c (before ++ after)).stored := by
        rw [Db.stored, Db.stored]
        exact congrArg _ (w.apply_eq _).2.1
      rw [hsame]
    | sweep input script => exact stored_prefix_sweepWithin _ (consistent_run c _) script

end Stored

end Sumer.Store
