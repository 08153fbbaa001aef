import Sumer.Store.Runs

set_option relaxedAutoImplicit false
set_option autoImplicit false

/-!
# Revisions on disk and in memory

A sweep numbers its records with a fold that it loads once and then carries through several
transactions. The tables number them by rows. The two agree in every reachable database and at
every point of every sweep.

## Main definitions

* `Sumer.Store.Ingests`: a point inside a sweep at which it is about to ingest some observations.

## Main results

* `Sumer.Store.revisions_agree`: the stored revisions, the fold in memory and the stamps agree.
-/

namespace Sumer.Store

open Sumer.Wire Sumer.Host

/-- What a sweep works on when some of its pages have committed, some observations of the next one
have been ingested, and `rest` is still to come. -/
def Ingests (c : Crates) (db : Db) (input : SweepInput) (script : Script) (k : OpenCrawl)
    (i : Ingesting) (rest : List Observation) : Prop :=
  ∃ (s₀ : Sweeping) (events : List Event) (s : Sweeping) (read : HistoryRead)
    (done : List Observation),
    openSweep (some MAX_PAGES) c db input script = .ok (k, s₀) ∧
      advance (turn c k) s₀ events = some s ∧
      keptObservations input read.observations = done ++ rest ∧
      ingestPage c input k.crawlId k.buried ⟨s.db, s.fold, s.headMeta, ⟨0, 0, 0⟩⟩ done = .ok i

section Points

variable {c : Crates} {db : Db} {input : SweepInput} {script : Script} {k : OpenCrawl}
  {i : Ingesting} {rest : List Observation}

/-- The head of a chain, where memory and tables agree. -/
lemma Ingesting.Agrees.chain_getLast? {crawlId : ℕ} {buried : String → Option ℕ}
    (h : i.Agrees input crawlId buried) (l : String) :
    (i.fold.chain input.adapterId l).getLast? =
      (i.db.headRow input.adapterId l).map StoredObservation.revisioned := by
  rw [h.fold, head_load h.consistent]

/-- **At every point of a sweep** memory and tables agree, every head has its software rules in
memory, and what is still to come is the adapter's own.

**Proof sketch.** The sweep has reached a page (`advance_at`), at which memory and tables agree, and
the records of the page that were taken in keep the agreement (`ingestPage_spec`). The software
rules of a head are in memory since the sweep began, or since its record was taken in. What a page
keeps is the adapter's own. -/
lemma Ingests.agrees (hdb : db.Consistent) (h : Ingests c db input script k i rest) :
    i.Agrees input k.crawlId k.buried ∧
      (∀ l, (i.db.headRow input.adapterId l).isSome → (i.headMeta l).isSome) ∧
      ∀ o ∈ rest, o.provenance.adapterId = input.adapterId := by
  obtain ⟨s₀, events, s, read, done, hopen, hadvance, hkept, hingest⟩ := h
  obtain ⟨hopened, hat⟩ := advance_at hdb hopen hadvance
  obtain rfl : k.input = input := hopened.input_eq
  have hown (o : Observation) (ho : o ∈ done ++ rest) :
      o.provenance.adapterId = k.input.adapterId := by
    rw [← hkept] at ho
    exact (mem_pageKept.mp ho).2.1
  obtain ⟨i', hok, hidb, himeta, hagrees⟩ := ingestPage_spec (c := c) hat.agrees
    fun o ho => hown o (List.mem_append_left rest ho)
  obtain rfl : i' = i := Except.ok.inj (hok.symm.trans hingest)
  refine ⟨hagrees, ?_, fun o ho => hown o (List.mem_append_right done ho)⟩
  intro l hhead
  simp only [himeta, hat.headMeta]
  split_ifs with hdone hobserved
  · rfl
  · rfl
  · have hbefore : i'.db.headRow k.input.adapterId l = s₀.db.headRow k.input.adapterId l := by
      simp only [hidb, hat.db]
      rw [Db.headRow_observeAll_of_notMem fun h => hdone h.2,
        Db.headRow_congr (observations_afterPages s.committed), observedTables,
        Db.headRow_observeAll_of_notMem fun h => hobserved h.2]
    rw [Db.headRules, Option.isSome_map, ← hbefore]
    exact hhead

/-- A stamp finds one row: the head's.

**Proof sketch.** A record that is already held repeats the head of its chain, so what is stamped is
the head's revision. Revisions are distinct within a consistent chain, so that revision picks the
head and nothing else. -/
lemma Ingesting.Agrees.stamped {crawlId : ℕ} {buried : String → Option ℕ}
    (h : i.Agrees input crawlId buried) {o : Observation}
    (hheld : i.alreadyHeld c buried input.adapterId o = true) :
    ∃ row, i.db.observations.filter (fun r => r.adapterId == input.adapterId &&
        r.observation.localId == o.localId &&
        decide (r.revision = i.stampedRevision input.adapterId o)) = [row] ∧
      i.head input.adapterId o = some row.revisioned := by
  rw [h.alreadyHeld] at hheld
  obtain ⟨head, hhead, -, -⟩ := Db.exists_head_of_repeats hheld
  have hlast : i.head input.adapterId o = some head.revisioned := by
    rw [Ingesting.head, h.chain_getLast?, hhead, Option.map_some]
  have hrevision : i.stampedRevision input.adapterId o = head.revision := by
    rw [Ingesting.stampedRevision, hlast]
    rfl
  have hmem := Db.mem_of_headRow hhead
  refine ⟨head, ?_, hlast⟩
  have hfilter : i.db.observations.filter (fun r => r.adapterId == input.adapterId &&
      r.observation.localId == o.localId && decide (r.revision = head.revision)) =
        (i.db.chainRows input.adapterId o.localId).filter
          fun r => decide (r.revision = head.revision) := by
    simp [Db.chainRows, List.filter_filter, Bool.and_comm, Bool.and_assoc]
  have hnodup : (i.db.chainRows input.adapterId o.localId).Nodup := by
    refine List.Nodup.of_map StoredObservation.revision ?_
    rw [h.consistent.revisions]
    exact List.nodup_range'
  rw [hrevision, hfilter, ← List.perm_singleton]
  refine (List.perm_ext_iff_of_nodup (hnodup.filter _) (List.nodup_singleton head)).mpr ?_
  intro r
  simp only [List.mem_filter, decide_eq_true_eq, List.mem_singleton]
  constructor
  · rintro ⟨hr, hrev⟩
    exact h.consistent.eq_of_revision hr hmem hrev
  · rintro rfl
    exact ⟨hmem, rfl⟩

end Points

/-- Replaying the rows before a row numbers it with its own revision.

**Proof sketch.** The revision that the fold gives to a record is one more than the number of
records of its chain before it. The rows of the chain are in the order of their revisions, counted
from one, so the row at that place has this number. -/
lemma Db.Consistent.ingest_replay {db : Db} (hdb : db.Consistent) {a : String}
    {done rest : List StoredObservation} {row : StoredObservation}
    (h : db.observationsForAdapter a = done ++ row :: rest) :
    ((replay (done.map StoredObservation.observation)).ingest row.observation).2 =
      row.revision := by
  set l := row.observation.localId
  have hrow : row ∈ db.observationsForAdapter a := h ▸ by simp
  have hcount : (Host.revisions (done.map StoredObservation.observation)
      (chainKey row.observation)).length =
        (done.filter (·.observation.localId == l)).length := by
    rw [length_revisions, List.filter_map, List.length_map]
    congr 1
    refine List.filter_congr fun r hr => ?_
    have howner (r : StoredObservation) (hr : r ∈ db.observationsForAdapter a) :
        r.observation.provenance.adapterId = a := by
      have := List.mem_filter.mp hr
      exact (hdb.provenance r this.1).trans (by simpa using this.2)
    have hr' := howner r (h ▸ List.mem_append_left _ hr)
    simp [chainKey, hr', howner row hrow, l, beq_eq_decide]
  have hrows : db.chainRows a l =
      done.filter (·.observation.localId == l) ++ row ::
        rest.filter (·.observation.localId == l) := by
    rw [Db.chainRows_eq_filter, h]
    simp [l]
  have hrevisions := hdb.revisions a l
  rw [Host.ingest_replay, hcount]
  have hat := congrArg (·[(done.filter (·.observation.localId == l)).length]?) hrevisions
  simp only [hrows] at hat
  simpa [Nat.add_comm] using hat.symm

/-- The fold a sweep holds when it ends is the replay of what is stored. -/
lemma Ends.fold {c : Crates} {db₁ : Db} {script : Script} {k : OpenCrawl} {events : List Event}
    {r : SweepRun} (h : Ends c script k db₁ events r) :
    r.fold = loadFold r.db k.input.adapterId := by
  cases h with
  | cut hat => exact hat.agrees.fold
  | early hat => exact hat.agrees.fold.trans (congrFun (loadFold_congr rfl) _)
  | partialSweep => exact congrFun (loadFold_congr rfl) _
  | complete => exact congrFun (loadFold_congr rfl) _

/-- **Revisions on disk and in the fold agree.** In every reachable database the rows of a chain
carry the revisions `1, 2, …, n` in stored order, and replaying them assigns each its own again. A
sweep of it leaves, whenever it ends, a fold that is the replay of the rows then stored. At every
point inside a sweep, memory is the replay of the tables, every head has its software rules, no
observation is rejected, and a stamp finds exactly one row, the head's.

**Proof sketch.** `Db.Consistent` holds of every reachable database, and `At` of every state of
the page loop; `ingestPage_spec` carries both through the observations of a page. -/
theorem revisions_agree (c : Crates) (actions : List Action) :
    (∀ a l, ((run c actions).chainRows a l).map StoredObservation.revision =
      List.range' 1 ((run c actions).chainRows a l).length) ∧
    (∀ a done row rest, (run c actions).observationsForAdapter a = done ++ row :: rest →
      ((replay (done.map StoredObservation.observation)).ingest row.observation).2 =
        row.revision) ∧
    (∀ input script, (sweepResource c (run c actions) input script).opened.isSome →
      (sweepResource c (run c actions) input script).fold =
        loadFold (sweepResource c (run c actions) input script).db input.adapterId) ∧
    ∀ input script k i rest, Ingests c (run c actions) input script k i rest →
      i.fold = loadFold i.db input.adapterId ∧
      (∀ l, i.fold.chain input.adapterId l ≠ [] → (i.headMeta l).isSome) ∧
      ∀ o ∈ rest,
        (∃ i', ingestOne c input k.crawlId k.buried i o = .ok i') ∧
        (i.alreadyHeld c k.buried input.adapterId o = true →
          ∃ row, i.db.observations.filter (fun r => r.adapterId == input.adapterId &&
              r.observation.localId == o.localId &&
              decide (r.revision = i.stampedRevision input.adapterId o)) = [row] ∧
            i.head input.adapterId o = some row.revisioned) := by
  have hdb := consistent_run c actions
  refine ⟨hdb.revisions, fun a done row rest => hdb.ingest_replay, ?_, ?_⟩
  · intro input script hopened
    rcases sweep_outcome (some MAX_PAGES) c hdb input script with
      ⟨e, h⟩ | ⟨k, db₁, events, hopen, -, hends⟩
    · simp [sweepResource, h, unopened] at hopened
    · have hfold := hends.fold
      rwa [hopen.input_eq] at hfold
  · intro input script k i rest hpoint
    obtain ⟨hagrees, hmeta, hown⟩ := hpoint.agrees hdb
    refine ⟨hagrees.fold, ?_, ?_⟩
    · intro l hne
      refine hmeta l ?_
      have hsome := List.getLast?_isSome.mpr hne
      rwa [hagrees.chain_getLast?, Option.isSome_map] at hsome
    · intro o ho
      obtain ⟨i', hok, -⟩ := ingestOne_spec (c := c) hagrees (hown o ho)
      exact ⟨⟨i', hok⟩, hagrees.stamped⟩

end Sumer.Store
