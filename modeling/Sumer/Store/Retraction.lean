import Sumer.Store.Crawls
import Sumer.Store.Sample

set_option relaxedAutoImplicit false
set_option autoImplicit false

/-!
# Retractions

Which records a sweep retracts: exactly the live ones of its resource that it neither saw nor
named and that lie in its reach, and none at all unless every condition for reading an absence as
evidence holds.

## Main definitions

* `Sumer.Store.SweepRun.unretracted`: the tables of a sweep without the retractions it wrote.
* `Sumer.Store.UnconfirmedEmpty`: the exemption of an empty sweep.
* `Sumer.Store.Justified`: everything that has to hold for a retraction to be written.

## Main results

* `Sumer.Store.retraction_exact`: what a sweep retracts, and what it leaves alone.
* `Sumer.Store.retraction_sound`: every retraction of a reachable database is justified.
-/

namespace Sumer.Store

open Sumer.Wire Sumer.Host

/-- The tables a sweep of `db` leaves, without the retractions it wrote. -/
def SweepRun.unretracted (r : SweepRun) (db : Db) : Db :=
  { r.db with retractions := db.retractions }

/-- A sweep saw nothing, would retract something, and has no leave to retract all there is. -/
def UnconfirmedEmpty (db : Db) (input : SweepInput) (seen : List String) : Prop :=
  seen = [] ∧ (∃ l, db.Live input.adapterId input.resourceId l) ∧
    input.options.confirmEmpty = false

/-- The retractions of one chain. -/
def Db.retractionRows (db : Db) (a l : String) : List RetractionRow :=
  db.retractions.filter fun ρ => ρ.adapterId == a && ρ.localId == l

/-! ### What is absent -/

section Absent

variable {db : Db} {input : SweepInput} {seen named : List String}

/-- A local id is live if it is among the live records. -/
lemma Db.Consistent.live_iff (hdb : db.Consistent) {a r l : String} :
    db.Live a r l ↔ ∃ x ∈ liveRecords db a r, x.1 = l := by
  constructor
  · intro hlive
    have ⟨head, hhead, _⟩ := hlive
    refine ⟨(l, (db.chainRows a l).length, head.observation), (mem_liveRecords hdb).mpr ?_, rfl⟩
    exact ⟨hlive, rfl, by simp [hhead]⟩
  · rintro ⟨x, hx, rfl⟩
    exact ((mem_liveRecords hdb).mp hx).1

/-- The exemption of an empty sweep, by the live records it loads. -/
lemma Db.Consistent.emptyExempt_iff (hdb : db.Consistent) :
    emptyExempt input seen (liveRecords db input.adapterId input.resourceId) = true ↔
      UnconfirmedEmpty db input seen := by
  have hlive : (∃ l, db.Live input.adapterId input.resourceId l) ↔
      liveRecords db input.adapterId input.resourceId ≠ [] := by
    constructor
    · rintro ⟨l, hl⟩
      obtain ⟨x, hx, -⟩ := hdb.live_iff.mp hl
      exact List.ne_nil_of_mem hx
    · intro hne
      obtain ⟨x, hx⟩ := List.exists_mem_of_ne_nil _ hne
      exact ⟨x.1, hdb.live_iff.mpr ⟨x, hx, rfl⟩⟩
  rw [UnconfirmedEmpty, hlive]
  simp [emptyExempt, and_assoc]

/-- **Which local ids are absent**: with the vantage unmoved and no unconfirmed empty sweep, those
that are live under the resource, were neither seen nor named, and whose head lies in reach. -/
lemma Db.Consistent.mem_absent_iff (hdb : db.Consistent) {l : String} :
    l ∈ (db.absent input seen named).map Prod.fst ↔
      db.vantageMoved input = none ∧ ¬ UnconfirmedEmpty db input seen ∧
        db.Live input.adapterId input.resourceId l ∧ l ∉ seen ∧ l ∉ named ∧
          ∀ head, db.headRow input.adapterId l = some head →
            inReach input.historyStart head.observation = true := by
  rw [← hdb.emptyExempt_iff, List.mem_map]
  constructor
  · rintro ⟨x, hx, rfl⟩
    obtain ⟨hvantage, hempty, hlive, hseen, hnamed, hreach⟩ := Db.mem_absent.mp hx
    obtain ⟨hl, -, hhead⟩ := (mem_liveRecords hdb).mp hlive
    refine ⟨hvantage, by simp [hempty], hl, hseen, hnamed, ?_⟩
    intro head hhead'
    have heq : head.observation = x.2.2 := by simpa [hhead'] using hhead
    exact heq ▸ hreach
  · rintro ⟨hvantage, hempty, hl, hseen, hnamed, hreach⟩
    obtain ⟨x, hx, rfl⟩ := hdb.live_iff.mp hl
    obtain ⟨head, hhead, heq⟩ := Option.map_eq_some_iff.mp ((mem_liveRecords hdb).mp hx).2.2
    refine ⟨x, Db.mem_absent.mpr ⟨hvantage, by simpa using hempty, hx, hseen, hnamed, ?_⟩, rfl⟩
    exact heq ▸ hreach head hhead

end Absent

/-! ### What a sweep retracts -/

section Sweep

variable {c : Crates} {db db₁ : Db} {input : SweepInput} {script : Script} {k : OpenCrawl}
  {events : List Event} {r : SweepRun}

/-- A sweep's tables before its retractions, by what it observed. -/
lemma Ends.unretracted_eq (h : Ends c script k db₁ events r)
    (hopen : Opened c db input script k db₁) :
    (r.unretracted db).Live = (observedTables c k db₁ r.committed).Live ∧
      (r.unretracted db).headRow = (observedTables c k db₁ r.committed).headRow ∧
      (r.unretracted db).chainRows = (observedTables c k db₁ r.committed).chainRows :=
  ⟨Db.live_congr h.observations (by simp [SweepRun.unretracted, observedTables, hopen.retractions]),
    Db.headRow_congr h.observations, Db.chainRows_congr h.observations⟩

/-- The highest revision of a chain that has rows is their number. -/
lemma Db.Consistent.max_revision (hdb : db.Consistent) {a l : String}
    (hrows : db.chainRows a l ≠ []) :
    ((db.chainRows a l).map StoredObservation.revision).max? =
      some (db.chainRows a l).length := by
  have hpos := List.length_pos_iff.mpr hrows
  rw [hdb.revisions, List.max?_eq_some_iff]
  simp only [List.mem_range'_1]
  exact ⟨by omega, fun b hb => by omega⟩

/-- Liveness is a matter of the rows and the retractions of one chain. -/
lemma Db.live_iff_of_chain {db' : Db} {a l : String} (hrows : db'.chainRows a l = db.chainRows a l)
    (hret : db'.retractionRows a l = db.retractionRows a l) (resourceId : String) :
    db'.Live a resourceId l ↔ db.Live a resourceId l := by
  have hhead : db'.headRow a l = db.headRow a l := by rw [Db.headRow, hrows, Db.headRow]
  have hwater : db'.retractionHighWater a l = db.retractionHighWater a l :=
    congrArg (fun rows => (rows.map RetractionRow.revision).max?) hret
  have hburied : db'.buried a l = db.buried a l := by
    rw [Db.buried, Db.buried, isBuried, isBuried, hwater, hrows]
  rw [Db.Live, Db.Live, hhead, hburied]

/-- The rows a sweep retires records with, and the tables before them.

**Proof sketch.** The tables before the retractions are those with all committed pages observed, so
they have the same live records and heads (`unretracted_eq`), and the vantage and the emptiness are
decided alike. A sweep that is not complete appended nothing, and its list is empty; a complete one
appended the rows of the absent records, and absent is what the condition says. The revision of a
row is the length of its chain, because the revisions of a consistent chain count its rows. -/
lemma Ends.retracted (h : Ends c script k db₁ events r) (hopen : Opened c db input script k db₁)
    (hdb : db.Consistent) :
    ∃ new, r.db.retractions = db.retractions ++ new ∧
      (∀ l, l ∈ new.map RetractionRow.localId ↔ r.Complete ∧ db.vantageMoved input = none ∧
        ¬ UnconfirmedEmpty (r.unretracted db) input (allObserved input r.committed) ∧
        (r.unretracted db).Live input.adapterId input.resourceId l ∧
        l ∉ allObserved input r.committed ∧ l ∉ allExempt input r.committed ∧
        ∀ head, (r.unretracted db).headRow input.adapterId l = some head →
          inReach input.historyStart head.observation = true) ∧
      (new.map RetractionRow.localId).Nodup ∧
      ∀ ρ ∈ new, ρ.adapterId = input.adapterId ∧ ρ.crawlId = k.crawlId ∧
        ρ.revision = (r.db.chainRows input.adapterId ρ.localId).length ∧
        ρ.reason = retractionReason input (db.headRules input.adapterId ρ.localId) := by
  obtain rfl : k.input = input := hopen.input_eq
  have hobserved : (observedTables c k db₁ r.committed).Consistent :=
    (hopen.consistent hdb).observeAll fun o ho => provenance_of_mem_allKept ho
  obtain ⟨hlive, hhead, hrows⟩ := h.unretracted_eq hopen
  have hvantage : (observedTables c k db₁ r.committed).vantageMoved k.input =
      db.vantageMoved k.input := by
    simp [Db.vantageMoved, Db.resource, observedTables, hopen.resources]
  have hempty : UnconfirmedEmpty (r.unretracted db) k.input (allObserved k.input r.committed) ↔
      UnconfirmedEmpty (observedTables c k db₁ r.committed) k.input
        (allObserved k.input r.committed) := by
    rw [UnconfirmedEmpty, UnconfirmedEmpty, hlive]
  rcases h.retractions with ⟨hincomplete, hret⟩ | ⟨hcomplete, -, hret⟩
  · refine ⟨[], by simp [hret, hopen.retractions], fun l => ?_, List.nodup_nil,
      List.forall_mem_nil _⟩
    simp [hincomplete]
  · refine ⟨_, by rw [hret, hopen.retractions], fun l => ?_, ?_, ?_⟩
    · rw [hempty, hlive, hhead, ← hvantage, List.map_map]
      simp only [hcomplete, true_and]
      exact hobserved.mem_absent_iff
    · rw [List.map_map]
      exact Db.nodup_absent
    · intro ρ hρ
      obtain ⟨x, hx, rfl⟩ := List.mem_map.mp hρ
      refine ⟨rfl, rfl, ?_, ?_⟩
      · have hrev := (hobserved.live_of_absent hx).2
        rw [Db.chainRows_congr h.observations]
        exact hrev
      · have hunseen := Db.notMem_of_absent hx
        have hrules : (observedTables c k db₁ r.committed).headRules k.input.adapterId x.1 =
            db.headRules k.input.adapterId x.1 := by
          rw [← Db.headRules_congr hopen.observations, Db.headRules, observedTables,
            Db.headRow_observeAll_of_notMem fun h => hunseen h.2, Db.headRules]
        simp [retractionRow, hrules]

/-- A chain a sweep did not observe keeps its rows. -/
lemma Ends.chainRows_of_notMem (h : Ends c script k db₁ events r)
    (hopen : Opened c db input script k db₁) {a l : String}
    (hl : a ≠ input.adapterId ∨ l ∉ allObserved input r.committed) :
    r.db.chainRows a l = db.chainRows a l := by
  obtain rfl : k.input = input := hopen.input_eq
  have hframe : ¬(a = k.input.adapterId ∧
      l ∈ (allKept k.input r.committed).map Observation.localId) := fun ⟨ha, hmem⟩ =>
    hl.elim (fun hne => hne ha) fun hnot => hnot hmem
  rw [Db.chainRows_congr h.observations, observedTables, Db.chainRows_observeAll_of_notMem hframe,
    Db.chainRows_congr hopen.observations]

/-- What a sweep retires, whether it opened or not. -/
lemma sweep_retracted (pageLimit : Option ℕ) (c : Crates) (hdb : db.Consistent)
    (input : SweepInput) (script : Script) :
    let out := sweepWithin pageLimit c db input script
    ∃ new, out.db.retractions = db.retractions ++ new ∧
      (∀ l, l ∈ new.map RetractionRow.localId ↔ out.Complete ∧ db.vantageMoved input = none ∧
        ¬ UnconfirmedEmpty (out.unretracted db) input (allObserved input out.committed) ∧
        (out.unretracted db).Live input.adapterId input.resourceId l ∧
        l ∉ allObserved input out.committed ∧ l ∉ allExempt input out.committed ∧
        ∀ head, (out.unretracted db).headRow input.adapterId l = some head →
          inReach input.historyStart head.observation = true) ∧
      (new.map RetractionRow.localId).Nodup ∧
      (∀ ρ ∈ new, ρ.adapterId = input.adapterId ∧
        ρ.revision = (out.db.chainRows input.adapterId ρ.localId).length) ∧
      ∀ a l, (a ≠ input.adapterId ∨ l ∉ allObserved input out.committed) →
        out.db.chainRows a l = db.chainRows a l := by
  intro out
  rcases sweep_outcome pageLimit c hdb input script with ⟨e, h⟩ | ⟨k, db₁, events, hopen, -, hends⟩
  · have hout : out = unopened db script e := h
    have hincomplete : ¬ out.Complete := by
      rw [hout]
      rintro ⟨report, hended, -⟩
      cases hended
    refine ⟨[], by simp [hout, unopened], fun l => by simp [hincomplete], List.nodup_nil, nofun, ?_⟩
    intro a l _
    rw [hout]
    rfl
  · obtain ⟨new, hnew, hids, hnodup, hrows⟩ := hends.retracted hopen hdb
    exact ⟨new, hnew, hids, hnodup, fun ρ hρ => ⟨(hrows ρ hρ).1, (hrows ρ hρ).2.2.1⟩,
      fun a l hl => hends.chainRows_of_notMem hopen hl⟩

end Sweep

/-- **What a sweep retracts, and what it leaves alone.** A sweep of a reachable database appends
retractions. If it is complete and hits neither exemption of a whole sweep, they name exactly the
local ids that are live under its resource once its observations are in, that no page of it kept,
that no degraded entry names and whose head lies in its reach: each once, at the highest revision
of its chain. Otherwise there are none. A chain the sweep did not observe keeps its rows, a chain
it did not retract keeps its retractions, and with both it keeps its liveness; and no revision is
ever retracted twice.

**Proof sketch.** `sweep_retracted` says which rows a sweep appends and on what conditions; the
parts of the theorem are read off it. A complete sweep with neither exemption appends the listed
ids, and each at the highest revision of its chain because the row names the head. If one of the
three conditions fails, a row in the list would meet it, so there is none. For the frame, liveness
depends on the rows and retractions of one chain only (`Db.live_iff_of_chain`); for a record that
was retracted under another resource it was not live there before and is not now. That no revision
is retracted twice is an invariant of reachable databases. -/
theorem retraction_exact (c : Crates) (actions : List Action) (input : SweepInput)
    (script : Script) :
    let db := run c actions
    let out := sweepResource c db input script
    let before := out.unretracted db
    let seen := allObserved input out.committed
    let named := allExempt input out.committed
    ∃ new, out.db.retractions = db.retractions ++ new ∧
      (out.Complete → db.vantageMoved input = none → ¬ UnconfirmedEmpty before input seen →
        (∀ l, l ∈ new.map RetractionRow.localId ↔
          before.Live input.adapterId input.resourceId l ∧ l ∉ seen ∧ l ∉ named ∧
            ∀ head, before.headRow input.adapterId l = some head →
              inReach input.historyStart head.observation = true) ∧
        (new.map RetractionRow.localId).Nodup ∧
        ∀ ρ ∈ new, ρ.adapterId = input.adapterId ∧
          ((out.db.chainRows input.adapterId ρ.localId).map StoredObservation.revision).max? =
            some ρ.revision) ∧
      (¬ out.Complete ∨ db.vantageMoved input ≠ none ∨ UnconfirmedEmpty before input seen →
        new = []) ∧
      (∀ a l, (a ≠ input.adapterId ∨ l ∉ seen) → out.db.chainRows a l = db.chainRows a l) ∧
      (∀ a l, (a ≠ input.adapterId ∨ l ∉ new.map RetractionRow.localId) →
        out.db.retractionRows a l = db.retractionRows a l) ∧
      (∀ a resourceId l, (a ≠ input.adapterId ∨ l ∉ seen) →
        (a ≠ input.adapterId ∨ resourceId ≠ input.resourceId ∨
          l ∉ new.map RetractionRow.localId) →
          (out.db.Live a resourceId l ↔ db.Live a resourceId l)) ∧
      (out.db.retractions.map fun ρ => (ρ.adapterId, ρ.localId, ρ.revision)).Nodup := by
  intro db out before seen named
  have hdb : db.Consistent := consistent_run c actions
  have hout : out.db.Consistent := consistent_sweepWithin _ c hdb input script
  have hsweep := sweep_retracted (some MAX_PAGES) c hdb input script
  have hwithin : sweepWithin (some MAX_PAGES) c db input script = out := rfl
  simp only [hwithin] at hsweep
  obtain ⟨new, hnew, hids, hnodup, hrevisions, hframe⟩ := hsweep
  have hret (a l : String) (hl : a ≠ input.adapterId ∨ l ∉ new.map RetractionRow.localId) :
      out.db.retractionRows a l = db.retractionRows a l := by
    have hnone : new.filter (fun ρ => ρ.adapterId == a && ρ.localId == l) = [] := by
      refine List.filter_eq_nil_iff.mpr fun ρ hρ => ?_
      have hadapter := (hrevisions ρ hρ).1
      have hmem := List.mem_map_of_mem (f := RetractionRow.localId) hρ
      simp only [Bool.and_eq_true, beq_iff_eq, not_and]
      rintro rfl rfl
      exact hl.elim (fun hne => hne hadapter) fun hnot => hnot hmem
    rw [Db.retractionRows, hnew, List.filter_append, hnone, List.append_nil, Db.retractionRows]
  refine ⟨new, hnew, ?_, ?_, hframe, hret, ?_, hout.retractedOnce⟩
  · intro hcomplete hvantage hempty
    refine ⟨fun l => ?_, hnodup, fun ρ hρ => ⟨(hrevisions ρ hρ).1, ?_⟩⟩
    · rw [hids]
      simp only [hcomplete, hvantage, true_and]
      exact and_iff_right hempty
    · have hlive := ((hids ρ.localId).mp (List.mem_map_of_mem hρ)).2.2.2.1
      obtain ⟨head, hhead, -⟩ := hlive
      have hmem : head ∈ out.db.chainRows input.adapterId ρ.localId := Db.mem_of_headRow hhead
      rw [hout.max_revision (List.ne_nil_of_mem hmem)]
      exact congrArg some (hrevisions ρ hρ).2.symm
  · intro hexempt
    by_contra hne
    obtain ⟨ρ, hρ⟩ := List.exists_mem_of_ne_nil _ hne
    obtain ⟨hcomplete, hvantage, hempty, -⟩ := (hids ρ.localId).mp (List.mem_map_of_mem hρ)
    rcases hexempt with h | h | h
    · exact h hcomplete
    · exact h hvantage
    · exact hempty h
  · intro a resourceId l hseen hl
    by_cases hretracted : a = input.adapterId ∧ l ∈ new.map RetractionRow.localId
    · obtain ⟨rfl, hmem⟩ := hretracted
      have hresource : resourceId ≠ input.resourceId :=
        (hl.resolve_left fun h => h rfl).resolve_right fun h => h hmem
      obtain ⟨head, hhead, -, hr, -⟩ := ((hids l).mp hmem).2.2.2.1
      have hafter : out.db.headRow input.adapterId l = some head := hhead
      have hbefore : db.headRow input.adapterId l = some head := by
        rw [← hafter, Db.headRow, Db.headRow, ← hframe input.adapterId l hseen]
      refine iff_of_false ?_ ?_
      · rintro ⟨head', hhead', -, hr', -⟩
        obtain rfl := Option.some.inj (hafter.symm.trans hhead')
        exact hresource (hr'.symm.trans hr)
      · rintro ⟨head', hhead', -, hr', -⟩
        obtain rfl := Option.some.inj (hbefore.symm.trans hhead')
        exact hresource (hr'.symm.trans hr)
    · exact Db.live_iff_of_chain (hframe a l hseen) (hret a l (by tauto)) resourceId

/-! ### Why a retraction was written -/

/-- Everything that holds of a retraction that a sweep of `db` wrote. -/
structure Justified (db : Db) (input : SweepInput) (script : Script) (out : SweepRun)
    (ρ : RetractionRow) : Prop where
  written : ρ ∈ out.db.retractions ∧ ρ ∉ db.retractions ∧ ρ.adapterId = input.adapterId
  crawl : ∃ crawl ∈ out.db.crawls, crawl.crawlId = ρ.crawlId ∧
    crawl.adapterId = input.adapterId ∧ crawl.resourceId = input.resourceId ∧
    crawl.startPage = none ∧ crawl.drained = true ∧ crawl.complete = true
  fetched : ∀ read ∈ out.committed, ∃ status pageEmpty,
    statusFor input read = some status ∧ status.outcome = .fetched pageEmpty
  exactCursor : ∀ read ∈ out.committed, ∃ page,
    pageReply input read = some page ∧ page.cursorResumable = .exact
  noAnonymous : ∀ read ∈ out.committed, ∀ status, statusFor input read = some status →
    ∀ d ∈ status.degraded, d.localId ≠ none
  noForeign : ∀ read ∈ out.committed, ∀ o ∈ read.observations,
    o.provenance.adapterId = input.adapterId
  derivation : input.helloDerivation ≠ ""
  /-- No violation was known before the sweep, and none came to light before its last commit. -/
  noViolation : input.connectionViolation = none ∧ script.verdict = none ∧
    ∃ events last rest, script.events = events ++ .reply (.ok last) false :: rest ∧
      out.committed = repliesOf events ++ [last] ∧ ∀ kind, Event.violation kind ∉ events
  live : (out.unretracted db).Live input.adapterId input.resourceId ρ.localId
  unseen : ∀ read ∈ out.committed, ∀ o ∈ keptObservations input read.observations,
    o.localId ≠ ρ.localId
  unnamed : ∀ read ∈ out.committed, ∀ status, statusFor input read = some status →
    ∀ d ∈ status.degraded, d.localId ≠ some ρ.localId
  confirmed : (∀ read ∈ out.committed, keptObservations input read.observations = []) →
    input.options.confirmEmpty = true
  vantage : ∀ resource previous, db.resource input.adapterId input.resourceId = some resource →
    resource.lastProviderId = some previous → previous = input.providerId
  inReach : ∀ start, input.historyStart = some start →
    ∃ head, (out.unretracted db).headRow input.adapterId ρ.localId = some head ∧
      ∃ i j, instant (head.observation.provenance.effectiveAt.getD
          head.observation.provenance.observedAt) = some i ∧
        instant start = some j ∧ toLex j ≤ toLex i

section Sound

variable {c : Crates} {db db₁ : Db} {input : SweepInput} {script : Script} {k : OpenCrawl}
  {events : List Event} {r : SweepRun} {ρ : RetractionRow}

/-- A verdict that stays empty saw no violation. -/
lemma latch_eq_none_iff {verdict : Option ProtocolViolationKind} :
    latch verdict events = none ↔ verdict = none ∧ ∀ kind, Event.violation kind ∉ events := by
  induction events using List.reverseRecOn with
  | nil => simp [latch]
  | append_singleton events e ih =>
    rw [latch_concat]
    cases e with
    | violation kind =>
      refine iff_of_false (by simp) ?_
      rintro ⟨-, h⟩
      exact h kind (by simp)
    | reply answer fault => simpa using ih

/-- The events of a complete sweep: pages that have a next one, then one that has none. -/
lemma Ends.events_of_complete (h : Ends c script k db₁ events r) (hcomplete : r.Complete) :
    ∃ before last, events = before ++ [.reply (.ok last) false] ∧
      r.committed = repliesOf before ++ [last] ∧
      (∀ read ∈ repliesOf before, (pageNext k.input read).isSome = true) ∧
      (pageReply k.input last).isSome = true := by
  cases h with
  | cut hat hended =>
    obtain ⟨report, hreport, -⟩ := hcomplete
    exact absurd hreport (hended report)
  | early hat reason report hincomplete =>
    exact absurd hcomplete (SweepRun.not_complete rfl hincomplete)
  | partialSweep hat hstatus hlast reason hgate report hincomplete =>
    exact absurd hcomplete (SweepRun.not_complete rfl hincomplete)
  | complete hat hstatus hlast hgate report =>
    refine ⟨_, _, rfl, by simp [hat.committed], hat.committed ▸ hat.next_isSome, ?_⟩
    simpa [pageReply, hstatus] using hgate.drained

/-- An instant that is not before another. -/
lemma notBefore_iff {ts start : Rfc3339} :
    notBefore ts start = true ↔
      ∃ i j, instant ts = some i ∧ instant start = some j ∧ toLex j ≤ toLex i := by
  unfold notBefore
  cases instant ts <;> cases instant start <;> simp [Prod.Lex.toLex_le_toLex]

/-- Every page of a complete sweep answered for the resource with a page: the earlier ones named a
next one, and the last was taken to drain the history. -/
lemma Ends.isSome_pageReply (h : Ends c script k db₁ events r) (hcomplete : r.Complete) :
    ∀ read ∈ r.committed, (pageReply k.input read).isSome = true := by
  obtain ⟨before, last, -, hcommitted, hnext, hreply⟩ := h.events_of_complete hcomplete
  intro read hread
  rw [hcommitted, List.mem_append, List.mem_singleton] at hread
  rcases hread with hread | rfl
  · have hsome := hnext read hread
    cases hp : pageReply k.input read with
    | none => simp [pageNext, hp] at hsome
    | some page => rfl
  · exact hreply

section Qualifies

variable {pages : List HistoryRead} {drained : Bool} {verdict : Option ProtocolViolationKind}
  {read : HistoryRead}

/-- A page that a sweep was not disqualified by fetched the resource. -/
lemma Qualifies.outcome (h : Qualifies k pages drained verdict) (hread : read ∈ pages) :
    ∃ status pageEmpty, statusFor k.input read = some status ∧
      status.outcome = .fetched pageEmpty := by
  have hfetched := h.fetched read hread
  simp only [pageFetched, Option.any_eq_true] at hfetched
  obtain ⟨status, hstatus, houtcome⟩ := hfetched
  cases hout : status.outcome <;> simp [hout, isFetched] at houtcome
  exact ⟨status, _, hstatus, hout⟩

/-- A page that a sweep was not disqualified by promised that its cursor resumes exactly. -/
lemma Qualifies.exact (h : Qualifies k pages drained verdict) (hread : read ∈ pages)
    (hpage : (pageReply k.input read).isSome = true) :
    ∃ page, pageReply k.input read = some page ∧ page.cursorResumable = .exact := by
  obtain ⟨page, hp⟩ := Option.isSome_iff_exists.mp hpage
  have hexact := h.exactCursor read hread
  exact ⟨page, hp, by simpa [pageExact, hp] using hexact⟩

/-- A page that a sweep was not disqualified by named every record that it degraded. -/
lemma Qualifies.localId_ne_none (h : Qualifies k pages drained verdict) (hread : read ∈ pages)
    {status : ResourceStatus} (hstatus : statusFor k.input read = some status) :
    ∀ d ∈ status.degraded, d.localId ≠ none := fun d hd => by
  have hnamed := h.named read hread
  simp only [pageAnonymous, hstatus, Option.any_some, List.any_eq_false] at hnamed
  simpa [Option.isNone_iff_eq_none] using hnamed d hd

/-- A page that a sweep was not disqualified by carried records of its own adapter only. -/
lemma Qualifies.adapterId (h : Qualifies k pages drained verdict) (hread : read ∈ pages) :
    ∀ o ∈ read.observations, o.provenance.adapterId = k.input.adapterId := fun o ho => by
  have hown := h.own read hread
  simp only [pageForeign, namesAnotherAdapter, List.any_eq_false] at hown
  simpa using hown o ho

end Qualifies

/-- **A sweep justifies every retraction it writes.**

**Proof sketch.** The rows that a sweep adds are those of the local ids that `Ends.retracted`
describes, so of the retracted one all that is known which the last transaction tests before it
retires a record: it was live, it was neither seen nor named, the vantage had not moved, and the
reach and the confirmation of an empty history were in order. The retraction also says that the
sweep is complete, so that its crawl is closed as a complete one (`Ends.crawls`), that its pages are
all of its events (`Ends.events_of_complete`), and that none of the nine conditions disqualified it
(`Qualifies`), each of which is a field of the justification. -/
lemma Ends.justified (h : Ends c script k db₁ events r) (hopen : Opened c db input script k db₁)
    (hbegins : events <+: script.events) (hdb : db.Consistent) (hnew : ρ ∉ db.retractions)
    (hρ : ρ ∈ r.db.retractions) : Justified db input script r ρ := by
  obtain ⟨new, hret, hids, -, hrows⟩ := h.retracted hopen hdb
  have hmem : ρ ∈ new := (List.mem_append.mp (hret ▸ hρ)).resolve_left hnew
  obtain ⟨hcomplete, hvantage, hempty, hlive, hseen, hnamed, hreach⟩ :=
    (hids ρ.localId).mp (List.mem_map_of_mem hmem)
  obtain ⟨hadapter, hcrawlId, -⟩ := hrows ρ hmem
  have hqualifies : Qualifies k r.committed true r.verdict := by
    rcases h.retractions with ⟨hincomplete, -⟩ | ⟨-, hqualifies, -⟩
    · exact absurd hcomplete hincomplete
    · exact hqualifies
  obtain ⟨crawl, hcrawls, hclosed⟩ := h.crawls hopen
  obtain ⟨before, last, hevents, hcommitted, -, -⟩ := h.events_of_complete hcomplete
  have hpage := h.isSome_pageReply hcomplete
  obtain rfl : k.input = input := hopen.input_eq
  have hverdict := latch_eq_none_iff.mp (h.verdict.symm.trans hqualifies.noViolation.2)
  exact {
    written := ⟨hρ, hnew, hadapter⟩
    crawl := by
      refine ⟨crawl, by simp [hcrawls], hclosed.crawlId.trans hcrawlId.symm, hclosed.adapterId,
        hclosed.resourceId, ?_⟩
      have hrow := hclosed.complete.mpr hcomplete
      exact ⟨(hclosed.qualified hrow).2, (hclosed.qualified hrow).1, hrow⟩
    fetched := fun read hread => hqualifies.outcome hread
    exactCursor := fun read hread => hqualifies.exact hread (hpage read hread)
    noAnonymous := fun read hread status hstatus => hqualifies.localId_ne_none hread hstatus
    noForeign := fun read hread => hqualifies.adapterId hread
    derivation := fun hnil => by simpa [hnil] using hqualifies.derivation
    noViolation := by
      obtain ⟨rest, hrest⟩ := hbegins
      refine ⟨hqualifies.noViolation.1, hverdict.1, before, last, rest, ?_, hcommitted, ?_⟩
      · simp [← hrest, hevents]
      · intro kind hkind
        exact hverdict.2 kind (by simp [hevents, hkind])
    live := hlive
    unseen := fun read hread o ho heq => by
      refine hseen (heq ▸ List.mem_map_of_mem ?_)
      exact mem_allKept.mpr ⟨read, hread, ho⟩
    unnamed := fun read hread status hstatus d hd heq => by
      refine hnamed (List.mem_flatMap.mpr ⟨read, hread, ?_⟩)
      simp only [pageExempt, hstatus, Option.map_some, Option.getD_some, List.mem_filterMap]
      exact ⟨d, hd, heq⟩
    confirmed := fun hnone => by
      by_contra hunconfirmed
      refine hempty ⟨?_, ⟨ρ.localId, hlive⟩, by simpa using hunconfirmed⟩
      have hkept : allKept k.input r.committed = [] := List.flatMap_eq_nil_iff.mpr hnone
      rw [allObserved, hkept]
      rfl
    vantage := fun resource previous hresource hprevious => by
      by_contra hne
      simp [Db.vantageMoved, hresource, hprevious, hne] at hvantage
    inReach := fun start hstart => by
      obtain ⟨head, hhead, -⟩ := id hlive
      refine ⟨head, hhead, notBefore_iff.mp ?_⟩
      simpa [Store.inReach, hstart] using hreach head hhead }

/-- Of a sweep: every retraction it adds is justified. -/
lemma sweep_justified (hdb : db.Consistent) (hnew : ρ ∉ db.retractions)
    (hρ : ρ ∈ (sweepResource c db input script).db.retractions) :
    Justified db input script (sweepResource c db input script) ρ := by
  rcases sweep_outcome (some MAX_PAGES) c hdb input script with
    ⟨e, h⟩ | ⟨k, db₁, events, hopen, hbegins, hends⟩
  · have hsame : (sweepResource c db input script).db = db := congrArg SweepRun.db h
    exact absurd (hsame ▸ hρ) hnew
  · exact hends.justified hopen hbegins hdb hnew hρ

/-- Of a sweep: either no condition disqualifies it, or it is not complete and retracts nothing. -/
lemma sweep_qualifies (hdb : db.Consistent) :
    (¬ (sweepResource c db input script).Complete ∧
      (sweepResource c db input script).db.retractions = db.retractions) ∨
    ∃ k : OpenCrawl, k.input = input ∧ Qualifies k (sweepResource c db input script).committed
      true (sweepResource c db input script).verdict := by
  rcases sweep_outcome (some MAX_PAGES) c hdb input script with
    ⟨e, h⟩ | ⟨k, db₁, events, hopen, hbegins, hends⟩
  · rw [sweepResource, h]
    refine Or.inl ⟨?_, rfl⟩
    rintro ⟨report, hreport, -⟩
    exact nomatch hreport
  · rcases hends.retractions with ⟨hincomplete, hret⟩ | ⟨-, hqualifies, -⟩
    · exact Or.inl ⟨hincomplete, hret.trans hopen.retractions⟩
    · exact Or.inr ⟨k, hopen.input_eq, hqualifies⟩

end Sound

/-- **Retraction soundness.** Every retraction of a reachable database was written by some sweep
of the run, under every condition for reading an absence as evidence, and the crawl of that sweep
is on record as complete, drained and begun at the start of history.

**Proof sketch.** The action that wrote the retraction is found in the run; it is a sweep, since
writes retract nothing, and what a sweep retracts is justified (`Ends.justified`). The crawl of that
sweep stays on record, but for its cursor, through all later actions (`crawl_persists`). -/
theorem retraction_sound (c : Crates) (actions : List Action) :
    ∀ ρ ∈ (run c actions).retractions,
      (∃ before input script after, actions = before ++ .sweep input script :: after ∧
        Justified (run c before) input script (sweepResource c (run c before) input script) ρ) ∧
      ∃ crawl ∈ (run c actions).crawls, crawl.crawlId = ρ.crawlId ∧ crawl.startPage = none ∧
        crawl.drained = true ∧ crawl.complete = true := by
  intro ρ hρ
  obtain ⟨before, a, after, rfl, hnew, hwritten⟩ :=
    exists_first (Action.apply c) (fun db => ρ ∈ db.retractions) (s := Db.empty)
      List.not_mem_nil hρ
  have hdb := consistent_run c before
  cases a with
  | write w => exact absurd ((w.apply_eq _).2.2 ▸ hwritten) hnew
  | sweep input script =>
    have hjustified : Justified (run c before) input script
        (sweepResource c (run c before) input script) ρ := sweep_justified hdb hnew hwritten
    refine ⟨⟨before, input, script, after, rfl, hjustified⟩, ?_⟩
    obtain ⟨crawl, hcrawl, hid, -, -, hstart, hdrained, hcomplete⟩ := hjustified.crawl
    have hrun : crawl ∈ (run c (before ++ [.sweep input script])).crawls := by
      rw [run_concat]
      exact hcrawl
    obtain ⟨crawl', hcrawl', hsame⟩ := crawl_persists c _ after hrun
    rw [List.append_assoc, List.singleton_append] at hcrawl'
    refine ⟨crawl', hcrawl', ?_⟩
    rcases hsame with rfl | rfl <;> exact ⟨hid, hstart, hdrained, hcomplete⟩

/-- An account with two payments, of which the bank no longer reports one the next day. -/
def rentLapsed : List Action :=
  [.write (.upsertAdapter "bank" []),
    .sweep (Sample.sweep "checking" "d1") (Sample.script Sample.day₁
      [Sample.page "checking" none
        [Sample.record "checking" "x" "api" "rent" .active Sample.day₁,
          Sample.record "checking" "y" "api" "food" .active Sample.day₁]]),
    .sweep (Sample.sweep "checking" "d1") (Sample.script Sample.day₂
      [Sample.page "checking" none
        [Sample.record "checking" "y" "api" "food" .active Sample.day₂]])]

/-- The absence of the payment is retracted by some sweep of the run, and that sweep was
justified. -/
theorem retraction_sound_lapsed :
    ∃ ρ ∈ (run Sample.crates rentLapsed).retractions,
      (∃ before input script after, rentLapsed = before ++ .sweep input script :: after ∧
        Justified (run Sample.crates before) input script
          (sweepResource Sample.crates (run Sample.crates before) input script) ρ) ∧
      ∃ crawl ∈ (run Sample.crates rentLapsed).crawls, crawl.crawlId = ρ.crawlId ∧
        crawl.startPage = none ∧ crawl.drained = true ∧ crawl.complete = true := by
  have hone : 0 < (run Sample.crates rentLapsed).retractions.length := by decide +kernel
  obtain ⟨ρ, hρ⟩ := List.exists_mem_of_length_pos hone
  exact ⟨ρ, hρ, retraction_sound Sample.crates rentLapsed ρ hρ⟩

end Sumer.Store
