import Sumer.Store.Crawls

set_option relaxedAutoImplicit false
set_option autoImplicit false

/-!
# Crash atomicity

What a sweep leaves on disk wherever it stops. Its script may end at any event, and the commit
that follows any event may fail, so a statement about all scripts is one about every crash point
and every error point.

## Main definitions

* `Sumer.Store.LeftBetweenPages`, `Sumer.Store.LeftByFinalPage`: the two kinds of state a sweep
  leaves once its crawl is open.

## Main results

* `Sumer.Store.sweepWithin_fault`: a commit that fails is as good as a death before it.
* `Sumer.Store.sweep_atomic`: every durable state is that of a prefix of the committed pages.
-/

namespace Sumer.Store

open Sumer.Wire Sumer.Host

/-- The tables of pages that all have a next one: their rows, stamps and cursor, the crawl perhaps
closed early. -/
def LeftBetweenPages (c : Crates) (k : OpenCrawl) (db₁ : Db) (out : SweepRun) : Prop :=
  (∀ read ∈ out.committed, (pageNext k.input read).isSome = true) ∧ ¬ out.Complete ∧
    (out.db = afterPages c k db₁ out.committed ∨
      ∃ reason, out.db =
        (afterPages c k db₁ out.committed).finishCrawl k.crawlId false false (some reason))

/-- The tables of a last page: the rows and stamps of all pages together with the closed books
and, exactly when the sweep is complete, its retractions and discrepancies. -/
def LeftByFinalPage (c : Crates) (k : OpenCrawl) (db₁ : Db) (out : SweepRun) : Prop :=
  ∃ pages last, out.committed = pages ++ [last] ∧
    (∀ read ∈ pages, (pageNext k.input read).isSome = true) ∧ pageNext k.input last = none ∧
      ((¬ out.Complete ∧ ∃ reason, out.db = (finalObserved c k db₁ pages last).closeBooks k.input
          k.crawlId (pageReply k.input last).isSome false (some reason)) ∨
        (out.Complete ∧ Qualifies k out.committed true out.verdict ∧
          out.db = completed c k db₁ pages last))

section Sweep

variable {c : Crates} {db db₁ : Db} {input : SweepInput} {script : Script} {k : OpenCrawl}
  {events : List Event} {r : SweepRun}

/-- Every end is one of the two. -/
lemma Ends.left (h : Ends c script k db₁ events r) :
    LeftBetweenPages c k db₁ r ∨ LeftByFinalPage c k db₁ r := by
  cases h with
  | cut hat hended =>
    exact Or.inl ⟨hat.next_isSome, fun ⟨report, hreport, _⟩ => hended report hreport, Or.inl hat.db⟩
  | early hat reason report hcomplete =>
    exact Or.inl ⟨hat.next_isSome, SweepRun.not_complete rfl hcomplete,
      Or.inr ⟨reason, congrArg (·.finishCrawl k.crawlId false false (some reason)) hat.db⟩⟩
  | partialSweep hat hstatus hlast reason hgate report hcomplete =>
    refine Or.inr ⟨_, _, rfl, hat.next_isSome, hlast,
      Or.inl ⟨SweepRun.not_complete rfl hcomplete, reason, ?_⟩⟩
    simp [pageReply, hstatus]
  | complete hat hstatus hlast hgate report hcomplete =>
    exact Or.inr ⟨_, _, rfl, hat.next_isSome, hlast,
      Or.inr ⟨⟨report, rfl, hcomplete⟩, hgate.drained ▸ hgate, rfl⟩⟩

/-- A turn whose commit fails ends the sweep and leaves the tables as they were.

**Proof sketch.** Wherever the turn commits, the fault replaces the commit and ends the sweep with
the tables it had. -/
lemma turn_fault (c : Crates) (k : OpenCrawl) (s : Sweeping)
    (answer : Except HostError HistoryRead) :
    ∃ r, turn c k s (.reply answer true) = .inr r ∧ r.db = s.db := by
  cases answer with
  | error e => exact ⟨_, rfl, rfl⟩
  | ok read =>
    simp only [turn, sweepPage]
    cases read.statuses.find? (·.resourceId == k.input.resourceId) with
    | none => exact ⟨_, rfl, rfl⟩
    | some status =>
      dsimp only
      cases status.page.bind PageReply.next with
      | none =>
        refine ⟨_, rfl, ?_⟩
        unfold finalPage
        cases finalTransaction c k (s.read k read status)
          (keptObservations k.input read.observations) <;> rfl
      | some next =>
        unfold middlePage
        cases ingestInto c k (s.read k read status)
          (keptObservations k.input read.observations) <;> exact ⟨_, rfl, rfl⟩

/-- **A commit that fails is as good as a death before it**: the tables are those of the same
sweep cut off there.

**Proof sketch.** Induction on the events before the fault. The turn whose commit fails leaves the
tables of the turn before it, and ends the loop there, whatever comes after. -/
lemma sweepWithin_fault (pageLimit : Option ℕ) (c : Crates) (db : Db) (input : SweepInput)
    (script : Script) (before : List Event) (answer : Except HostError HistoryRead)
    (after : List Event) :
    (sweepWithin pageLimit c db input
        { script with events := before ++ .reply answer true :: after }).db =
      (sweepWithin pageLimit c db input { script with events := before }).db := by
  have hloop (k : OpenCrawl) (s : Sweeping) :
      (loop (turn c k) (cutOff k) s (before ++ .reply answer true :: after)).db =
        (loop (turn c k) (cutOff k) s before).db := by
    induction before generalizing s with
    | nil =>
      obtain ⟨r, hturn, hdb⟩ := turn_fault c k s answer
      simp only [List.nil_append, loop, hturn, hdb]
      rfl
    | cons e before ih =>
      simp only [List.cons_append, loop]
      cases turn c k s e with
      | inl s' => exact ih s'
      | inr r => rfl
  have hopen : openSweep pageLimit c db input
      { script with events := before ++ .reply answer true :: after } =
        openSweep pageLimit c db input { script with events := before } := rfl
  unfold sweepWithin
  rw [hopen]
  cases openSweep pageLimit c db input { script with events := before } with
  | error e => rfl
  | ok opened => exact hloop opened.1 opened.2

end Sweep

/-- **Crash atomicity of a sweep.** Wherever a sweep of a reachable database stops, the tables are
those it found, or those of a prefix of its script's pages: between pages, with the cursor of
exactly the pages whose rows are there, or after the last one, with all of that page's
transaction. A transaction that fails leaves what a death before it would. In every reachable
database a drained crawl has no cursor and every record of its pages, its last one included, is
stored; and a complete one is drained and began at the start of history.

**Proof sketch.** `sweep_outcome` for the first part, `sweepWithin_fault` for the second; a crawl
of a reachable database is the row some sweep left, and nothing stored is removed later. -/
theorem sweep_atomic (c : Crates) (actions : List Action) :
    (∀ input script,
      let db := run c actions
      let out := sweepResource c db input script
      (out.opened = none ∧ out.db = db) ∨
        ∃ k db₁ events, out.opened = some k ∧ Opened c db input script k db₁ ∧
          events <+: script.events ∧ out.committed = repliesOf events ∧
          (LeftBetweenPages c k db₁ out ∨ LeftByFinalPage c k db₁ out)) ∧
    (∀ input (script : Script) before answer after,
      (sweepResource c (run c actions) input
          { script with events := before ++ .reply answer true :: after }).db =
        (sweepResource c (run c actions) input { script with events := before }).db) ∧
    ∀ row ∈ (run c actions).crawls,
      (row.drained = true → row.nextPage = none ∧
        ∃ before input script after, actions = before ++ .sweep input script :: after ∧
          let out := sweepResource c (run c before) input script
          (∃ k, out.opened = some k ∧ k.crawlId = row.crawlId) ∧
          (row.complete = true ↔ out.Complete) ∧
          (∃ pages last, out.committed = pages ++ [last] ∧ pageNext input last = none ∧
            (pageReply input last).isSome = true) ∧
          ∀ o ∈ allKept input out.committed, ∃ o',
            (input.adapterId, o') ∈ (run c actions).stored ∧ o'.localId = o.localId ∧
              contentHash c o' = contentHash c o) ∧
      (row.complete = true → row.drained = true ∧ row.startPage = none) := by
  have hsound := cursorsSound_run c actions
  refine ⟨?_, fun input script => sweepWithin_fault _ c _ input script, fun row hrow =>
    ⟨fun hdrained => ⟨hsound.drained row hrow hdrained, ?_⟩, hsound.complete row hrow⟩⟩
  · intro input script db out
    rcases sweep_outcome (some MAX_PAGES) c (consistent_run c actions) input script with
      ⟨e, h⟩ | ⟨k, db₁, events, hopen, hbegins, hends⟩
    · exact Or.inl ⟨congrArg SweepRun.opened h, congrArg SweepRun.db h⟩
    · exact Or.inr ⟨k, db₁, events, hends.opened, hopen, hbegins, hends.committed, hends.left⟩
  · obtain ⟨before, input, script, after, k, row₀, rfl, hopened, hrow₀, hclosed, hsame⟩ :=
      crawl_origin c actions hrow
    have hdrained₀ : row₀.drained = true := by rcases hsame with rfl | rfl <;> exact hdrained
    have hid : row.crawlId = row₀.crawlId := by rcases hsame with rfl | rfl <;> rfl
    have hcomplete : row.complete = row₀.complete := by rcases hsame with rfl | rfl <;> rfl
    refine ⟨before, input, script, after, rfl, ⟨k, hopened, (hid.trans hclosed.crawlId).symm⟩,
      hcomplete ▸ hclosed.complete, hclosed.drained.mp hdrained₀, ?_⟩
    intro o ho
    rcases sweep_outcome (some MAX_PAGES) c (consistent_run c before) input script with
      ⟨e, h⟩ | ⟨k', db₁, events, hopen, -, hends⟩
    · simp [sweepResource, h, unopened] at hopened
    · obtain rfl : k'.input = input := hopen.input_eq
      obtain ⟨o', hmem, hl, hhash⟩ := @Db.stored_of_observed c db₁ k'.input k'.crawlId _ o ho
      have hstored : (sweepResource c (run c before) k'.input script).db.stored =
          (db₁.observeAll c k'.input k'.crawlId (allKept k'.input
            (sweepResource c (run c before) k'.input script).committed)).stored :=
        congrArg (List.map _) hends.observations
      have hlater := stored_prefix_run c (before ++ [.sweep k'.input script]) after
      rw [run_concat, List.append_assoc, List.singleton_append, Action.apply, hstored] at hlater
      exact ⟨o', hlater.subset hmem, hl, hhash⟩

end Sumer.Store
