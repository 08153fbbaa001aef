import Sumer.Host.Mux
import Sumer.Store.Idempotence
import Sumer.Store.Refresh

set_option relaxedAutoImplicit false
set_option autoImplicit false

/-!
# A refresh and the threads around it

A refresh of one adapter (`refresh_adapter`, `core/store/src/refresh.rs`) while the reader and the
supervisor work on the connection's id table. One tick is one thing that happens: a reply the host
takes in, the verdict's lock taken, the final commit, or an operation of some thread on the table.
The lock is held from the gate's decision to after the commit, and what would publish a violation
in between waits.

## Main definitions

* `Sumer.Store.Live`: a refresh under way, with the id table of its connection.
* `Sumer.Store.Live.step`: one tick.
* `Sumer.Store.Live.Establishes`: the ticks that establish a contract violation.
* `Sumer.Store.Swept.Withheld`: a sweep that retracted nothing and is recorded not complete.

## Main results

* `Sumer.Store.Live.Sound`: the sweeps of a live refresh are sweeps.
* `Sumer.Store.forward_taint`: an established violation taints what commits later, and that alone.
-/

namespace Sumer.Store

open Sumer.Wire Sumer.Host

/-- How far a refresh has come. Between the last page's reply and its commit the transaction is
open, and the page is in it: first without the verdict's lock, then with it. -/
inductive Phase where
  | preparing
  | between
  | paging (k : OpenCrawl) (s : Sweeping)
  | deciding (k : OpenCrawl) (s : Sweeping) (read : HistoryRead) (fault : Bool)
  | holding (k : OpenCrawl) (s : Sweeping) (read : HistoryRead) (fault : Bool)
  | ended (e : RefreshEnded)

/-- A refresh under way. `db` is what the last finished sweep left; `rest` is what is still to be
swept. -/
structure Live where
  mux : Mux
  db : Db
  phase : Phase
  statuses : List ResourceStatus
  violation : Option String
  errors : List String
  rest : List ResourceDescriptor
  sweeps : List Swept

/-- One thing that happens. Preparing neither reads nor writes the id table, so that it is one
tick wherever the other threads come in between. -/
inductive Tick where
  | prepare
  | start (now : Rfc3339) (openFault limitFault : Bool)
  | reply (answer : Except HostError HistoryRead) (fault : Bool)
  | hold
  | commit
  | mux (op : MuxOp)

/-- Whether an operation takes the lock of the verdict. -/
def takesVerdict : MuxOp → Bool
  | .recordViolation _ => true
  | .finish (.violation _) => true
  | _ => false

/-- Whether the host holds the lock of the verdict. -/
def Phase.holds : Phase → Bool
  | .holding _ _ _ _ => true
  | _ => false

/-- A refresh that has not started, on a connection in any state. -/
def Live.new (mux : Mux) (db : Db) : Live := ⟨mux, db, .preparing, [], none, [], [], []⟩

/-- What is on disk. -/
def Live.durable (l : Live) : Db :=
  match l.phase with
  | .paging _ s => s.db
  | .deciding _ s _ _ => s.db
  | .holding _ s _ _ => s.db
  | _ => l.db

/-- The last page of a sweep, if an answer is one. -/
def lastPage (input : SweepInput) (answer : Except HostError HistoryRead) :
    Option (HistoryRead × ResourceStatus) :=
  match answer with
  | .error _ => none
  | .ok read =>
    match statusFor input read with
    | none => none
    | some status =>
      match status.page.bind PageReply.next with
      | none => some (read, status)
      | some _ => none

/-- Goes on after a sweep: its violation taints those after it, an error ends the refresh. -/
def Live.finishSweep (l : Live) (input : SweepInput) (out : SweepRun) : Live :=
  let l' := { l with db := out.db, sweeps := l.sweeps ++ [Swept.mk l.db input out] }
  match out.ended with
  | .reported report =>
    { l' with phase := .between, violation := l.violation.or report.contractViolation }
  | .failed e => { l' with phase := .ended (.failed e) }
  | .killed => { l' with phase := .ended .killed }

/-- Everything before the sweeps. -/
def Live.prepare (a : String) (session : Session) (l : Live) : Live :=
  match prepareRefresh l.db a session with
  | (db, .error e) => { l with db, phase := .ended (.failed e) }
  | (db, .ok p) =>
    { l with db, phase := .between, statuses := p.statuses, violation := p.connectionViolation,
             errors := p.errors, rest := p.listed }

/-- Starts the next sweep, if one is left. -/
def Live.start (c : Crates) (a : String) (options : SweepOptions) (session : Session) (l : Live)
    (now : Rfc3339) (openFault limitFault : Bool) : Live :=
  match l.rest with
  | [] => { l with phase := .ended (.done l.errors) }
  | descriptor :: rest =>
    let input := sweepInput c a options session l.statuses descriptor l.violation
    let script : Script := ⟨now, l.mux.verdict, openFault, [], limitFault⟩
    match openSweep (some MAX_PAGES) c l.db input script with
    | .error e => { l with rest }.finishSweep input (unopened l.db script e)
    | .ok (k, s) => { l with rest, phase := .paging k s }

/-- Takes in a reply to a sweep that waits for one. A page that is not the last commits with it;
the last one is ingested into the transaction that `commit` ends. -/
def Live.reply (c : Crates) (l : Live) (k : OpenCrawl) (s : Sweeping)
    (answer : Except HostError HistoryRead) (fault : Bool) : Live :=
  let s := { s with verdict := l.mux.verdict }
  match lastPage k.input answer with
  | some (read, status) =>
    let s := s.read k read status
    match ingestInto c k s (keptObservations k.input read.observations) with
    | .error e => l.finishSweep k.input (s.stop k s.db (.failed e))
    | .ok _ => { l with phase := .deciding k s read fault }
  | none =>
    match sweepPage c k s answer fault with
    | .inl s => { l with phase := .paging k s }
    | .inr out => l.finishSweep k.input out

/-- One tick. One that is not enabled changes nothing; an operation that needs the verdict's lock
while the host holds it waits. -/
def Live.step (c : Crates) (a : String) (options : SweepOptions) (session : Session) (l : Live) :
    Tick → Live
  | .prepare =>
    match l.phase with
    | .preparing => l.prepare a session
    | _ => l
  | .start now openFault limitFault =>
    match l.phase with
    | .between => l.start c a options session now openFault limitFault
    | _ => l
  | .reply answer fault =>
    match l.phase with
    | .paging k s => l.reply c k s answer fault
    | _ => l
  | .hold =>
    match l.phase with
    | .deciding k s read fault =>
      { l with phase := .holding k { s with verdict := l.mux.verdict } read fault }
    | _ => l
  | .commit =>
    match l.phase with
    | .holding k s read fault =>
      l.finishSweep k.input
        (finalPage c k s read (keptObservations k.input read.observations) fault)
    | _ => l
  | .mux op =>
    if l.phase.holds && takesVerdict op then l else { l with mux := l.mux.apply op }

/-- A refresh after some ticks. -/
def liveRun (c : Crates) (a : String) (options : SweepOptions) (session : Session) (mux : Mux)
    (db : Db) (ticks : List Tick) : Live :=
  ticks.foldl (Live.step c a options session) (Live.new mux db)

/-- A tick that establishes a contract violation: one published in the verdict, by the reader or
with the terminal reason, or returned by `balances.read` or by a sweep's `history.read`. -/
def Live.Establishes (session : Session) (l : Live) : Tick → Prop
  | .mux (.recordViolation _) => l.phase.holds = false
  | .mux (.finish (.violation _)) => l.phase.holds = false ∧ l.mux.terminal = none
  | .prepare => l.phase = .preparing ∧ ∃ e, session.balances = .error e ∧ brokeTheContract e = true
  | .reply (.error e) _ => (∃ k s, l.phase = .paging k s) ∧ brokeTheContract e = true
  | _ => False

/-- A sweep that retracted nothing and whose crawl, if it opened one, is recorded not complete. -/
structure Swept.Withheld (w : Swept) : Prop where
  incomplete : ¬ w.out.Complete
  retractions : w.out.db.retractions = w.before.retractions
  recorded : ∀ k, w.out.opened = some k →
    (∃ row ∈ w.out.db.crawls, row.crawlId = k.crawlId) ∧
      ∀ row ∈ w.out.db.crawls, row.crawlId = k.crawlId → row.complete = false

/-- What a sweep left is kept: its rows up to the columns a stamp writes, its retractions, and
what is recorded of the crawls up to their cursors. -/
structure Swept.KeptIn (w : Swept) (db : Db) : Prop where
  rows : w.out.db.unstamped <+: db.unstamped
  retractions : w.out.db.retractions <+: db.retractions
  crawls : ∀ row ∈ w.out.db.crawls, ∃ row' ∈ db.crawls,
    row' = row ∨ row' = { row with nextPage := none }

section Pages

variable {c : Crates} {k : OpenCrawl} {s s' : Sweeping} {read : HistoryRead}
  {status : ResourceStatus} {answer : Except HostError HistoryRead} {fault : Bool}

/-- A last page is a reply with a status and no next page. -/
lemma lastPage_eq_some {input : SweepInput} (h : lastPage input answer = some (read, status)) :
    answer = .ok read ∧ statusFor input read = some status ∧
      status.page.bind PageReply.next = none := by
  unfold lastPage at h
  split at h
  · cases h
  · split at h
    · cases h
    · rename_i hstatus
      split at h
      · rename_i hnext
        cases h
        exact ⟨rfl, hstatus, hnext⟩
      · cases h

/-- What a sweep makes of its last page. -/
lemma sweepPage_of_lastPage (fault : Bool) (h : lastPage k.input answer = some (read, status)) :
    sweepPage c k s answer fault = .inr (finalPage c k (s.read k read status) read
      (keptObservations k.input read.observations) fault) := by
  obtain ⟨rfl, hstatus, hnext⟩ := lastPage_eq_some h
  have hfind : read.statuses.find? (·.resourceId == k.input.resourceId) = some status := hstatus
  simp only [sweepPage, hfind, hnext]

/-- A page that cannot be ingested leaves its transaction unfinished. -/
lemma finalPage_of_error {kept : List Observation} {e : StoreError}
    (h : ingestInto c k s kept = .error e) :
    finalPage c k s read kept fault = s.stop k s.db (.failed e) := by
  simp only [finalPage, finalTransaction, h, bind, Except.bind]

/-- A page that is not the last goes on with the verdict as it was. -/
lemma verdict_of_sweepPage (h : sweepPage c k s answer fault = .inl s') :
    s'.verdict = s.verdict := by
  unfold sweepPage at h
  split at h
  · cases h
  · split at h
    · cases h
    · dsimp only at h
      split at h
      · cases h
      · unfold middlePage at h
        split at h
        · cases h
        · dsimp only at h
          split_ifs at h
          cases h
          rfl

/-- A sweep ends with the verdict it had.

**Proof sketch.** Every way out of `sweepPage` ends the sweep with the verdict it was given, also
where the metadata fails to commit. -/
lemma verdict_of_sweepPage_inr {out : SweepRun} (h : sweepPage c k s answer fault = .inr out) :
    out.verdict = s.verdict := by
  have hearly (s : Sweeping) (reason : String) (violation : Option String) (fault : Bool) :
      (finishEarly k s reason violation fault).verdict = s.verdict := by
    cases fault <;> rfl
  unfold sweepPage at h
  split at h
  · cases h
    exact hearly _ _ _ _
  · split at h
    · cases h
      exact hearly _ _ _ _
    · dsimp only at h
      split at h
      · cases h
        unfold finalPage
        split
        · rfl
        · split_ifs <;> rfl
      · unfold middlePage at h
        split at h
        · cases h
          rfl
        · dsimp only at h
          split_ifs at h
          · cases h
            rfl
          · cases h
            exact hearly _ _ _ _

end Pages

/-! ### Sweeps that follow one another -/

section Swept

variable {c : Crates} {a : String} {db db' : Db} {sweeps : List Swept} {input : SweepInput}
  {script : Script}

/-- No sweep leaves the tables as they are. -/
lemma SweptFrom.eq_of_nil (h : SweptFrom c a db [] db') : db' = db := by
  cases h
  rfl

/-- One more sweep, of the same adapter, goes on from the tables that the earlier ones left. -/
lemma SweptFrom.concat (h : SweptFrom c a db sweeps db') (hadapter : input.adapterId = a)
    (script : Script) :
    SweptFrom c a db (sweeps ++ [⟨db', input, sweepResource c db' input script⟩])
      (sweepResource c db' input script).db := by
  induction h with
  | nil db => exact .cons hadapter (.nil _)
  | cons hadapter' _ ih => exact .cons hadapter' ih

/-- What one of the sweeps left is on the way to what the last one left. -/
lemma SweptFrom.reaches (h : SweptFrom c a db sweeps db') {w : Swept} (hw : w ∈ sweeps) :
    ∃ before after : List Action, before.foldl (Action.apply c) db = w.out.db ∧
      after.foldl (Action.apply c) w.out.db = db' := by
  induction h with
  | nil => exact absurd hw List.not_mem_nil
  | @cons db db' input script rest hadapter hrest ih =>
    rcases List.mem_cons.mp hw with rfl | hw
    · obtain ⟨after, hafter⟩ := hrest.actions
      exact ⟨[.sweep input script], after, rfl, hafter⟩
    · obtain ⟨before, after, hbefore, hafter⟩ := ih hw
      exact ⟨.sweep input script :: before, after, hbefore, hafter⟩

/-- A sweep that is not complete retracted nothing, and its crawl is recorded not complete.

**Proof sketch.** A sweep that did not open left no trace. One that ran and is not complete
retracted nothing, by its end; its crawl is the one row it added, recorded as not complete, and the
earlier crawls have smaller ids. -/
lemma Swept.withheld_of_incomplete (hdb : db.Consistent)
    (h : ¬ (sweepResource c db input script).Complete) :
    Swept.Withheld ⟨db, input, sweepResource c db input script⟩ where
  incomplete := h
  retractions := by
    rcases sweep_outcome (some MAX_PAGES) c hdb input script with
      ⟨e, hunopened⟩ | ⟨k, db₁, events, hopen, -, hends⟩
    · exact congrArg (fun r => r.db.retractions) hunopened
    · rcases hends.retractions with ⟨-, hret⟩ | ⟨hcomplete, -⟩
      · exact hret.trans hopen.retractions
      · exact absurd hcomplete h
  recorded k hk := by
    rcases crawls_sweepWithin (some MAX_PAGES) c hdb input script with
      ⟨hnone, -⟩ | ⟨k', row, db₁, hopened, hopen, hcrawls, hclosed⟩
    · exact absurd (hnone.symm.trans hk) nofun
    obtain rfl : k' = k := Option.some.inj (hopened.symm.trans hk)
    have hown : row.complete = false := by
      rw [Bool.eq_false_iff]
      exact fun hrow => h (hclosed.complete.mp hrow)
    refine ⟨⟨row, hcrawls ▸ by simp, hclosed.crawlId⟩, fun other hother hid => ?_⟩
    rcases List.mem_append.mp (hcrawls ▸ hother) with hother | hother
    · -- the earlier crawls have smaller ids
      have hlt := lt_of_mem_retiredCrawls hother
      have hnew := hopen.crawlId_eq
      omega
    · rw [List.mem_singleton.mp hother]
      exact hown

/-- **Condition 9.** A violation in a sweep's input, or in the verdict it held, and it is not
complete. -/
lemma sweep_tainted (hdb : db.Consistent)
    (h : input.connectionViolation ≠ none ∨ (sweepResource c db input script).verdict ≠ none) :
    ¬ (sweepResource c db input script).Complete := by
  intro hcomplete
  rcases sweep_outcome (some MAX_PAGES) c hdb input script with
    ⟨e, hunopened⟩ | ⟨k, db₁, events, hopen, -, hends⟩
  · obtain ⟨report, hreport, -⟩ := hcomplete
    exact absurd ((congrArg SweepRun.ended hunopened).symm.trans hreport) nofun
  · have hinput : k.input = input := hopen.input_eq
    rcases hends.retractions with ⟨hnot, -⟩ | ⟨-, hqualifies, -⟩
    · exact hnot hcomplete
    · obtain ⟨hviolation, hverdict⟩ := hqualifies.noViolation
      exact h.elim (fun h => h (hinput ▸ hviolation)) fun h => h hverdict

/-- Observations add rows and change none, up to the columns a stamp writes. -/
lemma Db.unstamped_prefix_observeAll {crawlId : ℕ} (os : List Observation) :
    db.unstamped <+: (db.observeAll c input crawlId os).unstamped := by
  refine Db.observeAll_invariant (P := fun db' => db.unstamped <+: db'.unstamped) ?_
    List.prefix_rfl
  intro db' o _ h
  rw [Db.unstamped_observe]
  split_ifs
  · exact h
  · exact h.trans (List.prefix_append _ _)

/-- A step adds rows and retractions and changes none, up to the columns a stamp writes. -/
lemma Action.prefix_apply (hdb : db.Consistent) (step : Action) :
    db.unstamped <+: (step.apply c db).unstamped ∧
      db.retractions <+: (step.apply c db).retractions := by
  cases step with
  | write w =>
    obtain ⟨-, hobs, hret⟩ := w.apply_eq db
    rw [Action.apply, Db.unstamped, Db.unstamped, hobs, hret]
    exact ⟨List.prefix_rfl, List.prefix_rfl⟩
  | sweep input script =>
    obtain ⟨crawlId, hrows⟩ := unstamped_sweep (c := c) hdb input script
    refine ⟨hrows ▸ Db.unstamped_prefix_observeAll _, ?_⟩
    rcases sweep_outcome (some MAX_PAGES) c hdb input script with
      ⟨e, hunopened⟩ | ⟨k, db₁, events, hopen, -, hends⟩
    · rw [Action.apply, sweepResource, hunopened]
      exact List.prefix_rfl
    · rcases hends.retractions with ⟨-, hret⟩ | ⟨-, -, hret⟩
      · exact (hret.trans hopen.retractions).symm ▸ List.prefix_rfl
      · exact ⟨_, (hret.trans (congrArg (· ++ _) hopen.retractions)).symm⟩

/-- **Nothing that is stored changes along a run**, up to the columns a stamp writes. -/
lemma prefix_run (c : Crates) (before after : List Action) :
    (run c before).unstamped <+: (run c (before ++ after)).unstamped ∧
      (run c before).retractions <+: (run c (before ++ after)).retractions := by
  induction after using List.reverseRecOn with
  | nil => simp
  | append_singleton after step ih =>
    rw [← List.append_assoc, run_concat]
    obtain ⟨hrows, hret⟩ := step.prefix_apply (consistent_run c (before ++ after))
    exact ⟨ih.1.trans hrows, ih.2.trans hret⟩

end Swept

/-! ### A sweep under way -/

/-- A sweep under way from the tables `db`: some events of a script led to where it is. -/
def InFlight (c : Crates) (a : String) (db : Db) (violation : Option String) (k : OpenCrawl)
    (s : Sweeping) : Prop :=
  k.input.adapterId = a ∧ k.input.connectionViolation = violation ∧
    ∃ script s₀ events, openSweep (some MAX_PAGES) c db k.input script = .ok (k, s₀) ∧
      advance (turn c k) s₀ events = some s

section InFlight

variable {c : Crates} {a : String} {db : Db} {violation : Option String} {k : OpenCrawl}
  {s s' : Sweeping} {e : Event} {out : SweepRun}

/-- A sweep that was opened is under way. -/
lemma inFlight_of_openSweep {input : SweepInput} {script : Script} (hdb : db.Consistent)
    (hadapter : input.adapterId = a)
    (h : openSweep (some MAX_PAGES) c db input script = .ok (k, s)) :
    InFlight c a db input.connectionViolation k s := by
  obtain rfl : k.input = input := (openSweep_at hdb h).1.input_eq
  exact ⟨hadapter, rfl, script, s, [], h, rfl⟩

/-- A sweep in flight stays one after a turn of its loop that goes on. -/
lemma InFlight.next (h : InFlight c a db violation k s) (hturn : turn c k s e = .inl s') :
    InFlight c a db violation k s' := by
  obtain ⟨hadapter, hviolation, script, s₀, events, hopen, hadvance⟩ := h
  refine ⟨hadapter, hviolation, script, s₀, events ++ [e], hopen, ?_⟩
  rw [advance_concat, hadvance, Option.bind_some, hturn]
  rfl

/-- A violation published while a sweep is in flight is an event of that sweep. -/
lemma InFlight.publish (h : InFlight c a db violation k s) (kind : ProtocolViolationKind) :
    InFlight c a db violation k { s with verdict := s.verdict.or (some kind) } :=
  h.next (e := .violation kind) rfl

/-- The last turn: the sweep was one from end to end. -/
lemma InFlight.finish (h : InFlight c a db violation k s) (hturn : turn c k s e = .inr out) :
    ∃ script, out = sweepResource c db k.input script := by
  obtain ⟨-, -, script, s₀, events, hopen, hadvance⟩ := h
  refine ⟨{ script with events := events ++ [e] }, ?_⟩
  have hsame : openSweep (some MAX_PAGES) c db k.input { script with events := events ++ [e] } =
      openSweep (some MAX_PAGES) c db k.input script := rfl
  simp only [sweepResource, sweepWithin, hsame, hopen, loop_append hadvance, loop, hturn]

/-- What is on disk is what the sweep leaves if it dies here. -/
lemma InFlight.cut (h : InFlight c a db violation k s) :
    ∃ script, s.db = (sweepResource c db k.input script).db := by
  obtain ⟨-, -, script, s₀, events, hopen, hadvance⟩ := h
  refine ⟨{ script with events := events }, ?_⟩
  have hsame : openSweep (some MAX_PAGES) c db k.input { script with events := events } =
      openSweep (some MAX_PAGES) c db k.input script := rfl
  have hloop : loop (turn c k) (cutOff k) s₀ events = loop (turn c k) (cutOff k) s [] := by
    rw [← loop_append hadvance [], List.append_nil]
  simp only [sweepResource, sweepWithin, hsame, hopen, hloop, loop]
  rfl

/-- A sweep under way has retracted nothing, and its report is not complete. -/
lemma InFlight.withholds (h : InFlight c a db violation k s) (hdb : db.Consistent) :
    s.db.retractions = db.retractions ∧ s.report.complete = false := by
  obtain ⟨-, -, script, s₀, events, hopen, hadvance⟩ := h
  obtain ⟨hopened, hat⟩ := advance_at hdb hopen hadvance
  refine ⟨?_, hat.incomplete⟩
  rw [hat.db, retractions_afterPages]
  exact hopened.retractions

end InFlight

/-! ### A live refresh -/

/-- What holds of the phase a refresh is in. -/
def Live.PhaseSound (c : Crates) (a : String) (l : Live) : Prop :=
  match l.phase with
  | .preparing => l.sweeps = [] ∧ l.violation = none
  | .between => True
  | .paging k s => InFlight c a l.db l.violation k { s with verdict := l.mux.verdict }
  | .deciding k s read _ => ∃ s₁ status, lastPage k.input (.ok read) = some (read, status) ∧
      s = Sweeping.read s₁ k read status ∧
      InFlight c a l.db l.violation k { s₁ with verdict := l.mux.verdict }
  | .holding k s read _ => ∃ s₁ status, lastPage k.input (.ok read) = some (read, status) ∧
      s = Sweeping.read s₁ k read status ∧ s₁.verdict = l.mux.verdict ∧
      InFlight c a l.db l.violation k s₁
  | .ended _ => True

/-- **The invariant of a live refresh**: its sweeps are sweeps, one after the other, and so is the
one under way. -/
structure Live.Sound (c : Crates) (a : String) (db₀ : Db) (l : Live) : Prop where
  swept : ∃ ws : List MetaWrite, SweptFrom c a (ws.foldl MetaWrite.apply db₀) l.sweeps l.db
  phase : l.PhaseSound c a

/-- A tick that ends no sweep: nothing is retracted, and no violation is forgotten. -/
structure Live.Quiet (l l' : Live) : Prop where
  sweeps : l'.sweeps = l.sweeps
  retractions : l'.durable.retractions = l.durable.retractions
  verdict : l.mux.verdict ≠ none → l'.mux.verdict ≠ none
  violation : l.violation ≠ none → l'.violation ≠ none
  ended : (∃ e, l.phase = .ended e) → ∃ e, l'.phase = .ended e

/-- A tick that ends a sweep. -/
def Live.EndsSweep (c : Crates) (l l' : Live) : Prop :=
  (¬ ∃ e, l.phase = .ended e) ∧ ∃ input script rest,
    l' = { l with rest }.finishSweep input (sweepResource c l.db input script) ∧
    input.connectionViolation = l.violation ∧
    (sweepResource c l.db input script).verdict = l.mux.verdict

section Live

variable {c : Crates} {a : String} {options : SweepOptions} {session : Session} {db₀ : Db}
  {l : Live} {input : SweepInput} {out : SweepRun}

/-- A step that does nothing is quiet. -/
lemma Live.Quiet.refl (l : Live) : l.Quiet l := ⟨rfl, rfl, id, id, id⟩

/-- What an operation does to the verdict: at most it publishes.

**Proof sketch.** By cases of the operation. Recording publishes, and so does finishing with a
violation; the others leave the verdict. -/
lemma verdict_apply (m : Mux) (op : MuxOp) :
    (m.apply op).verdict = m.verdict ∨
      takesVerdict op = true ∧ ∃ kind, (m.apply op).verdict = m.verdict.or (some kind) := by
  cases op with
  | issue =>
    left
    simp only [Mux.apply, Mux.issue]
    split <;> rfl
  | tombstone id =>
    left
    simp only [Mux.apply, Mux.tombstone]
    split_ifs <;> rfl
  | deliver id frame receivedAt =>
    left
    by_cases h : id < m.nextId ∧ m.slots id = some .pending
    · rw [Mux.apply, Mux.deliver_of_pending h.1 h.2]
    · rw [Mux.apply, (Mux.deliver_of_not_pending h frame receivedAt).1]
  | finish reason =>
    simp only [Mux.apply, Mux.finish]
    split_ifs
    · exact Or.inl rfl
    · cases reason with
      | crashed status => exact Or.inl (by simp [Terminal.published])
      | violation kind => exact Or.inr ⟨rfl, kind, rfl⟩
  | recordViolation kind => exact Or.inr ⟨rfl, kind, rfl⟩

/-- A sweep that ends is added to those that have ended. -/
@[simp]
lemma Live.sweeps_finishSweep :
    (l.finishSweep input out).sweeps = l.sweeps ++ [⟨l.db, input, out⟩] := by
  unfold Live.finishSweep
  cases out.ended <;> rfl

/-- The working store after a sweep is the one that the sweep has made. -/
@[simp]
lemma Live.db_finishSweep : (l.finishSweep input out).db = out.db := by
  unfold Live.finishSweep
  cases out.ended <;> rfl

/-- What a sweep has made is durable when it ends. -/
@[simp]
lemma Live.durable_finishSweep : (l.finishSweep input out).durable = out.db := by
  unfold Live.finishSweep
  cases out.ended <;> rfl

/-- A sweep that ends leaves the connection as it is. -/
@[simp]
lemma Live.mux_finishSweep : (l.finishSweep input out).mux = l.mux := by
  unfold Live.finishSweep
  cases out.ended <;> rfl

/-- After a sweep no other is under way. -/
lemma Live.phaseSound_finishSweep : (l.finishSweep input out).PhaseSound c a := by
  unfold Live.finishSweep
  cases out.ended <;> trivial

/-- A violation that was known stays known. -/
lemma Live.violation_finishSweep (h : l.violation ≠ none) :
    (l.finishSweep input out).violation ≠ none := by
  unfold Live.finishSweep
  cases out.ended with
  | reported report => simpa using fun hnone => absurd hnone h
  | failed e => exact h
  | killed => exact h

/-- A sweep keeps the invariant when it ends. -/
lemma Live.Sound.finishSweep (h : l.Sound c a db₀) (hadapter : input.adapterId = a)
    (script : Script) (rest : List ResourceDescriptor) :
    ({ l with rest }.finishSweep input (sweepResource c l.db input script)).Sound c a db₀ where
  swept := by
    obtain ⟨ws, hswept⟩ := h.swept
    exact ⟨ws, by simpa using hswept.concat hadapter script⟩
  phase := Live.phaseSound_finishSweep

/-- The tables before the next sweep are consistent. -/
lemma Live.Sound.consistent (h : l.Sound c a db₀) (hdb₀ : db₀.Consistent) : l.db.Consistent := by
  obtain ⟨ws, hswept⟩ := h.swept
  obtain ⟨hcrawls, hobs, hret⟩ := writes_eq ws db₀
  exact hswept.consistent (hdb₀.congr hobs hret (congrArg _ hcrawls))

/-- Preparing a refresh keeps the invariant and sweeps nothing.

**Proof sketch.** Preparing comes first, so no sweep has been made and the tables are those of the
start with some writes; what it writes are again such writes (`prepareRefresh_writes`), and none of
them retracts. -/
lemma Live.Sound.prepare (h : l.Sound c a db₀) (hphase : l.phase = .preparing) :
    (l.prepare a session).Sound c a db₀ ∧ l.Quiet (l.prepare a session) := by
  obtain ⟨ws, hswept⟩ := h.swept
  obtain ⟨hsweeps, hviolation⟩ : l.sweeps = [] ∧ l.violation = none := by
    have hsound := h.phase
    rwa [Live.PhaseSound, hphase] at hsound
  obtain ⟨ws', hws'⟩ := prepareRefresh_writes (a := a) l.db session
  have hprepared : ∃ ws : List MetaWrite, SweptFrom c a (ws.foldl MetaWrite.apply db₀) []
      (prepareRefresh l.db a session).1 := by
    have hdb : l.db = ws.foldl MetaWrite.apply db₀ := (hsweeps ▸ hswept).eq_of_nil
    refine ⟨ws ++ ws', ?_⟩
    rw [List.foldl_append, ← hdb, ← hws']
    exact .nil _
  have hret : (prepareRefresh l.db a session).1.retractions = l.db.retractions :=
    hws' ▸ (writes_eq ws' l.db).2.2
  have hdurable : l.durable = l.db := by rw [Live.durable, hphase]
  have hended : ¬ ∃ e, l.phase = .ended e := by
    rintro ⟨e, he⟩
    cases hphase.symm.trans he
  unfold Live.prepare
  split
  all_goals
    rename_i heq
    rw [heq] at hprepared hret
    exact ⟨⟨by simpa only [hsweeps] using hprepared, trivial⟩, rfl, by rw [hdurable]; exact hret,
      id, fun hsome => absurd hviolation hsome, fun he => absurd he hended⟩

/-- Starting the next sweep.

**Proof sketch.** The sweep may fail to open, and then it has ended without a trace, which is a
sweep by the empty script; otherwise the tables have one crawl more, nothing is retracted, and the
sweep in flight has seen no event yet. -/
lemma Live.Sound.start (h : l.Sound c a db₀) (hdb : l.db.Consistent) (hphase : l.phase = .between)
    (now : Rfc3339) (openFault limitFault : Bool) :
    (l.start c a options session now openFault limitFault).Sound c a db₀ ∧
      (l.Quiet (l.start c a options session now openFault limitFault) ∨
        l.EndsSweep c (l.start c a options session now openFault limitFault)) := by
  have hdurable : l.durable = l.db := by rw [Live.durable, hphase]
  have hended : ¬ ∃ e, l.phase = .ended e := by
    rintro ⟨e, he⟩
    cases hphase.symm.trans he
  unfold Live.start
  split
  · exact ⟨⟨h.swept, trivial⟩, Or.inl ⟨rfl, by rw [hdurable]; rfl, id, id, fun _ => ⟨_, rfl⟩⟩⟩
  · rename_i descriptor rest hrest
    dsimp only
    split
    · rename_i e hopen
      have hout : unopened l.db ⟨now, l.mux.verdict, openFault, [], limitFault⟩ e =
          sweepResource c l.db (sweepInput c a options session l.statuses descriptor l.violation)
            ⟨now, l.mux.verdict, openFault, [], limitFault⟩ := by
        simp only [sweepResource, sweepWithin, hopen]
      have hverdict : (unopened l.db ⟨now, l.mux.verdict, openFault, [], limitFault⟩ e).verdict =
          l.mux.verdict := rfl
      rw [hout] at hverdict ⊢
      exact ⟨h.finishSweep rfl _ rest, Or.inr ⟨hended, _, _, rest, rfl, rfl, hverdict⟩⟩
    · rename_i k s hopen
      have hflight : InFlight c a l.db l.violation k s := inFlight_of_openSweep hdb rfl hopen
      have hverdict : s.verdict = l.mux.verdict := (openSweep_at hdb hopen).2.verdict
      refine ⟨⟨h.swept, ?_⟩, Or.inl ⟨rfl, ?_, id, id, fun he => absurd he hended⟩⟩
      · change InFlight c a l.db l.violation k { s with verdict := l.mux.verdict }
        rwa [← hverdict]
      · rw [hdurable]
        exact (hflight.withholds hdb).1

/-- Taking in a reply.

**Proof sketch.** The sweep in flight is brought into the form its step lemma is stated in, with the
verdict that the host holds now. The reply is then followed the way `sweepPage` does: it is the last
page, whose final transaction is or is not committed, or one more page, or the end of the sweep.
Where the sweep ends, what it leaves is a sweep by some script (`InFlight.finish`), which is the
second alternative; where it goes on, its durable tables have no retraction, so nothing changed that
a later verdict could taint. -/
lemma Live.Sound.reply (h : l.Sound c a db₀) (hdb : l.db.Consistent) {k : OpenCrawl} {s : Sweeping}
    (hphase : l.phase = .paging k s) (answer : Except HostError HistoryRead) (fault : Bool) :
    (l.reply c k s answer fault).Sound c a db₀ ∧
      (l.Quiet (l.reply c k s answer fault) ∨ l.EndsSweep c (l.reply c k s answer fault)) := by
  have hflight : InFlight c a l.db l.violation k { s with verdict := l.mux.verdict } := by
    have hsound := h.phase
    rwa [Live.PhaseSound, hphase] at hsound
  have hdurable : l.durable.retractions = l.db.retractions := by
    rw [Live.durable, hphase]
    exact (hflight.withholds hdb).1
  have hended : ¬ ∃ e, l.phase = .ended e := by
    rintro ⟨e, he⟩
    cases hphase.symm.trans he
  have hfinish {out : SweepRun}
      (hpage : sweepPage c k { s with verdict := l.mux.verdict } answer fault = .inr out) :
      (l.finishSweep k.input out).Sound c a db₀ ∧ l.EndsSweep c (l.finishSweep k.input out) := by
    have hverdict := verdict_of_sweepPage_inr hpage
    obtain ⟨script, rfl⟩ := hflight.finish (e := .reply answer fault) hpage
    exact ⟨h.finishSweep hflight.1 script l.rest, hended, _, script, l.rest, rfl, hflight.2.1,
      hverdict⟩
  unfold Live.reply
  dsimp only
  split
  · rename_i read status hlast
    have hpage := sweepPage_of_lastPage (c := c) (s := { s with verdict := l.mux.verdict }) fault
      hlast
    split
    · rename_i e hingest
      rw [finalPage_of_error hingest] at hpage
      exact (hfinish hpage).imp id Or.inr
    · have hok : answer = .ok read := (lastPage_eq_some hlast).1
      refine ⟨⟨h.swept, { s with verdict := l.mux.verdict }, status, hok ▸ hlast, rfl, hflight⟩,
        Or.inl ⟨rfl, ?_, id, id, fun he => absurd he hended⟩⟩
      rw [hdurable]
      exact (hflight.withholds hdb).1
  · split
    · rename_i s' hpage
      have hverdict := verdict_of_sweepPage hpage
      have hnext := hflight.next (e := .reply answer fault) hpage
      refine ⟨⟨h.swept, ?_⟩, Or.inl ⟨rfl, ?_, id, id, fun he => absurd he hended⟩⟩
      · change InFlight c a l.db l.violation k { s' with verdict := l.mux.verdict }
        rwa [← show s'.verdict = l.mux.verdict from hverdict]
      · rw [hdurable]
        exact (hnext.withholds hdb).1
    · rename_i out hpage
      exact (hfinish hpage).imp id Or.inr

/-- Taking the verdict's lock for the decision keeps the invariant: the verdict that the gate then
reads is the host's, and no tables change. -/
lemma Live.Sound.hold (h : l.Sound c a db₀) {k : OpenCrawl} {s : Sweeping} {read : HistoryRead}
    {fault : Bool} (hphase : l.phase = .deciding k s read fault) :
    let l' := { l with phase := .holding k { s with verdict := l.mux.verdict } read fault }
    l'.Sound c a db₀ ∧ l.Quiet l' := by
  have hsound := h.phase
  rw [Live.PhaseSound, hphase] at hsound
  obtain ⟨s₁, status, hlast, rfl, hflight⟩ := hsound
  refine ⟨⟨h.swept, { s₁ with verdict := l.mux.verdict }, status, hlast, rfl, rfl, hflight⟩, rfl,
    ?_, id, id, ?_⟩
  · rw [Live.durable, Live.durable, hphase]
  · rintro ⟨e, he⟩
    cases hphase.symm.trans he

/-- The final commit, with the lock still held. -/
lemma Live.Sound.commit (h : l.Sound c a db₀) {k : OpenCrawl} {s : Sweeping} {read : HistoryRead}
    {fault : Bool} (hphase : l.phase = .holding k s read fault) :
    let l' := l.finishSweep k.input
      (finalPage c k s read (keptObservations k.input read.observations) fault)
    l'.Sound c a db₀ ∧ l.EndsSweep c l' := by
  have hsound := h.phase
  rw [Live.PhaseSound, hphase] at hsound
  obtain ⟨s₁, status, hlast, rfl, hheld, hflight⟩ := hsound
  have hpage := sweepPage_of_lastPage (c := c) (s := s₁) fault hlast
  have hverdict := (verdict_of_sweepPage_inr hpage).trans hheld
  obtain ⟨script, hout⟩ := hflight.finish (e := .reply (.ok read) fault) hpage
  have hended : ¬ ∃ e, l.phase = .ended e := by
    rintro ⟨e, he⟩
    cases hphase.symm.trans he
  rw [hout] at hverdict ⊢
  exact ⟨h.finishSweep hflight.1 script l.rest, hended, _, script, l.rest, rfl, hflight.2.1,
    hverdict⟩

/-- An operation of some thread. While the lock is held none of them publishes.

**Proof sketch.** An operation leaves the verdict, or publishes one if there was none, and that is
excluded while a decision holds the lock. Every other part of the invariant is about the tables and
the sweep, which no operation of the host touches. -/
lemma Live.Sound.mux (h : l.Sound c a db₀) (op : MuxOp)
    (hfree : ¬ (l.phase.holds && takesVerdict op) = true) :
    let l' := { l with mux := l.mux.apply op }
    l'.Sound c a db₀ ∧ l.Quiet l' := by
  have hdurable : Live.durable { l with mux := l.mux.apply op } = l.durable := rfl
  rcases verdict_apply l.mux op with hverdict | ⟨htakes, kind, hverdict⟩
  · refine ⟨⟨h.swept, ?_⟩, rfl, congrArg _ hdurable, fun hsome => hverdict ▸ hsome, id, id⟩
    have hsound := h.phase
    rw [Live.PhaseSound] at hsound ⊢
    simpa only [hverdict] using hsound
  · refine ⟨⟨h.swept, ?_⟩, rfl, congrArg _ hdurable, fun hsome => ?_, id, id⟩
    · have hsound := h.phase
      rw [Live.PhaseSound] at hsound ⊢
      cases hphase : l.phase with
      | preparing => simpa only [hphase] using hsound
      | between => trivial
      | paging k s =>
        simp only [hphase] at hsound ⊢
        exact hverdict ▸ hsound.publish kind
      | deciding k s read fault =>
        simp only [hphase] at hsound ⊢
        obtain ⟨s₁, status, hlast, hs, hflight⟩ := hsound
        exact ⟨s₁, status, hlast, hs, hverdict ▸ hflight.publish kind⟩
      | holding k s read fault => exact absurd (by simp [hphase, Phase.holds, htakes]) hfree
      | ended e => trivial
    · rw [hverdict, Ne, Option.or_eq_none_iff]
      exact fun hnone => hsome hnone.1

variable (options session) in
/-- **One tick** keeps the invariant; it ends a sweep or is quiet.

**Proof sketch.** One case for each tick, and in each the tick is either one that the phase does not
take, and then nothing happens, or it is the business of the lemma of that tick. An operation of the
host waits exactly while a commit is in hand that has looked at the verdict. -/
lemma Live.Sound.step (h : l.Sound c a db₀) (hdb₀ : db₀.Consistent) (t : Tick) :
    (l.step c a options session t).Sound c a db₀ ∧
      (l.Quiet (l.step c a options session t) ∨
        l.EndsSweep c (l.step c a options session t)) := by
  have hdb := h.consistent hdb₀
  have hwait : l.Sound c a db₀ ∧ (l.Quiet l ∨ l.EndsSweep c l) := ⟨h, Or.inl (.refl l)⟩
  cases t with
  | prepare =>
    rw [Live.step]
    split
    · exact (h.prepare ‹_›).imp id Or.inl
    · exact hwait
  | start now openFault limitFault =>
    rw [Live.step]
    split
    · exact h.start hdb ‹_› now openFault limitFault
    · exact hwait
  | reply answer fault =>
    rw [Live.step]
    split
    · exact h.reply hdb ‹_› answer fault
    · exact hwait
  | hold =>
    rw [Live.step]
    split
    · exact (h.hold ‹_›).imp id Or.inl
    · exact hwait
  | commit =>
    rw [Live.step]
    split
    · exact (h.commit ‹_›).imp id Or.inr
    · exact hwait
  | mux op =>
    rw [Live.step]
    split_ifs with hheld
    · exact hwait
    · exact (h.mux op hheld).imp id Or.inl

/-- What is on disk is the tables before the sweep under way and what that sweep would leave if it
died here. It has retracted nothing yet.

**Proof sketch.** By the phase. Between sweeps the tables are what is on disk. With a sweep in
flight, what is on disk is what the sweep would leave if it were cut here, and such a sweep is not
complete and retracts nothing; the page that is being decided is not committed yet. -/
lemma Live.Sound.durable (h : l.Sound c a db₀) (hdb₀ : db₀.Consistent) :
    l.durable.retractions = l.db.retractions ∧
      ∃ later : List Action, later.foldl (Action.apply c) l.db = l.durable := by
  have hdb := h.consistent hdb₀
  have hflight {violation : Option String} {k : OpenCrawl} {s : Sweeping}
      (hflight : InFlight c a l.db violation k s) : s.db.retractions = l.db.retractions ∧
        ∃ later : List Action, later.foldl (Action.apply c) l.db = s.db := by
    obtain ⟨script, hcut⟩ := hflight.cut
    exact ⟨(hflight.withholds hdb).1, [.sweep k.input script], hcut.symm⟩
  have hsound := h.phase
  rw [Live.PhaseSound] at hsound
  rw [Live.durable]
  cases hphase : l.phase with
  | preparing => exact ⟨rfl, [], rfl⟩
  | between => exact ⟨rfl, [], rfl⟩
  | paging k s =>
    rw [hphase] at hsound
    exact hflight (s := { s with verdict := l.mux.verdict }) hsound
  | deciding k s read fault =>
    simp only [hphase] at hsound
    obtain ⟨s₁, status, -, rfl, hsound⟩ := hsound
    exact hflight (s := { s₁ with verdict := l.mux.verdict }) hsound
  | holding k s read fault =>
    simp only [hphase] at hsound
    obtain ⟨s₁, status, -, rfl, -, hsound⟩ := hsound
    exact hflight (s := s₁) hsound
  | ended e => exact ⟨rfl, [], rfl⟩

/-- Every state of a live refresh is sound. -/
lemma sound_liveRun (options : SweepOptions) (session : Session) (mux : Mux)
    (hdb₀ : db₀.Consistent) (ticks : List Tick) :
    (liveRun c a options session mux db₀ ticks).Sound c a db₀ := by
  induction ticks using List.reverseRecOn with
  | nil => exact ⟨⟨[], .nil _⟩, rfl, rfl⟩
  | append_singleton ticks t ih =>
    rw [liveRun, List.foldl_append]
    exact (ih.step options session hdb₀ t).1

/-! ### Taint -/

/-- A refresh on which a violation is established, or that has ended. -/
def Live.Tainted (l : Live) : Prop :=
  (∃ e, l.phase = .ended e) ∨ l.mux.verdict ≠ none ∨ l.violation ≠ none

/-- From one state of a refresh to a later one nothing is retracted, and no sweep that ends on the
way is complete. -/
def Live.Withholds (l l' : Live) : Prop :=
  l'.durable.retractions = l.durable.retractions ∧
    ∃ new, l'.sweeps = l.sweeps ++ new ∧ ∀ w ∈ new, w.Withheld

/-- What two steps withhold, both withhold together. -/
lemma Live.Withholds.trans {l₁ l₂ l₃ : Live} (h₁ : l₁.Withholds l₂) (h₂ : l₂.Withholds l₃) :
    l₁.Withholds l₃ := by
  obtain ⟨hret₁, new₁, hsweeps₁, hnew₁⟩ := h₁
  obtain ⟨hret₂, new₂, hsweeps₂, hnew₂⟩ := h₂
  refine ⟨hret₂.trans hret₁, new₁ ++ new₂, ?_, fun w hw => ?_⟩
  · rw [hsweeps₂, hsweeps₁, List.append_assoc]
  · exact (List.mem_append.mp hw).elim (hnew₁ w) (hnew₂ w)

/-- A quiet step withholds everything: it reports nothing and makes nothing durable. -/
lemma Live.Quiet.withholds {l' : Live} (h : l.Quiet l') : l.Withholds l' :=
  ⟨h.retractions, [], by simp [h.sweeps], by simp⟩

/-- Ending a sweep that is not complete. -/
lemma Live.Sound.withholds (h : l.Sound c a db₀) (hdb₀ : db₀.Consistent) {script : Script}
    (hincomplete : ¬ (sweepResource c l.db input script).Complete)
    (rest : List ResourceDescriptor) :
    l.Withholds ({ l with rest }.finishSweep input (sweepResource c l.db input script)) := by
  have hwithheld := Swept.withheld_of_incomplete (h.consistent hdb₀) hincomplete
  refine ⟨?_, [_], Live.sweeps_finishSweep, by simpa using hwithheld⟩
  rw [Live.durable_finishSweep, (h.durable hdb₀).1]
  exact hwithheld.retractions

/-- **One tick of a tainted refresh** leaves it tainted, and withholds what it did: nothing is
retracted, and no sweep that ends in it is complete. -/
lemma Live.Sound.step_tainted (h : l.Sound c a db₀) (hdb₀ : db₀.Consistent) (htaint : l.Tainted)
    (t : Tick) :
    (l.step c a options session t).Tainted ∧ l.Withholds (l.step c a options session t) := by
  rcases (h.step options session hdb₀ t).2 with
    hquiet | ⟨hlive, input, script, rest, heq, hviolation, hverdict⟩
  · exact ⟨htaint.imp hquiet.ended (Or.imp hquiet.verdict hquiet.violation), hquiet.withholds⟩
  · have hknown := htaint.resolve_left hlive
    have hincomplete : ¬ (sweepResource c l.db input script).Complete := by
      refine sweep_tainted (h.consistent hdb₀) ?_
      rw [hviolation, hverdict]
      exact hknown.symm
    rw [heq]
    refine ⟨Or.inr (hknown.imp (fun hsome => ?_) Live.violation_finishSweep),
      h.withholds hdb₀ hincomplete rest⟩
    rwa [Live.mux_finishSweep]

/-- **A tainted refresh stays tainted**, and retracts nothing. -/
lemma Live.Sound.run_tainted (h : l.Sound c a db₀) (hdb₀ : db₀.Consistent) (htaint : l.Tainted)
    (ticks : List Tick) : l.Withholds (ticks.foldl (Live.step c a options session) l) := by
  induction ticks generalizing l with
  | nil => exact (Live.Quiet.refl l).withholds
  | cons t ticks ih =>
    obtain ⟨htaint', hwithholds⟩ := h.step_tainted hdb₀ htaint t
    exact hwithholds.trans (ih (h.step options session hdb₀ t).1 htaint')

/-- A violation that `balances.read` returned is known when the sweeps start. -/
lemma tainted_prepare {e : HostError} (hbalances : session.balances = .error e)
    (hbroke : brokeTheContract e = true) : (l.prepare a session).Tainted := by
  unfold Live.prepare
  split
  · exact Or.inl ⟨_, rfl⟩
  · rename_i db p hprepare
    refine Or.inr (Or.inr ?_)
    suffices h : p.connectionViolation ≠ none from h
    unfold prepareRefresh at hprepare
    repeat' split at hprepare
    all_goals simp_all
    obtain ⟨-, rfl⟩ := hprepare
    nofun

/-- A sweep whose `history.read` returned a violation is not complete, and taints the refresh.

**Proof sketch.** The sweep ends with the error, and what it leaves is that of a sweep by some
script that is not complete, so it is withheld. The violation is then kept for the sweeps that
follow, or the refresh ends where the commit fails. -/
lemma Live.Sound.establish_reply (h : l.Sound c a db₀) (hdb₀ : db₀.Consistent) {k : OpenCrawl}
    {s : Sweeping} (hphase : l.phase = .paging k s) {e : HostError} (fault : Bool)
    (hbroke : brokeTheContract e = true) :
    (l.reply c k s (.error e) fault).Tainted ∧ l.Withholds (l.reply c k s (.error e) fault) := by
  have hflight : InFlight c a l.db l.violation k { s with verdict := l.mux.verdict } := by
    have hsound := h.phase
    rwa [Live.PhaseSound, hphase] at hsound
  obtain ⟨script, hout⟩ := hflight.finish (e := .reply (.error e) fault) rfl
  have hincomplete := (hflight.withholds (h.consistent hdb₀)).2
  change (l.finishSweep k.input _).Tainted ∧ l.Withholds (l.finishSweep k.input _)
  refine ⟨?_, ?_⟩
  · cases fault with
    | true => exact Or.inl ⟨_, rfl⟩
    | false =>
      refine Or.inr (Or.inr ?_)
      change l.violation.or (if brokeTheContract e = true then _ else _) ≠ none
      simp [hbroke]
  · have hnot : ¬ (sweepResource c l.db k.input script).Complete := by
      rw [← hout]
      cases fault with
      | true => exact fun ⟨_, hreport, _⟩ => absurd hreport nofun
      | false => exact SweepRun.not_complete rfl hincomplete
    rw [hout]
    exact h.withholds hdb₀ hnot l.rest

variable (options) in
/-- **The tick that establishes a violation taints the refresh.**

**Proof sketch.** By cases of the tick; only three of them can establish a violation. A `prepare`
whose balances broke the protocol has the failure in its own hands. A reply that reports a violation
while a page is asked for goes through `sweepPage`, which takes it for its verdict before it
commits. An operation of the host is taken at a moment when no transaction is deciding, and leaves
the verdict in the host, where the next gate finds it. The other ticks establish nothing. -/
lemma Live.Sound.establish (h : l.Sound c a db₀) (hdb₀ : db₀.Consistent) {t : Tick}
    (ht : l.Establishes session t) :
    (l.step c a options session t).Tainted ∧ l.Withholds (l.step c a options session t) := by
  cases t with
  | prepare =>
    obtain ⟨hphase, e, hbalances, hbroke⟩ := ht
    rw [Live.step, hphase]
    exact ⟨tainted_prepare hbalances hbroke, (h.prepare hphase).2.withholds⟩
  | reply answer fault =>
    cases answer with
    | ok read => exact ht.elim
    | error e =>
      obtain ⟨⟨k, s, hphase⟩, hbroke⟩ := ht
      rw [Live.step, hphase]
      exact h.establish_reply hdb₀ hphase fault hbroke
  | mux op =>
    have hfree : ¬ (l.phase.holds && takesVerdict op) = true := by
      cases op with
      | recordViolation kind => simp [show l.phase.holds = false from ht]
      | finish reason =>
        cases reason with
        | violation kind => simp [ht.1]
        | crashed status => exact ht.elim
      | issue => exact ht.elim
      | tombstone id => exact ht.elim
      | deliver id frame receivedAt => exact ht.elim
    rw [Live.step, if_neg hfree]
    refine ⟨Or.inr (Or.inl ?_), (h.mux op hfree).2.withholds⟩
    cases op with
    | recordViolation kind => simp [Mux.apply, Mux.recordViolation]
    | finish reason =>
      cases reason with
      | violation kind => simp [Mux.apply, Mux.finish, ht.2, Terminal.published]
      | crashed status => exact ht.elim
    | issue => exact ht.elim
    | tombstone id => exact ht.elim
    | deliver id frame receivedAt => exact ht.elim
  | start now openFault limitFault => exact ht.elim
  | hold => exact ht.elim
  | commit => exact ht.elim

/-- No tick takes back a sweep: those that have ended stay, in order. -/
lemma Live.Sound.sweeps_isKept (h : l.Sound c a db₀) (hdb₀ : db₀.Consistent)
    (ticks : List Tick) :
    l.sweeps <+: (ticks.foldl (Live.step c a options session) l).sweeps := by
  induction ticks generalizing l with
  | nil => exact List.prefix_rfl
  | cons t ticks ih =>
    obtain ⟨hsound, hstep⟩ := h.step options session hdb₀ t
    refine List.IsPrefix.trans ?_ (ih hsound)
    rcases hstep with hquiet | ⟨-, input, script, rest, heq, -⟩
    · rw [hquiet.sweeps]
    · rw [heq, Live.sweeps_finishSweep]
      exact List.prefix_append _ _

/-- What a finished sweep left is kept for the rest of the refresh. -/
lemma Live.Sound.kept (actions : List Action) (h : l.Sound c a (run c actions)) {w : Swept}
    (hw : w ∈ l.sweeps) : w.KeptIn l.durable := by
  obtain ⟨ws, hswept⟩ := h.swept
  obtain ⟨before, after, hbefore, hafter⟩ := hswept.reaches hw
  obtain ⟨-, later, hlater⟩ := h.durable (consistent_run c actions)
  have hleft : w.out.db = run c (actions ++ ws.map .write ++ before) := by
    rw [run_append, run_append, List.foldl_map]
    exact hbefore.symm
  have hdurable : l.durable = run c (actions ++ ws.map .write ++ before ++ (after ++ later)) := by
    rw [run_append, ← hleft, List.foldl_append, hafter, hlater]
  obtain ⟨hrows, hret⟩ := prefix_run c (actions ++ ws.map .write ++ before) (after ++ later)
  rw [← hleft, ← hdurable] at hrows hret
  refine ⟨hrows, hret, fun row hrow => ?_⟩
  rw [hleft] at hrow
  obtain ⟨row', hrow', hsame⟩ := crawl_persists c _ (after ++ later) hrow
  exact ⟨row', hdurable ▸ hrow', hsame⟩

end Live

/-- **Forward-only taint.** However the ticks of a refresh interleave: after one that establishes
a contract violation nothing is retracted, and every sweep that ends then or later is not complete
and is recorded so. At every point of every refresh, what the sweeps that have ended reported,
stored, retracted and recorded of their crawls is kept from there on.

**Proof sketch.** A violation is in the verdict or among what the host remembers, and neither is
forgotten. A sweep's gate is decided on both under the lock, so that the verdict it decides on is
the one at its commit (`Live.Sound.step`); with either of them no sweep is complete
(`sweep_tainted`). What is on disk is always what some run of sweeps leaves (`Live.Sound.kept`). -/
theorem forward_taint (c : Crates) (actions : List Action) (a : String) (options : SweepOptions)
    (session : Session) (mux : Mux) (before : List Tick) :
    let refreshed := liveRun c a options session mux (run c actions)
    (∀ t, (refreshed before).Establishes session t → ∀ later,
      (refreshed (before ++ t :: later)).durable.retractions =
          (refreshed before).durable.retractions ∧
        ∃ new, (refreshed (before ++ t :: later)).sweeps = (refreshed before).sweeps ++ new ∧
          ∀ w ∈ new, w.Withheld) ∧
      ∀ later, (refreshed before).sweeps <+: (refreshed (before ++ later)).sweeps ∧
        ∀ w ∈ (refreshed before).sweeps, w.KeptIn (refreshed (before ++ later)).durable := by
  intro refreshed
  have hdb₀ := consistent_run c actions
  have hsound (ticks : List Tick) : (refreshed ticks).Sound c a (run c actions) :=
    sound_liveRun options session mux hdb₀ ticks
  have hrun (later : List Tick) : refreshed (before ++ later) =
      later.foldl (Live.step c a options session) (refreshed before) := List.foldl_append
  refine ⟨fun t ht later => ?_, fun later => ?_⟩
  · obtain ⟨htaint, hwithholds⟩ := (hsound before).establish options hdb₀ ht
    have hstep := ((hsound before).step options session hdb₀ t).1
    rw [hrun]
    exact hwithholds.trans (hstep.run_tainted hdb₀ htaint later)
  · have hkept : (refreshed before).sweeps <+: (refreshed (before ++ later)).sweeps :=
      hrun later ▸ (hsound before).sweeps_isKept hdb₀ later
    exact ⟨hkept, fun w hw => (hsound (before ++ later)).kept actions (hkept.subset hw)⟩

/-- A connection to the bank, which lists its checking account alone. -/
def bankSession : Session where
  helloAdapterId := "bank"
  helloDerivation := "d1"
  listed := .ok [⟨"checking", "bank.example", "account", "Checking", none⟩]
  statuses := .ok []
  balances := .ok none
  script := fun _ => Sample.script Sample.day₂ []

/-- A profile in which the account had one record, and the ticks of a refresh in which it has none:
what happens between the last reply and the verdict's lock is left open. -/
def rentStored : List Action :=
  [.write (.upsertAdapter "bank" []),
    .sweep (Sample.sweep "checking" "d1") (Sample.script Sample.day₁
      [Sample.page "checking" none
        [Sample.record "checking" "x" "api" "rent" .active Sample.day₁]])]

/-- The ticks of a sweep of the sample resource from which one record is gone. -/
def rentGone (published : List Tick) : List Tick :=
  [.prepare, .start Sample.day₂ false false, .reply (.ok (Sample.page "checking" none [])) false] ++
    published ++ [.hold, .commit]

/-- A violation published before the lock is taken withholds the retraction; one that would be
published while the lock is held waits, and the sweep stands. -/
example :
    (([[], [Tick.mux (.recordViolation .notJson)], [.hold, .mux (.recordViolation .notJson)]].map
      fun published => (liveRun Sample.crates "bank" ⟨false, true⟩ bankSession Mux.new
        (run Sample.crates rentStored) (rentGone published)).durable.retractions.length) =
      [1, 0, 1]) := by
  decide +kernel

end Sumer.Store
