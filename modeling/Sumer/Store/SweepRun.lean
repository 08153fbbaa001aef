import Sumer.Lib.Loop
import Sumer.Store.Sweep

set_option relaxedAutoImplicit false
set_option autoImplicit false

/-!
# A sweep from end to end

`sweep_resource` (`core/store/src/sweep.rs`): open a crawl, load the fold, and go through pages
until one ends the sweep. Every page commits on its own; the page without a `next` commits
together with the retraction derivation and the crawl's transition to drained.

What happens around a sweep is its `Script`: the clock, the replies in the order they are awaited,
the violations the reader thread publishes, and the commits that fail. A script may end at any
point: the process died while it was waiting. A commit that fails, for whatever reason inside its
transaction, leaves the tables as they were.

## Main definitions

* `Sumer.Store.openSweep`, `Sumer.Store.turn`, `Sumer.Store.sweepResource`: a sweep.
* `Sumer.Store.run`: the database after any sequence of sweeps and metadata writes.
-/

namespace Sumer.Store

open Sumer.Wire Sumer.Host

/-- One thing that happens while a sweep runs. A `reply` is what the awaited `history.read`
returned, with whether the commit that follows it fails; a `violation` is one the host publishes
in the connection's verdict. A violation that becomes established before the verdict is held
stands before the reply whose commit it precedes; none can fall inside that section. -/
inductive Event where
  | violation (kind : ProtocolViolationKind)
  | reply (answer : Except HostError HistoryRead) (fault : Bool)

/-- What happens around one sweep. -/
structure Script where
  now : Rfc3339
  /-- The connection's verdict when the sweep starts. -/
  verdict : Option ProtocolViolationKind
  /-- Whether the transaction that opens the crawl fails. -/
  openFault : Bool
  events : List Event
  /-- Whether the statement that closes a crawl at the page limit fails. -/
  limitFault : Bool

/-- How a sweep ended. -/
inductive Ended where
  | reported (report : SweepReport)
  | failed (error : StoreError)
  | killed

/-- What is fixed once the crawl of a sweep is open. The source's page limit is `MAX_PAGES`. -/
structure OpenCrawl where
  input : SweepInput
  now : Rfc3339
  crawlId : ℕ
  startPage : Option PageRequest
  /-- The chains that were buried when the sweep started. -/
  buried : String → Option ℕ
  pageLimit : Option ℕ
  limitFault : Bool

/-- A sweep between two pages: the durable tables and what it holds in memory. `committed` is not
in the source: it lists the replies whose pages have committed. -/
structure Sweeping where
  db : Db
  gate : Gate
  fold : Fold
  headMeta : String → Option HeadMeta
  resumeState : ResumeState
  page : Option PageRequest
  observedIds : List String
  exemptIds : List String
  pageNumber : ℕ
  verdict : Option ProtocolViolationKind
  report : SweepReport
  committed : List HistoryRead

/-- A sweep that has ended: the durable tables it left, what it returned, and, for the record, its
crawl, the fold it held and the replies whose pages committed. -/
structure SweepRun where
  db : Db
  ended : Ended
  opened : Option OpenCrawl
  fold : Fold
  verdict : Option ProtocolViolationKind
  committed : List HistoryRead

/-- The error of a commit or a statement that did not happen. -/
def commitFailed : StoreError := .sqlite "the transaction did not commit"

/-- A sweep that ends here, leaving the given tables. -/
def Sweeping.stop (s : Sweeping) (k : OpenCrawl) (db : Db) (ended : Ended) : SweepRun :=
  { db, ended, opened := some k, fold := s.fold, verdict := s.verdict, committed := s.committed }

/-- The software rules every stored revision of an adapter was last reported under. -/
def storedMeta (rows : List StoredObservation) : String × ℕ → Option HeadMeta :=
  rows.foldl
    (fun m row =>
      Function.update m (row.observation.localId, row.revision)
        (some ⟨row.derivation, row.fingerprint⟩))
    fun _ => none

/-- The software rules of each chain's head: of the row the fold calls the head, not of the last
one inserted. -/
def loadHeadMeta (db : Db) (adapterId localId : String) : Option HeadMeta :=
  (((loadFold db adapterId).chain adapterId localId).getLast?).bind fun head =>
    storedMeta (db.observationsForAdapter adapterId) (localId, head.revision)

/-- The stored cursor a sweep continues from. -/
def resumedFrom (db : Db) (input : SweepInput) : Option String :=
  if input.options.resume then resumePoint db input else none

/-- The first page to request: the stored cursor, read back, or the start of history. -/
def startPage (c : Crates) (resumed : Option String) : Except StoreError (Option PageRequest) :=
  match resumed with
  | none => .ok none
  | some text =>
    match c.parsePage text with
    | some page => .ok (some page)
    | none => .error .json

/-- Opens the crawl of a sweep and loads what it holds in memory. -/
def beginSweep (pageLimit : Option ℕ) (db : Db) (input : SweepInput) (script : Script)
    (start : Option PageRequest) : OpenCrawl × Sweeping :=
  let (db, crawlId) := db.openCrawl input.adapterId input.resourceId script.now.text
    (resumedFrom db input) input.helloDerivation (some input.fingerprint)
  ({ input, now := script.now, crawlId, startPage := start,
     buried := db.retractionHighWater input.adapterId, pageLimit,
     limitFault := script.limitFault },
    { db
      gate :=
        { beganAtStartOfHistory := start.isNone, drained := false, everyPageFetched := true,
          anonymousDegrade := false, everyCursorExact := true,
          helloDerivation := input.helloDerivation, foreignProvenance := false,
          notFetched := none, connectionViolation := input.connectionViolation }
      fold := loadFold db input.adapterId
      headMeta := loadHeadMeta db input.adapterId
      resumeState := ResumeState.new start
      page := start
      observedIds := []
      exemptIds := []
      pageNumber := 0
      verdict := script.verdict
      report := { SweepReport.empty input.adapterId input.resourceId with crawlId := some crawlId }
      committed := [] })

/-- Where a sweep starts, and its crawl. -/
def openSweep (pageLimit : Option ℕ) (c : Crates) (db : Db) (input : SweepInput)
    (script : Script) : Except StoreError (OpenCrawl × Sweeping) :=
  match startPage c (resumedFrom db input) with
  | .error e => .error e
  | .ok start =>
    if script.openFault then .error commitFailed
    else .ok (beginSweep pageLimit db input script start)

/-- Ends a sweep without draining: the crawl stays open, its cursor stays, nothing is retracted. -/
def finishEarly (k : OpenCrawl) (s : Sweeping) (reason : String) (contractViolation : Option String)
    (fault : Bool) : SweepRun :=
  if fault then s.stop k s.db (.failed commitFailed)
  else
    s.stop k (s.db.finishCrawl k.crawlId false false (some reason)) (.reported
      { s.report with
        disqualifiedReason := some reason
        error := some reason
        contractViolation := contractViolation })

/-- The page loop's counts after a page. -/
def SweepReport.counted (report : SweepReport) (counts : PageCounts) : SweepReport :=
  { report with
    appendedNew := report.appendedNew + counts.appendedNew
    revised := report.revised + counts.revised
    unchanged := report.unchanged + counts.unchanged }

/-- One page's observations into the tables and the fold. -/
def ingestInto (c : Crates) (k : OpenCrawl) (s : Sweeping) (kept : List Observation) :
    Except StoreError Ingesting :=
  ingestPage c k.input k.crawlId k.buried ⟨s.db, s.fold, s.headMeta, ⟨0, 0, 0⟩⟩ kept

/-- The text of a violation that the host, not a reply, brought to light. -/
def violationText (kind : ProtocolViolationKind) : String :=
  "the connection broke the wire contract: " ++ (HostError.protocolViolation kind).display

/-- The gate as it stands when the verdict is held: a published violation enters it unless one was
known before. -/
def Gate.hold (gate : Gate) (verdict : Option ProtocolViolationKind) : Gate :=
  { gate with connectionViolation := gate.connectionViolation.or (verdict.map violationText) }

/-- The report of a final page before the derivation: the page's counts, and a violation that came
to light while the sweep ran. -/
def Sweeping.heldReport (s : Sweeping) (counts : PageCounts) : SweepReport :=
  let report := s.report.counted counts
  if s.gate.connectionViolation.isNone && s.verdict.isSome then
    { report with contractViolation := s.verdict.map violationText }
  else report

/-- What the final page's transaction does to the tables: its observations, the retractions of a
sweep that no condition disqualifies, the metadata, and the crawl's transition to drained. -/
def finalTransaction (c : Crates) (k : OpenCrawl) (s : Sweeping) (kept : List Observation) :
    Except StoreError (Db × Fold × SweepReport) := do
  let ingested ← ingestInto c k s kept
  let report := s.heldReport ingested.counts
  let gate := s.gate.hold s.verdict
  let disqualifier := gate.disqualifier
  let (db, report) ←
    match disqualifier with
    | some reason => .ok (ingested.db, { report with disqualifiedReason := some reason })
    | none => do
      let (db, outcome) ← deriveRetractions ingested.db k.input k.crawlId ingested.fold
        ingested.headMeta s.observedIds s.exemptIds k.now
      pure (db, { report with
        complete := true
        retracted := outcome.retracted
        discrepancies := outcome.discrepancies })
  let db := db.setAdapterDerivation k.input.adapterId k.input.helloDerivation
  let db := db.setResourceDefinition k.input.adapterId k.input.resourceId k.input.fingerprint
    (if report.complete then some k.input.providerId else none)
  pure (db.finishCrawl k.crawlId gate.drained report.complete disqualifier, ingested.fold, report)

/-- The last page: everything in one transaction. -/
def finalPage (c : Crates) (k : OpenCrawl) (s : Sweeping) (read : HistoryRead)
    (kept : List Observation) (fault : Bool) : SweepRun :=
  match finalTransaction c k s kept with
  | .error e => s.stop k s.db (.failed e)
  | .ok (db, fold, report) =>
    if fault then s.stop k s.db (.failed commitFailed)
    else
      { db, ended := .reported report, opened := some k, fold, verdict := s.verdict,
        committed := s.committed ++ [read] }

/-- A page that is not the last: its observations and the resume point, in one transaction. At
the page limit the sweep ends without draining. -/
def middlePage (c : Crates) (k : OpenCrawl) (s : Sweeping) (read : HistoryRead)
    (kept : List Observation) (next : Option PageRequest) (fault : Bool) : Sweeping ⊕ SweepRun :=
  match ingestInto c k s kept with
  | .error e => .inr (s.stop k s.db (.failed e))
  | .ok ingested =>
    if fault then .inr (s.stop k s.db (.failed commitFailed))
    else
      let cursor := s.resumeState.nextRequest.map c.pageText
      let s := { s with
        db := ingested.db.setCrawlCursor k.crawlId cursor
        fold := ingested.fold
        headMeta := ingested.headMeta
        page := next
        pageNumber := s.pageNumber + 1
        report := s.report.counted ingested.counts
        committed := s.committed ++ [read] }
      if k.pageLimit = some s.pageNumber then
        .inr (finishEarly k s
          ("page_limit_" ++ toString s.pageNumber ++ "_reached_without_draining")
          s.report.contractViolation k.limitFault)
      else .inl s

/-- What a page's reply makes of the sweep's memory before anything is written: the gate, the ids
seen, and the resume state. -/
def Sweeping.read (s : Sweeping) (k : OpenCrawl) (read : HistoryRead) (status : ResourceStatus) :
    Sweeping :=
  let judged := judgePage s.gate s.exemptIds status s.pageNumber
  let next := status.page.bind PageReply.next
  { s with
    gate := { judged.1 with
      foreignProvenance :=
        judged.1.foreignProvenance || namesAnotherAdapter k.input read.observations
      drained := next.isNone && status.page.isSome }
    exemptIds := judged.2
    observedIds := s.observedIds ++
      (keptObservations k.input read.observations).map Observation.localId
    resumeState :=
      match status.page with
      | some page => s.resumeState.record page.cursorResumable page.next
      | none => s.resumeState }

/-- One page of a sweep: what the awaited reply makes of it. -/
def sweepPage (c : Crates) (k : OpenCrawl) (s : Sweeping) (answer : Except HostError HistoryRead)
    (fault : Bool) : Sweeping ⊕ SweepRun :=
  match answer with
  | .error e =>
    .inr (finishEarly k s
      ("adapter_failed_on_page_" ++ toString s.pageNumber ++ ": " ++ e.display)
      (if brokeTheContract e then some ("history.read broke the wire contract: " ++ e.display)
        else s.report.contractViolation) fault)
  | .ok read =>
    match read.statuses.find? (·.resourceId == k.input.resourceId) with
    | none =>
      .inr (finishEarly k s
        ("page_" ++ toString s.pageNumber ++ "_reported_no_status_for_this_resource")
        s.report.contractViolation fault)
    | some status =>
      let kept := keptObservations k.input read.observations
      let s := s.read k read status
      match status.page.bind PageReply.next with
      | none => .inr (finalPage c k s read kept fault)
      | some next => middlePage c k s read kept (some next) fault

/-- One turn of the page loop. The first violation published is the one that stays. -/
def turn (c : Crates) (k : OpenCrawl) (s : Sweeping) : Event → Sweeping ⊕ SweepRun
  | .violation kind => .inl { s with verdict := s.verdict.or (some kind) }
  | .reply answer fault => sweepPage c k s answer fault

/-- A sweep whose process died while it waited for a reply. -/
def cutOff (k : OpenCrawl) (s : Sweeping) : SweepRun := s.stop k s.db .killed

/-- A sweep that did not open its crawl. -/
def unopened (db : Db) (script : Script) (e : StoreError) : SweepRun :=
  { db, ended := .failed e, opened := none, fold := Fold.new, verdict := script.verdict,
    committed := [] }

/-- Runs one resource's sweep end to end, under a limit to the number of its pages. -/
def sweepWithin (pageLimit : Option ℕ) (c : Crates) (db : Db) (input : SweepInput)
    (script : Script) : SweepRun :=
  match openSweep pageLimit c db input script with
  | .error e => unopened db script e
  | .ok (k, s) => loop (turn c k) (cutOff k) s script.events

/-- Runs one resource's sweep end to end. -/
def sweepResource (c : Crates) (db : Db) (input : SweepInput) (script : Script) : SweepRun :=
  sweepWithin (some MAX_PAGES) c db input script

/-! ### Runs -/

/-- A write to the tables outside sweeps. -/
inductive MetaWrite where
  | upsertAdapter (adapterId : String) (argv : List String)
  | setAdapterDerivation (adapterId derivation : String)
  | upsertResource (adapterId resourceId kind label : String)
  | setNeedsReauth (adapterId : String) (needs : Bool)
  | openBalanceRead (adapterId : String)

/-- What a write outside sweeps does. One that a constraint rejects changes nothing. -/
def MetaWrite.apply (db : Db) : MetaWrite → Db
  | .upsertAdapter adapterId argv => db.upsertAdapter adapterId argv
  | .setAdapterDerivation adapterId derivation => db.setAdapterDerivation adapterId derivation
  | .upsertResource adapterId resourceId kind label =>
    match db.upsertResource adapterId resourceId kind label with
    | .ok db => db
    | .error _ => db
  | .setNeedsReauth adapterId needs => db.setNeedsReauth adapterId needs
  | .openBalanceRead adapterId =>
    match db.openBalanceRead adapterId with
    | .ok (db, _) => db
    | .error _ => db

/-- One step of the life of a store. Writing commands hold the profile's lock, so that there is
one at a time. -/
inductive Action where
  | write (w : MetaWrite)
  | sweep (input : SweepInput) (script : Script)

/-- The tables after one step. -/
def Action.apply (c : Crates) (db : Db) : Action → Db
  | .write w => w.apply db
  | .sweep input script => (sweepResource c db input script).db

/-- The database after a sequence of steps from a new profile. A reachable database is one of
these; what is on disk in the middle of a sweep is what its script, cut short there, leaves. -/
def run (c : Crates) (actions : List Action) : Db := actions.foldl (Action.apply c) Db.empty

/-- More actions take effect on the database that the earlier ones left. -/
lemma run_append (c : Crates) (actions later : List Action) :
    run c (actions ++ later) = later.foldl (Action.apply c) (run c actions) :=
  List.foldl_append

/-- One more action takes effect on the database that the earlier ones left. -/
lemma run_concat (c : Crates) (actions : List Action) (a : Action) :
    run c (actions ++ [a]) = a.apply c (run c actions) := by
  simp [run, List.foldl_append]

/-- What accumulates along a run, when each step sees the tables it finds. -/
def along {α : Type} (c : Crates) (f : Db → α → Action → α) (x : α) (actions : List Action) : α :=
  (actions.foldl (fun s a => (a.apply c s.1, f s.1 s.2 a)) (Db.empty, x)).2

/-- Nothing is collected along no action. -/
@[simp]
lemma along_nil {α : Type} (c : Crates) (f : Db → α → Action → α) (x : α) :
    along c f x [] = x := rfl

/-- What one more action adds is decided by the database before it and by what was collected so
far. -/
lemma along_concat {α : Type} (c : Crates) (f : Db → α → Action → α) (x : α)
    (actions : List Action) (a : Action) :
    along c f x (actions ++ [a]) = f (run c actions) (along c f x actions) a := by
  have hfst : (actions.foldl (fun (s : Db × α) a => (a.apply c s.1, f s.1 s.2 a))
      (Db.empty, x)).1 = run c actions := by
    induction actions using List.reverseRecOn with
    | nil => rfl
    | append_singleton actions b ih => simp [List.foldl_append, ih, run_concat]
  simp [along, List.foldl_append, hfst]

/-- **The invariant rule for runs**: what holds of the empty database, and is kept by every write
and every sweep, holds of every reachable one. -/
lemma run_invariant (c : Crates) (P : Db → Prop) (hempty : P Db.empty)
    (hwrite : ∀ db w, P db → P (MetaWrite.apply db w))
    (hsweep : ∀ db input script, P db → P (sweepResource c db input script).db)
    (actions : List Action) : P (run c actions) := by
  induction actions using List.reverseRecOn with
  | nil => exact hempty
  | append_singleton actions a ih =>
    rw [run_concat]
    cases a with
    | write w => exact hwrite _ w ih
    | sweep input script => exact hsweep _ input script ih

end Sumer.Store
