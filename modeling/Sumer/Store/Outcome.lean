import Sumer.Store.Retract

set_option relaxedAutoImplicit false
set_option autoImplicit false

/-!
# How a sweep ends

Everything a sweep holds between two pages is a function of the pages it has committed, and so
are the tables it has left on disk. From this the ways in which a sweep can end are read off: it
never opened its crawl, it was cut off after some committed page, it closed its crawl early, or it
committed its final page.

## Main definitions

* `Sumer.Store.afterPages`: the tables after a sweep has committed some pages.
* `Sumer.Store.At`: a sweep between two pages, after the given events.
* `Sumer.Store.Ends`: the ways an open sweep can end, by the tables it leaves.

## Main results

* `Sumer.Store.turn_at`, `Sumer.Store.advance_at`: every state of the page loop is as `At` says.
* `Sumer.Store.sweep_outcome`: every sweep ends in one of these ways.
-/

namespace Sumer.Store

open Sumer.Wire Sumer.Host

/-! ### What a page says -/

/-- The status a page reports for the resource of a sweep. -/
def statusFor (input : SweepInput) (read : HistoryRead) : Option ResourceStatus :=
  read.statuses.find? (·.resourceId == input.resourceId)

/-- The page reply of that status. -/
def pageReply (input : SweepInput) (read : HistoryRead) : Option PageReply :=
  (statusFor input read).bind ResourceStatus.page

/-- The observations of a page that a sweep keeps. -/
def pageKept (input : SweepInput) (read : HistoryRead) : List Observation :=
  keptObservations input read.observations

/-- The local ids a page names as degraded. -/
def pageExempt (input : SweepInput) (read : HistoryRead) : List String :=
  (((statusFor input read).map ResourceStatus.degraded).getD []).filterMap Degraded.localId

/-- Whether a page reported `fetched`. -/
def pageFetched (input : SweepInput) (read : HistoryRead) : Bool :=
  (statusFor input read).any fun status => isFetched status.outcome

/-- Whether a page carried an anonymous degraded entry. -/
def pageAnonymous (input : SweepInput) (read : HistoryRead) : Bool :=
  (statusFor input read).any fun status => status.degraded.any (·.localId.isNone)

/-- Whether the cursor of a page, if it has one, is exact-resumable. -/
def pageExact (input : SweepInput) (read : HistoryRead) : Bool :=
  (pageReply input read).all fun page => decide (page.cursorResumable = .exact)

/-- Whether a page carried an observation of another adapter. -/
def pageForeign (input : SweepInput) (read : HistoryRead) : Bool :=
  namesAnotherAdapter input read.observations

/-- The page a reply points to. -/
def pageNext (input : SweepInput) (read : HistoryRead) : Option PageRequest :=
  (pageReply input read).bind PageReply.next

/-- All observations that a sweep keeps of its pages. -/
def allKept (input : SweepInput) (pages : List HistoryRead) : List Observation :=
  pages.flatMap (pageKept input)

/-- All local ids that a sweep observes on its pages. -/
def allObserved (input : SweepInput) (pages : List HistoryRead) : List String :=
  (allKept input pages).map Observation.localId

/-- All local ids that its pages name as degraded. -/
def allExempt (input : SweepInput) (pages : List HistoryRead) : List String :=
  pages.flatMap (pageExempt input)

/-- How the read would be resumed after some pages. -/
def resumeAfter (input : SweepInput) (start : Option PageRequest) (pages : List HistoryRead) :
    ResumeState :=
  pages.foldl
    (fun state read =>
      match pageReply input read with
      | some page => state.record page.cursorResumable page.next
      | none => state)
    (ResumeState.new start)

/-- The page to request after some pages: the `next` of the last one. -/
def pageAfter (input : SweepInput) (start : Option PageRequest) (pages : List HistoryRead) :
    Option PageRequest :=
  match pages.getLast? with
  | some read => pageNext input read
  | none => start

/-- Nothing is kept of no page. -/
@[simp]
lemma allKept_nil (input : SweepInput) : allKept input [] = [] := rfl

/-- What is kept of one page more comes after what was kept before. -/
@[simp]
lemma allKept_concat (input : SweepInput) (pages : List HistoryRead) (read : HistoryRead) :
    allKept input (pages ++ [read]) = allKept input pages ++ pageKept input read := by
  simp [allKept]

/-- Whatever a sweep keeps is its adapter's own and of its resource. -/
lemma mem_pageKept {input : SweepInput} {read : HistoryRead} {o : Observation} :
    o ∈ pageKept input read ↔ o ∈ read.observations ∧
      o.provenance.adapterId = input.adapterId ∧ o.resourceId = input.resourceId := by
  simp [pageKept, keptObservations]

/-- What is kept of the pages of a sweep is kept of one of them. -/
lemma mem_allKept {input : SweepInput} {pages : List HistoryRead} {o : Observation} :
    o ∈ allKept input pages ↔ ∃ read ∈ pages, o ∈ pageKept input read := by
  simp [allKept]

/-- All kept observations name the sweep's adapter. -/
lemma provenance_of_mem_allKept {input : SweepInput} {pages : List HistoryRead} {o : Observation}
    (h : o ∈ allKept input pages) : o.provenance.adapterId = input.adapterId := by
  obtain ⟨read, -, ho⟩ := mem_allKept.mp h
  exact (mem_pageKept.mp ho).2.1

/-! ### The tables after some pages -/

/-- The text of the resume point after some pages. -/
def cursorAfter (c : Crates) (k : OpenCrawl) (pages : List HistoryRead) : Option String :=
  (resumeAfter k.input k.startPage pages).nextRequest.map c.pageText

/-- The tables after a sweep that was opened on `db` has committed some pages. -/
def afterPages (c : Crates) (k : OpenCrawl) (db : Db) (pages : List HistoryRead) : Db :=
  let observed := db.observeAll c k.input k.crawlId (allKept k.input pages)
  if pages.isEmpty then observed else observed.setCrawlCursor k.crawlId (cursorAfter c k pages)

/-- The metadata and the crawl's last transition, as a final page writes them. -/
def Db.closeBooks (input : SweepInput) (crawlId : ℕ) (drained complete : Bool)
    (reason : Option String) (db : Db) : Db :=
  ((db.setAdapterDerivation input.adapterId input.helloDerivation).setResourceDefinition
    input.adapterId input.resourceId input.fingerprint
    (if complete then some input.providerId else none)).finishCrawl crawlId drained complete reason

/-- The rules on the row of a chain's head. -/
def Db.headRules (db : Db) (a l : String) : Option HeadMeta :=
  (db.headRow a l).map fun row => ⟨row.derivation, row.fingerprint⟩

section Congr

variable {db db' : Db} {a l : String}

/-- The chains are read off the stored rows alone. -/
lemma Db.chainRows_congr (h : db'.observations = db.observations) :
    db'.chainRows = db.chainRows := by
  funext a l
  simp [chainRows, h]

/-- The head of a chain is read off the stored rows alone. -/
lemma Db.headRow_congr (h : db'.observations = db.observations) : db'.headRow = db.headRow := by
  funext a l
  simp [headRow, Db.chainRows_congr h]

/-- Whether a chain is buried is read off the rows and the retractions alone. -/
lemma Db.buried_congr (h : db'.observations = db.observations)
    (h' : db'.retractions = db.retractions) : db'.buried = db.buried := by
  funext a l
  simp [buried, Db.chainRows_congr h, Db.retractionHighWater_congr h']

/-- Liveness is read off the rows and the retractions alone. -/
lemma Db.live_congr (h : db'.observations = db.observations)
    (h' : db'.retractions = db.retractions) : db'.Live = db.Live := by
  funext a r l
  simp [Live, Db.headRow_congr h, Db.buried_congr h h']

/-- The rules under which the heads stand are read off the stored rows alone. -/
lemma Db.headRules_congr (h : db'.observations = db.observations) :
    db'.headRules = db.headRules := by
  funext a l
  simp [headRules, Db.headRow_congr h]

/-- The fold is loaded from the stored rows alone. -/
lemma loadFold_congr (h : db'.observations = db.observations) : loadFold db' = loadFold db := by
  funext a
  simp [loadFold, Db.observationsForAdapter, h]

/-- The live records are read off the rows and the retractions alone. -/
lemma liveRecords_congr (h : db'.observations = db.observations)
    (h' : db'.retractions = db.retractions) : liveRecords db' = liveRecords db := by
  funext a r
  simp [liveRecords, loadFold_congr h, Db.retractionHighWater_congr h']

/-- The invariant reads the observations, the retractions and the crawl ids. -/
lemma Db.Consistent.congr (hdb : db.Consistent) (h : db'.observations = db.observations)
    (h' : db'.retractions = db.retractions)
    (hcrawls : db'.crawls.map CrawlRow.crawlId = db.crawls.map CrawlRow.crawlId) :
    db'.Consistent where
  revisions := by
    rw [Db.chainRows_congr h]
    exact hdb.revisions
  provenance := by
    rw [h]
    exact hdb.provenance
  retracted := by
    rw [Db.chainRows_congr h, h']
    exact hdb.retracted
  retractedOnce := by
    rw [h']
    exact hdb.retractedOnce
  crawlIds := by
    rw [hcrawls]
    exact hdb.crawlIds

/-- What an observation does depends on the observations and retractions alone. -/
lemma Db.observations_observe_congr (c : Crates) (input : SweepInput) (crawlId : ℕ)
    (o : Observation) (h : db'.observations = db.observations)
    (h' : db'.retractions = db.retractions) :
    (db'.observe c input crawlId o).observations = (db.observe c input crawlId o).observations := by
  have hrep : db'.repeats c input.adapterId o = db.repeats c input.adapterId o := by
    simp [repeats, Db.headRow_congr h, Db.buried_congr h h']
  unfold Db.observe
  rw [hrep]
  split_ifs
  · simp [stampHead, stampSeen, Db.headRow_congr h, h]
  · simp [newRow, Db.chainRows_congr h, h]

end Congr

section ObserveAll

variable {c : Crates} {input : SweepInput} {crawlId : ℕ} {db : Db} {os : List Observation}

/-- Storing the records of a page retracts nothing. -/
@[simp]
lemma Db.retractions_observeAll :
    (db.observeAll c input crawlId os).retractions = db.retractions :=
  Db.observeAll_invariant (P := fun db' => db'.retractions = db.retractions)
    (fun _ _ _ h => by rw [Db.retractions_observe, h]) rfl

/-- Storing the records of a page leaves the crawls as they are. -/
@[simp]
lemma Db.crawls_observeAll : (db.observeAll c input crawlId os).crawls = db.crawls :=
  Db.observeAll_invariant (P := fun db' => db'.crawls = db.crawls)
    (fun _ _ _ h => by rw [Db.crawls_observe, h]) rfl

/-- Storing the records of a page defines no resource. -/
@[simp]
lemma Db.resources_observeAll : (db.observeAll c input crawlId os).resources = db.resources :=
  Db.observeAll_invariant (P := fun db' => db'.resources = db.resources)
    (fun _ _ _ h => by rw [Db.resources_observe, h]) rfl

/-- Storing the records of a page leaves what is known of the adapters. -/
@[simp]
lemma Db.adapters_observeAll : (db.observeAll c input crawlId os).adapters = db.adapters :=
  Db.observeAll_invariant (P := fun db' => db'.adapters = db.adapters)
    (fun _ _ _ h => by rw [Db.adapters_observe, h]) rfl

/-- Storing the records of a page reports no discrepancy. -/
@[simp]
lemma Db.discrepancies_observeAll :
    (db.observeAll c input crawlId os).discrepancies = db.discrepancies :=
  Db.observeAll_invariant (P := fun db' => db'.discrepancies = db.discrepancies)
    (fun _ _ _ h => by rw [Db.discrepancies_observe, h]) rfl

/-- Observing after other tables were written is observing before. -/
lemma Db.observeAll_of_eq {db' : Db} (h : db'.observations = db.observations)
    (h' : db'.retractions = db.retractions) :
    db'.observeAll c input crawlId os =
      { db' with observations := (db.observeAll c input crawlId os).observations } := by
  have hobs : (db'.observeAll c input crawlId os).observations =
      (db.observeAll c input crawlId os).observations := by
    induction os generalizing db db' with
    | nil => exact h
    | cons o os ih =>
      exact ih (Db.observations_observe_congr c input crawlId o h h') (by simp [h'])
  rw [← hobs]
  ext1 <;> simp

/-- The tables stay consistent under the observations of a sweep. -/
lemma Db.Consistent.observeAll (hdb : db.Consistent)
    (hos : ∀ o ∈ os, o.provenance.adapterId = input.adapterId) :
    (db.observeAll c input crawlId os).Consistent :=
  Db.observeAll_invariant (P := Db.Consistent) (fun _ o ho h => h.observe (hos o ho)) hdb

/-- A chain that no observation belongs to keeps its rows. -/
lemma Db.chainRows_observeAll_of_notMem {a l : String}
    (h : ¬(a = input.adapterId ∧ l ∈ os.map Observation.localId)) :
    (db.observeAll c input crawlId os).chainRows a l = db.chainRows a l := by
  refine Db.observeAll_invariant (P := fun db' => db'.chainRows a l = db.chainRows a l) ?_ rfl
  intro db' o ho hdb'
  rw [Db.chainRows_observe_of_ne, hdb']
  rintro ⟨ha, rfl⟩
  exact h ⟨ha, List.mem_map_of_mem ho⟩

/-- A chain that no observation belongs to keeps its head. -/
lemma Db.headRow_observeAll_of_notMem {a l : String}
    (h : ¬(a = input.adapterId ∧ l ∈ os.map Observation.localId)) :
    (db.observeAll c input crawlId os).headRow a l = db.headRow a l := by
  rw [Db.headRow, Db.chainRows_observeAll_of_notMem h, Db.headRow]

end ObserveAll

/-! ### Opening -/

/-- The tables, the crawl and the memory a sweep starts with. -/
structure Opened (c : Crates) (db : Db) (input : SweepInput) (script : Script) (k : OpenCrawl)
    (db₁ : Db) : Prop where
  input_eq : k.input = input
  now_eq : k.now = script.now
  crawlId_eq : k.crawlId = db.nextCrawlId
  buried_eq : k.buried = db.retractionHighWater input.adapterId
  start : startPage c (resumedFrom db input) = .ok k.startPage
  db_eq : db₁ = (db.openCrawl input.adapterId input.resourceId script.now.text
    (resumedFrom db input) input.helloDerivation (some input.fingerprint)).1

section Open

variable {c : Crates} {db db₁ : Db} {input : SweepInput} {script : Script} {k : OpenCrawl}

/-- Opening a crawl leaves the observations. -/
lemma Opened.observations (h : Opened c db input script k db₁) :
    db₁.observations = db.observations := by
  rw [h.db_eq]
  rfl

/-- Opening a crawl leaves the retractions. -/
lemma Opened.retractions (h : Opened c db input script k db₁) :
    db₁.retractions = db.retractions := by
  rw [h.db_eq]
  rfl

/-- Opening a crawl leaves the resources. -/
lemma Opened.resources (h : Opened c db input script k db₁) : db₁.resources = db.resources := by
  rw [h.db_eq]
  rfl

/-- The crawl ids after opening: one more. -/
lemma Opened.crawlIds (h : Opened c db input script k db₁) :
    db₁.crawls.map CrawlRow.crawlId = db.crawls.map CrawlRow.crawlId ++ [k.crawlId] := by
  rw [h.db_eq, h.crawlId_eq, Db.openCrawl, List.map_append]
  congr 1
  exact map_update _ (fun row : CrawlRow => { row with nextPage := none }) _ (fun _ => rfl) _

/-- The next crawl id is above all there are. -/
lemma Db.lt_nextCrawlId {db : Db} {i : ℕ} (h : i ∈ db.crawls.map CrawlRow.crawlId) :
    i < db.nextCrawlId := by
  obtain ⟨m, hm⟩ := Option.isSome_iff_exists.mp (List.isSome_max?_of_mem h)
  have := (List.max?_eq_some_iff.mp hm).2 i h
  simp only [Db.nextCrawlId, hm, Option.getD_some]
  omega

/-- Opening a crawl keeps the tables' invariant. -/
lemma Opened.consistent (h : Opened c db input script k db₁) (hdb : db.Consistent) :
    db₁.Consistent := by
  have hids := h.crawlIds
  refine ⟨?_, ?_, ?_, ?_, ?_⟩
  · rw [Db.chainRows_congr h.observations]
    exact hdb.revisions
  · rw [h.observations]
    exact hdb.provenance
  · rw [Db.chainRows_congr h.observations, h.retractions]
    exact hdb.retracted
  · rw [h.retractions]
    exact hdb.retractedOnce
  · rw [hids]
    refine List.pairwise_append.mpr ⟨hdb.crawlIds, List.pairwise_singleton _ _, ?_⟩
    intro i hi j hj
    rw [List.mem_singleton.mp hj, h.crawlId_eq]
    exact Db.lt_nextCrawlId hi

/-- A crawl exists if its id is among the crawl ids. -/
lemma hasCrawl_iff {i : ℕ} : db.hasCrawl i = true ↔ i ∈ db.crawls.map CrawlRow.crawlId := by
  simp [Db.hasCrawl]

/-- The crawl of an open sweep exists. -/
lemma Opened.hasCrawl (h : Opened c db input script k db₁) : db₁.hasCrawl k.crawlId = true := by
  rw [hasCrawl_iff, h.crawlIds]
  simp

end Open

/-! ### Between two pages -/

/-- The verdict latch after some events: the first violation published stays. -/
def latch (verdict : Option ProtocolViolationKind) (events : List Event) :
    Option ProtocolViolationKind :=
  events.foldl
    (fun v e =>
      match e with
      | .violation kind => v.or (some kind)
      | .reply _ _ => v)
    verdict

/-- One more event publishes its violation, if it is one and none came before it. -/
lemma latch_concat (verdict : Option ProtocolViolationKind) (events : List Event) (e : Event) :
    latch verdict (events ++ [e]) =
      match e with
      | .violation kind => (latch verdict events).or (some kind)
      | .reply _ _ => latch verdict events := by
  rw [latch, List.foldl_append]
  rfl

/-- The replies among some events. -/
def repliesOf (events : List Event) : List HistoryRead :=
  events.filterMap fun e =>
    match e with
    | .reply (.ok read) _ => some read
    | _ => none

/-- What the memory of a sweep that has read some pages holds. -/
structure Remembers (k : OpenCrawl) (s : Sweeping) (pages : List HistoryRead) : Prop where
  began : s.gate.beganAtStartOfHistory = k.startPage.isNone
  fetched : s.gate.everyPageFetched = pages.all (pageFetched k.input)
  anonymous : s.gate.anonymousDegrade = pages.any (pageAnonymous k.input)
  exactCursor : s.gate.everyCursorExact = pages.all (pageExact k.input)
  derivation : s.gate.helloDerivation = k.input.helloDerivation
  foreign : s.gate.foreignProvenance = pages.any (pageForeign k.input)
  violation : s.gate.connectionViolation = k.input.connectionViolation
  observed : s.observedIds = allObserved k.input pages
  exempt : s.exemptIds = allExempt k.input pages
  resume : s.resumeState = resumeAfter k.input k.startPage pages

/-- A sweep between two pages, after the given events: each reply among them committed its page,
memory holds what those pages say, and memory and tables agree. -/
structure At (c : Crates) (script : Script) (k : OpenCrawl) (db₁ : Db) (events : List Event)
    (s : Sweeping) : Prop where
  committed : s.committed = repliesOf events
  clean : ∀ answer fault, Event.reply answer fault ∈ events →
    fault = false ∧ ∃ read, answer = .ok read ∧ (pageNext k.input read).isSome = true
  verdict : s.verdict = latch script.verdict events
  page : s.page = pageAfter k.input k.startPage s.committed
  incomplete : s.report.complete = false
  remembers : Remembers k s s.committed
  agrees : Ingesting.Agrees ⟨s.db, s.fold, s.headMeta, ⟨0, 0, 0⟩⟩ k.input k.crawlId k.buried
  db : s.db = afterPages c k db₁ s.committed
  headMeta : ∀ l, s.headMeta l =
    if l ∈ allObserved k.input s.committed then some k.input.rules
    else db₁.headRules k.input.adapterId l

section Memory

variable {k : OpenCrawl} {s : Sweeping} {pages : List HistoryRead} {read : HistoryRead}
  {status : ResourceStatus}

/-- Memory is the gate, the ids and the resume state. -/
lemma Remembers.congr {s' : Sweeping} (h : Remembers k s pages) (hgate : s'.gate = s.gate)
    (hobserved : s'.observedIds = s.observedIds) (hexempt : s'.exemptIds = s.exemptIds)
    (hresume : s'.resumeState = s.resumeState) : Remembers k s' pages := by
  obtain ⟨h₁, h₂, h₃, h₄, h₅, h₆, h₇, h₈, h₉, h₁₀⟩ := h
  constructor <;> simp only [*]

/-- Reading one more page extends what the gate remembers by what is on it: the ids it observed, the
ids it names, and its faults. -/
lemma Remembers.concat (h : Remembers k s pages) (hstatus : statusFor k.input read = some status) :
    Remembers k (s.read k read status) (pages ++ [read]) where
  began := h.began
  fetched := by simp [Sweeping.read, judgePage, h.fetched, pageFetched, hstatus]
  anonymous := by simp [Sweeping.read, judgePage, h.anonymous, pageAnonymous, hstatus]
  exactCursor := by simp [Sweeping.read, judgePage, h.exactCursor, pageExact, pageReply, hstatus]
  derivation := h.derivation
  foreign := by simp [Sweeping.read, judgePage, h.foreign, pageForeign]
  violation := h.violation
  observed := by simp [Sweeping.read, h.observed, allObserved, pageKept]
  exempt := by simp [Sweeping.read, judgePage, h.exempt, allExempt, pageExempt, hstatus]
  resume := by
    have hreply : pageReply k.input read = status.page := by simp [pageReply, hstatus]
    rw [resumeAfter, List.foldl_append, List.foldl_cons, List.foldl_nil, hreply]
    cases hpage : status.page <;> simp only [Sweeping.read, h.resume, resumeAfter, hpage]

/-- **The nine conditions.** What a sweep that no condition disqualifies has read. -/
structure Qualifies (k : OpenCrawl) (pages : List HistoryRead) (drained : Bool)
    (verdict : Option ProtocolViolationKind) : Prop where
  noViolation : k.input.connectionViolation = none ∧ verdict = none
  began : k.startPage = none
  drained : drained = true
  fetched : ∀ read ∈ pages, pageFetched k.input read = true
  named : ∀ read ∈ pages, pageAnonymous k.input read = false
  exactCursor : ∀ read ∈ pages, pageExact k.input read = true
  derivation : k.input.helloDerivation.isEmpty = false
  own : ∀ read ∈ pages, pageForeign k.input read = false

/-- No condition disqualifies exactly when all nine hold. -/
lemma Gate.disqualifier_eq_none_iff (gate : Gate) :
    gate.disqualifier = none ↔ gate.connectionViolation = none ∧
      gate.beganAtStartOfHistory = true ∧ gate.drained = true ∧ gate.everyPageFetched = true ∧
      gate.anonymousDegrade = false ∧ gate.everyCursorExact = true ∧
      gate.helloDerivation.isEmpty = false ∧ gate.foreignProvenance = false := by
  unfold Gate.disqualifier
  cases hviolation : gate.connectionViolation with
  | some violation => simp
  | none =>
    split_ifs <;> simp_all

/-- The gate of a final page, by what the sweep has read. -/
lemma Remembers.disqualifier_eq_none_iff (h : Remembers k s pages)
    (verdict : Option ProtocolViolationKind) :
    (s.gate.hold verdict).disqualifier = none ↔ Qualifies k pages s.gate.drained verdict := by
  rw [Gate.disqualifier_eq_none_iff]
  simp only [Gate.hold, h.began, h.fetched, h.anonymous, h.exactCursor, h.derivation, h.foreign,
    h.violation, Option.or_eq_none_iff, Option.map_eq_none_iff, Option.isNone_iff_eq_none,
    List.all_eq_true, List.any_eq_false]
  constructor
  · rintro ⟨h₁, h₂, h₃, h₄, h₅, h₆, h₇, h₈⟩
    exact ⟨h₁, h₂, h₃, h₄, by simpa using h₅, h₆, h₇, by simpa using h₈⟩
  · rintro ⟨h₁, h₂, h₃, h₄, h₅, h₆, h₇, h₈⟩
    exact ⟨h₁, h₂, h₃, h₄, by simpa using h₅, h₆, h₇, by simpa using h₈⟩

end Memory

/-- The tables of a final page before its retractions: all pages' observations. -/
def finalObserved (c : Crates) (k : OpenCrawl) (db₁ : Db) (pages : List HistoryRead)
    (read : HistoryRead) : Db :=
  (afterPages c k db₁ pages).observeAll c k.input k.crawlId (pageKept k.input read)

/-- The tables a complete sweep leaves. -/
def completed (c : Crates) (k : OpenCrawl) (db₁ : Db) (pages : List HistoryRead)
    (read : HistoryRead) : Db :=
  let observed := finalObserved c k db₁ pages read
  let seen := allObserved k.input (pages ++ [read])
  let named := allExempt k.input (pages ++ [read])
  let rules := observed.headRules k.input.adapterId
  (observed.retract
    ((observed.absent k.input seen named).map (retractionRow k.input k.crawlId k.now rules))
    ((observed.discrepanciesOf k.input k.crawlId k.now rules seen named).map
      (discrepancyRow k.input k.crawlId k.now))).closeBooks k.input k.crawlId true true none

/-- How an open sweep ends, with the events whose pages it committed. -/
inductive Ends (c : Crates) (script : Script) (k : OpenCrawl) (db₁ : Db) :
    List Event → SweepRun → Prop
  /-- Cut off, or stopped by a commit that failed, between two pages. -/
  | cut {events : List Event} {s : Sweeping} {ended : Ended} (hat : At c script k db₁ events s)
      (hended : ∀ report, ended ≠ .reported report) :
      Ends c script k db₁ events (s.stop k s.db ended)
  /-- Closed early: the adapter failed, a page had no status, or the page limit was reached. -/
  | early {events : List Event} {s : Sweeping} (hat : At c script k db₁ events s) (reason : String)
      (report : SweepReport) (hcomplete : report.complete = false) :
      Ends c script k db₁ events
        (s.stop k (s.db.finishCrawl k.crawlId false false (some reason)) (.reported report))
  /-- The final page committed, and some condition disqualified the sweep. -/
  | partialSweep {events : List Event} {s : Sweeping} {read : HistoryRead}
      {status : ResourceStatus} (hat : At c script k db₁ events s)
      (hstatus : statusFor k.input read = some status)
      (hlast : pageNext k.input read = none) (reason : String)
      (hgate : ¬ Qualifies k (s.committed ++ [read]) status.page.isSome s.verdict)
      (report : SweepReport) (hcomplete : report.complete = false) :
      Ends c script k db₁ (events ++ [.reply (.ok read) false])
        { db := (finalObserved c k db₁ s.committed read).closeBooks k.input k.crawlId
            status.page.isSome false (some reason)
          ended := .reported report, opened := some k
          fold := loadFold (finalObserved c k db₁ s.committed read) k.input.adapterId
          verdict := s.verdict, committed := s.committed ++ [read] }
  /-- The final page committed, and all nine conditions hold. -/
  | complete {events : List Event} {s : Sweeping} {read : HistoryRead} {status : ResourceStatus}
      (hat : At c script k db₁ events s) (hstatus : statusFor k.input read = some status)
      (hlast : pageNext k.input read = none)
      (hgate : Qualifies k (s.committed ++ [read]) status.page.isSome s.verdict)
      (report : SweepReport) (hcomplete : report.complete = true) :
      Ends c script k db₁ (events ++ [.reply (.ok read) false])
        { db := completed c k db₁ s.committed read
          ended := .reported report, opened := some k
          fold := loadFold (finalObserved c k db₁ s.committed read) k.input.adapterId
          verdict := s.verdict, committed := s.committed ++ [read] }

section Sweep

variable {c : Crates} {db db₁ : Db} {input : SweepInput} {script : Script} {k : OpenCrawl}
  {s : Sweeping} {pageLimit : Option ℕ}

/-- **Opening a sweep**: its crawl is new, and its memory is that of no page.

**Proof sketch.** The sweep reads the start of its resource, writes one crawl, and loads the fold
and the metadata from the tables, so memory and tables agree before any page. Nothing was read or
committed yet. -/
lemma openSweep_at (hdb : db.Consistent) (h : openSweep pageLimit c db input script = .ok (k, s)) :
    Opened c db input script k s.db ∧ At c script k s.db [] s := by
  unfold openSweep at h
  cases hstart : startPage c (resumedFrom db input) with
  | error e => simp [hstart] at h
  | ok start =>
    simp only [hstart] at h
    split_ifs at h with hfault
    simp only [Except.ok.injEq] at h
    obtain ⟨rfl, rfl⟩ := Prod.ext_iff.mp h
    have hopen : Opened c db input script (beginSweep pageLimit db input script start).1
        (beginSweep pageLimit db input script start).2.db := ⟨rfl, rfl, rfl, rfl, hstart, rfl⟩
    have hcons := hopen.consistent hdb
    refine ⟨hopen, ?_⟩
    exact {
      committed := rfl
      clean := by simp
      verdict := rfl
      page := rfl
      incomplete := rfl
      remembers := ⟨rfl, rfl, rfl, rfl, rfl, rfl, rfl, rfl, rfl, rfl⟩
      agrees := ⟨hcons, rfl, rfl, hopen.hasCrawl⟩
      db := rfl
      headMeta := fun l => loadHeadMeta_eq hcons }

/-- Writing a cursor leaves the crawl ids. -/
lemma Db.crawlIds_setCrawlCursor (i : ℕ) (cursor : Option String) :
    (db.setCrawlCursor i cursor).crawls.map CrawlRow.crawlId = db.crawls.map CrawlRow.crawlId :=
  map_update _ (fun row : CrawlRow => { row with nextPage := cursor }) _ (fun _ => rfl) _

/-- The cursor of a crawl and the observations of a page are written independently. -/
lemma Db.observeAll_setCrawlCursor (crawlId i : ℕ) (cursor : Option String)
    (os : List Observation) :
    (db.setCrawlCursor i cursor).observeAll c input crawlId os =
      (db.observeAll c input crawlId os).setCrawlCursor i cursor := by
  have hobs : (db.setCrawlCursor i cursor).observations = db.observations := rfl
  rw [Db.observeAll_of_eq hobs rfl]
  ext1 <;> simp [Db.setCrawlCursor]

/-- The last cursor written is the one that stays. -/
lemma Db.setCrawlCursor_setCrawlCursor (i : ℕ) (cursor cursor' : Option String) :
    (db.setCrawlCursor i cursor).setCrawlCursor i cursor' = db.setCrawlCursor i cursor' := by
  ext1 <;> simp [Db.setCrawlCursor, update_update, Function.comp_def]

/-- Committing one more page takes in its records and then writes the cursor that its reply
leaves. -/
lemma afterPages_concat (pages : List HistoryRead) (read : HistoryRead) :
    ((afterPages c k db pages).observeAll c k.input k.crawlId
      (pageKept k.input read)).setCrawlCursor k.crawlId (cursorAfter c k (pages ++ [read])) =
        afterPages c k db (pages ++ [read]) := by
  have hone : afterPages c k db (pages ++ [read]) =
      (db.observeAll c k.input k.crawlId (allKept k.input (pages ++ [read]))).setCrawlCursor
        k.crawlId (cursorAfter c k (pages ++ [read])) := by
    simp [afterPages]
  rw [hone, allKept_concat, Db.observeAll_append]
  unfold afterPages
  split_ifs
  · rfl
  · rw [Db.observeAll_setCrawlCursor, Db.setCrawlCursor_setCrawlCursor]

/-- The observations of a final page come after those of the pages before. -/
lemma observations_finalObserved (pages : List HistoryRead) (read : HistoryRead) :
    (finalObserved c k db pages read).observations =
      (db.observeAll c k.input k.crawlId (allKept k.input (pages ++ [read]))).observations := by
  rw [finalObserved, allKept_concat, Db.observeAll_append]
  unfold afterPages
  split_ifs
  · rfl
  · rw [Db.observeAll_setCrawlCursor]
    rfl

/-- A page's observations into the tables of a sweep between two pages. -/
lemma At.ingest {events : List Event} (h : At c script k db₁ events s) (read : HistoryRead) :
    ∃ ingested, ingestInto c k s (pageKept k.input read) = .ok ingested ∧
      ingested.db = s.db.observeAll c k.input k.crawlId (pageKept k.input read) ∧
      (∀ l, ingested.headMeta l = if l ∈ allObserved k.input (s.committed ++ [read])
        then some k.input.rules else db₁.headRules k.input.adapterId l) ∧
      ingested.Agrees k.input k.crawlId k.buried := by
  obtain ⟨ingested, hok, hdb, hmeta, hagrees⟩ := ingestPage_spec h.agrees
    (fun o (ho : o ∈ pageKept k.input read) => (mem_pageKept.mp ho).2.1)
  refine ⟨ingested, hok, hdb, ?_, hagrees⟩
  intro l
  simp only [hmeta, h.headMeta, allObserved, allKept_concat, List.map_append, List.mem_append]
  by_cases hkept : l ∈ (pageKept k.input read).map Observation.localId
  · rw [if_pos hkept, if_pos (Or.inr hkept)]
  · simp only [hkept, if_false, or_false]
    rfl

/-- A chain that the sweep does not observe has the head it had when the sweep started. -/
lemma headRules_finalObserved {pages : List HistoryRead} {read : HistoryRead} {l : String}
    (hl : l ∉ allObserved k.input (pages ++ [read])) :
    (finalObserved c k db pages read).headRules k.input.adapterId l =
      db.headRules k.input.adapterId l := by
  rw [Db.headRules_congr (observations_finalObserved pages read), Db.headRules,
    Db.headRow_observeAll_of_notMem (fun h => hl h.2), Db.headRules]

/-- The derivation reads the software rules of the records it retires only. -/
lemma Db.discrepanciesOf_congr (input : SweepInput) (crawlId : ℕ) (now : Rfc3339)
    (observedIds exemptIds : List String) {m m' : String → Option HeadMeta}
    (h : ∀ record ∈ db.absent input observedIds exemptIds, m record.1 = m' record.1) :
    (db.absent input observedIds exemptIds).map (retractionRow input crawlId now m) =
        (db.absent input observedIds exemptIds).map (retractionRow input crawlId now m') ∧
      db.discrepanciesOf input crawlId now m observedIds exemptIds =
        db.discrepanciesOf input crawlId now m' observedIds exemptIds := by
  have hrows : (db.absent input observedIds exemptIds).map (retractionRow input crawlId now m) =
      (db.absent input observedIds exemptIds).map (retractionRow input crawlId now m') :=
    List.map_congr_left fun record hrecord => by simp only [retractionRow, h record hrecord]
  exact ⟨hrows, by simp only [Db.discrepanciesOf, hrows]⟩

/-- An absent record is one that the sweep did not observe. -/
lemma Db.notMem_of_absent {observedIds exemptIds : List String}
    {record : String × ℕ × Observation} (h : record ∈ db.absent input observedIds exemptIds) :
    record.1 ∉ observedIds := by
  simp only [Db.absent] at h
  split_ifs at h with hexempt
  · simp at h
  · have hunexcused := (List.mem_filter.mp h).2
    simp only [unexcused, Bool.and_eq_true, decide_eq_true_eq] at hunexcused
    exact hunexcused.1.1

/-- A violation that comes to light does not make a report complete. -/
lemma Sweeping.complete_heldReport (counts : PageCounts) :
    (s.heldReport counts).complete = s.report.complete := by
  unfold Sweeping.heldReport
  split_ifs <;> rfl

/-- The final transaction of a sweep that some condition disqualifies. -/
lemma finalTransaction_of_disqualified {kept : List Observation} {ingested : Ingesting}
    {reason : String} (hingest : ingestInto c k s kept = .ok ingested)
    (hreason : (s.gate.hold s.verdict).disqualifier = some reason)
    (hincomplete : s.report.complete = false) :
    finalTransaction c k s kept =
      .ok (ingested.db.closeBooks k.input k.crawlId s.gate.drained false (some reason),
        ingested.fold,
        { s.heldReport ingested.counts with disqualifiedReason := some reason }) := by
  have hcomplete : (s.heldReport ingested.counts).complete = false :=
    (Sweeping.complete_heldReport _).trans hincomplete
  simp only [finalTransaction, hingest, hreason, bind, Except.bind, pure, Except.pure, hcomplete]
  rfl

/-- The final transaction of a sweep that no condition disqualifies. -/
lemma finalTransaction_of_complete {kept : List Observation} {ingested : Ingesting} {db' : Db}
    {outcome : RetractionOutcome} (hingest : ingestInto c k s kept = .ok ingested)
    (hgate : (s.gate.hold s.verdict).disqualifier = none)
    (hderive : deriveRetractions ingested.db k.input k.crawlId ingested.fold ingested.headMeta
      s.observedIds s.exemptIds k.now = .ok (db', outcome)) :
    finalTransaction c k s kept =
      .ok (db'.closeBooks k.input k.crawlId s.gate.drained true none, ingested.fold,
        { s.heldReport ingested.counts with
          complete := true
          retracted := outcome.retracted
          discrepancies := outcome.discrepancies }) := by
  simp only [finalTransaction, hingest, hgate, hderive, bind, Except.bind, pure, Except.pure]
  rfl

/-- **The final page's transaction** never fails. It leaves the tables of a complete sweep when
all nine conditions hold, and otherwise the observations alone.

**Proof sketch.** Ingesting the last page leaves the tables `finalObserved` and a fold that is their
replay (`At.ingest`). What the gate remembers is what was read, so its first disqualifier is absent
exactly when the nine conditions hold (`disqualifier_eq_none_iff`). With a reason the transaction
closes the books and derives nothing; without one the derivation is run, and what it writes is the
specification's (`deriveRetractions_spec`), over the observed and exempt ids that were collected
from all pages. -/
lemma At.finalTransaction {events : List Event} (h : At c script k db₁ events s)
    {read : HistoryRead} {status : ResourceStatus} (hstatus : statusFor k.input read = some status)
    (hlast : pageNext k.input read = none) :
    (Qualifies k (s.committed ++ [read]) status.page.isSome s.verdict ∧
      ∃ report : SweepReport, report.complete = true ∧
        Store.finalTransaction c k (s.read k read status) (pageKept k.input read) =
          .ok (completed c k db₁ s.committed read,
            loadFold (Store.finalObserved c k db₁ s.committed read) k.input.adapterId, report)) ∨
    (¬ Qualifies k (s.committed ++ [read]) status.page.isSome s.verdict ∧
      ∃ reason, ∃ report : SweepReport, report.complete = false ∧
        Store.finalTransaction c k (s.read k read status) (pageKept k.input read) =
          .ok ((Store.finalObserved c k db₁ s.committed read).closeBooks k.input k.crawlId
              status.page.isSome false (some reason),
            loadFold (Store.finalObserved c k db₁ s.committed read) k.input.adapterId,
            report)) := by
  obtain ⟨ingested, hok, hdb, hmeta, hagrees⟩ := h.ingest read
  have hfinal : ingested.db = Store.finalObserved c k db₁ s.committed read := by
    rw [hdb, h.db, Store.finalObserved]
  have hingest : ingestInto c k (s.read k read status) (pageKept k.input read) = .ok ingested := hok
  have hremembers := h.remembers.concat hstatus
  have hdrained : (s.read k read status).gate.drained = status.page.isSome := by
    have hnext : status.page.bind PageReply.next = none := by
      simpa [pageNext, pageReply, hstatus] using hlast
    simp [Sweeping.read, hnext]
  have hgate := hremembers.disqualifier_eq_none_iff s.verdict
  rw [hdrained] at hgate
  rw [← hfinal, ← hagrees.fold]
  cases hdis : ((s.read k read status).gate.hold s.verdict).disqualifier with
  | some reason =>
    have hunqualified : ¬ Qualifies k (s.committed ++ [read]) status.page.isSome s.verdict := by
      intro hq
      rw [hgate.mpr hq] at hdis
      cases hdis
    have hok := finalTransaction_of_disqualified hingest hdis h.incomplete
    rw [hdrained] at hok
    refine Or.inr ⟨hunqualified, reason, _, ?_, hok⟩
    exact (Sweeping.complete_heldReport _).trans h.incomplete
  | none =>
    have hqualifies := hgate.mp hdis
    have hsame : ∀ record ∈ ingested.db.absent k.input (allObserved k.input (s.committed ++ [read]))
        (allExempt k.input (s.committed ++ [read])),
        ingested.headMeta record.1 = ingested.db.headRules k.input.adapterId record.1 := by
      intro record hrecord
      have hl := Db.notMem_of_absent hrecord
      rw [hmeta, if_neg hl, hfinal, headRules_finalObserved hl]
    obtain ⟨hrows, hnotes⟩ := Db.discrepanciesOf_congr k.input k.crawlId k.now
      (allObserved k.input (s.committed ++ [read]))
      (allExempt k.input (s.committed ++ [read])) hsame
    have hderive := deriveRetractions_spec k.input k.crawlId k.now ingested.headMeta
      (allObserved k.input (s.committed ++ [read])) (allExempt k.input (s.committed ++ [read]))
      hagrees.crawl
    rw [← hagrees.fold, ← hremembers.observed, ← hremembers.exempt] at hderive
    have hok := finalTransaction_of_complete hingest hdis hderive
    rw [hdrained, hqualifies.drained, hremembers.observed, hremembers.exempt, hrows, hnotes,
      hfinal] at hok
    refine Or.inl ⟨hqualifies, _, ?_, hok⟩
    rfl

/-- Committing a page that is not the last: memory and tables are those of one more page.

**Proof sketch.** The fields of the invariant are checked one by one. The ingested page gives the
tables, the metadata and the agreement of the fold with the tables (`At.ingest`); the cursor that is
written afterwards touches neither observations, nor retractions, nor the ids of crawls. What the
gate remembers is extended by the page, and the script was followed by one more reply. -/
lemma At.commit {events : List Event} (h : At c script k db₁ events s) {read : HistoryRead}
    {status : ResourceStatus} (hstatus : statusFor k.input read = some status)
    (hnext : (pageNext k.input read).isSome = true) {ingested : Ingesting}
    (hingest : ingestInto c k s (pageKept k.input read) = .ok ingested) {s' : Sweeping}
    (hs' : s' = { s.read k read status with
      db := ingested.db.setCrawlCursor k.crawlId
        ((s.read k read status).resumeState.nextRequest.map c.pageText)
      fold := ingested.fold
      headMeta := ingested.headMeta
      page := pageNext k.input read
      pageNumber := s.pageNumber + 1
      report := s.report.counted ingested.counts
      committed := s.committed ++ [read] }) :
    At c script k db₁ (events ++ [.reply (.ok read) false]) s' := by
  obtain ⟨ingested', hok, hdb, hmeta, hagrees⟩ := h.ingest read
  obtain rfl : ingested' = ingested := Except.ok.inj (hok.symm.trans hingest)
  have hremembers := h.remembers.concat hstatus
  have hobs : s'.db.observations = ingested'.db.observations := by rw [hs']; rfl
  have hret : s'.db.retractions = ingested'.db.retractions := by rw [hs']; rfl
  have hids : s'.db.crawls.map CrawlRow.crawlId = ingested'.db.crawls.map CrawlRow.crawlId := by
    rw [hs']
    exact Db.crawlIds_setCrawlCursor _ _
  subst hs'
  exact {
    committed := by simp [repliesOf, h.committed]
    clean := by
      intro answer fault he
      rcases List.mem_append.mp he with he | he
      · exact h.clean answer fault he
      · obtain ⟨rfl, rfl⟩ : answer = .ok read ∧ fault = false := by simpa using he
        exact ⟨rfl, read, rfl, hnext⟩
    verdict := by
      rw [latch, List.foldl_append]
      exact h.verdict
    page := by simp [pageAfter]
    incomplete := h.incomplete
    remembers := hremembers.congr rfl rfl rfl rfl
    agrees := {
      consistent := hagrees.consistent.congr hobs hret hids
      fold := by
        rw [loadFold_congr hobs]
        exact hagrees.fold
      buried := hagrees.buried
      crawl := by
        rw [hasCrawl_iff, hids, ← hasCrawl_iff]
        exact hagrees.crawl }
    db := by
      rw [← afterPages_concat, ← h.db, ← hdb, cursorAfter, ← hremembers.resume]
    headMeta := hmeta }

/-- Ending a sweep early, for whatever reason, is one of the ends: its crawl is closed as not
complete, or not at all where that commit fails. -/
lemma At.finishEarly {events : List Event} (h : At c script k db₁ events s) (reason : String)
    (contractViolation : Option String) (fault : Bool) :
    Ends c script k db₁ events (finishEarly k s reason contractViolation fault) := by
  cases fault with
  | true => exact .cut h fun _ => nofun
  | false => exact .early h reason _ h.incomplete

/-- A page that was read and not committed leaves the tables of the pages before. -/
lemma At.uncommitted {events : List Event} (h : At c script k db₁ events s) (read : HistoryRead)
    (status : ResourceStatus) (e : StoreError) :
    Ends c script k db₁ events ((s.read k read status).stop k s.db (.failed e)) := by
  change Ends c script k db₁ events (s.stop k s.db (.failed e))
  exact .cut h fun _ => nofun

/-- A page that is not the last. -/
lemma At.middlePage {events : List Event} (h : At c script k db₁ events s) {read : HistoryRead}
    {status : ResourceStatus} {next : PageRequest}
    (hstatus : statusFor k.input read = some status) (hnext : pageNext k.input read = some next)
    (fault : Bool) :
    match middlePage c k (s.read k read status) read (pageKept k.input read) (some next) fault with
    | .inl s' => At c script k db₁ (events ++ [.reply (.ok read) fault]) s'
    | .inr r => Ends c script k db₁ events r ∨
        Ends c script k db₁ (events ++ [.reply (.ok read) fault]) r := by
  obtain ⟨ingested, hok, -⟩ := h.ingest read
  have hingest : ingestInto c k (s.read k read status) (pageKept k.input read) = .ok ingested := hok
  unfold Store.middlePage
  simp only [hingest]
  cases fault with
  | true => exact Or.inl (h.uncommitted read status _)
  | false =>
    have hat := h.commit hstatus (by simp [hnext]) hok rfl
    rw [hnext] at hat
    simp only [Bool.false_eq_true, if_false]
    split_ifs
    · exact Or.inr (hat.finishEarly _ _ _)
    · exact hat

/-- The last page ends the sweep: its final transaction is cut by a fault, or it qualifies and
completes the sweep, or it does not and leaves the sweep partial. -/
lemma At.finalPage {events : List Event} (h : At c script k db₁ events s) {read : HistoryRead}
    {status : ResourceStatus} (hstatus : statusFor k.input read = some status)
    (hlast : pageNext k.input read = none) (fault : Bool) :
    Ends c script k db₁ events
        (finalPage c k (s.read k read status) read (pageKept k.input read) fault) ∨
      Ends c script k db₁ (events ++ [.reply (.ok read) fault])
        (finalPage c k (s.read k read status) read (pageKept k.input read) fault) := by
  unfold Store.finalPage
  rcases h.finalTransaction hstatus hlast with
    ⟨hgate, report, hcomplete, hok⟩ | ⟨hgate, reason, report, hcomplete, hok⟩
  · simp only [hok]
    cases fault with
    | true => exact Or.inl (h.uncommitted read status _)
    | false => exact Or.inr (.complete h hstatus hlast hgate report hcomplete)
  · simp only [hok]
    cases fault with
    | true => exact Or.inl (h.uncommitted read status _)
    | false => exact Or.inr (.partialSweep h hstatus hlast reason hgate report hcomplete)

/-- **One turn of the page loop**: a sweep that has seen one more event, or one of the ends.

**Proof sketch.** A violation only goes to the gate and the verdict. An error ends the sweep early.
A reply is checked in the order of `sweepPage`: a page that is refused, one whose final transaction
is taken or is not, and one that commits and names the next (`At.commit`); a fault instead of a
commit leaves what was committed before. -/
lemma turn_at {events : List Event} (h : At c script k db₁ events s) (e : Event) :
    match turn c k s e with
    | .inl s' => At c script k db₁ (events ++ [e]) s'
    | .inr r => Ends c script k db₁ events r ∨ Ends c script k db₁ (events ++ [e]) r := by
  cases e with
  | violation kind =>
    exact {
      committed := by simpa [repliesOf] using h.committed
      clean := fun answer fault he => h.clean answer fault (by simpa using he)
      verdict := by simp [latch, h.verdict]
      page := h.page
      incomplete := h.incomplete
      remembers := h.remembers.congr rfl rfl rfl rfl
      agrees := h.agrees
      db := h.db
      headMeta := h.headMeta }
  | reply answer fault =>
    cases answer with
    | error e => exact Or.inl (h.finishEarly _ _ _)
    | ok read =>
      simp only [turn, sweepPage]
      cases hstatus : read.statuses.find? (·.resourceId == k.input.resourceId) with
      | none => exact Or.inl (h.finishEarly _ _ _)
      | some status =>
        have hpage : pageNext k.input read = status.page.bind PageReply.next := by
          simp [pageNext, pageReply, statusFor, hstatus]
        dsimp only
        cases hnext : status.page.bind PageReply.next with
        | none => exact h.finalPage hstatus (hpage.trans hnext) fault
        | some next => exact h.middlePage hstatus (hpage.trans hnext) fault

/-- **Every state of the page loop** is that of a sweep between two pages. -/
lemma advance_at (hdb : db.Consistent) (hopen : openSweep pageLimit c db input script = .ok (k, s))
    {events : List Event} {t : Sweeping} (h : advance (turn c k) s events = some t) :
    Opened c db input script k s.db ∧ At c script k s.db events t := by
  obtain ⟨hopened, hat⟩ := openSweep_at hdb hopen
  refine ⟨hopened, advance_invariant (At c script k s.db) ?_ h hat⟩
  intro events t e t' ht hturn
  have hstep := turn_at ht e
  rwa [hturn] at hstep

/-- **How a sweep ends.** It never opened, and changed nothing; or some events from the start of
its script led to one of the ends.

**Proof sketch.** A sweep that fails to open leaves the tables. Otherwise its loop either runs
through all the events and is cut off, or ends at one of them, in the state that the events before
it led to (`advance_at`); and one turn from such a state is described by `turn_at`. -/
theorem sweep_outcome (pageLimit : Option ℕ) (c : Crates) (hdb : db.Consistent)
    (input : SweepInput) (script : Script) :
    (∃ e, sweepWithin pageLimit c db input script = unopened db script e) ∨
      ∃ k db₁ events, Opened c db input script k db₁ ∧ events <+: script.events ∧
        Ends c script k db₁ events (sweepWithin pageLimit c db input script) := by
  unfold sweepWithin
  cases hopen : openSweep pageLimit c db input script with
  | error e => exact Or.inl ⟨e, rfl⟩
  | ok opened =>
    obtain ⟨k, s⟩ := opened
    have hopened := (openSweep_at hdb hopen).1
    refine Or.inr ⟨k, s.db, ?_⟩
    rcases loop_cases (turn c k) (cutOff k) s script.events with
      ⟨t, hadvance, hloop⟩ | ⟨pre, e, post, t, r, hevents, hadvance, hstop, hloop⟩
    · simp only [hloop]
      exact ⟨script.events, hopened, List.prefix_rfl, .cut (advance_at hdb hopen hadvance).2
        fun _ => nofun⟩
    · have hstep := turn_at (advance_at hdb hopen hadvance).2 e
      rw [hstop] at hstep
      simp only [hloop]
      rcases hstep with hends | hends
      · exact ⟨pre, hopened, ⟨e :: post, hevents.symm⟩, hends⟩
      · exact ⟨pre ++ [e], hopened, ⟨post, by simp [hevents]⟩, hends⟩

end Sweep

end Sumer.Store
