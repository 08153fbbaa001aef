import Sumer.Store.Runs

set_option relaxedAutoImplicit false
set_option autoImplicit false

/-!
# Crawls and their cursors

The table of crawls over the life of a store. A sweep that opens retires the cursors of its
resource's earlier crawls and adds a row of its own; however it ends, that row says how. Later
sweeps touch it only to retire its cursor.

## Main definitions

* `Sumer.Store.storedCursor`: the text of the resume point a crawl offers.
* `Sumer.Store.Closed`: what an end leaves in the row of its crawl.
* `Sumer.Store.Db.CursorsSound`: which crawls offer a cursor.

## Main results

* `Sumer.Store.Ends.crawls`: the crawls after a sweep.
* `Sumer.Store.crawl_origin`: every crawl of a reachable database is the row some sweep left.
* `Sumer.Store.crawl_persists`: no later sweep changes what a crawl's row says, its cursor apart.
-/

namespace Sumer.Store

open Sumer.Wire Sumer.Host

/-- The row a sweep's crawl is opened with. -/
def openedRow (db : Db) (input : SweepInput) (script : Script) : CrawlRow where
  crawlId := db.nextCrawlId
  adapterId := input.adapterId
  resourceId := input.resourceId
  startedAt := script.now.text
  startPage := resumedFrom db input
  nextPage := resumedFrom db input
  localIdDerivation := input.helloDerivation
  fingerprint := some input.fingerprint
  drained := false
  complete := false
  disqualifiedReason := none

/-- The earlier crawls, once a sweep has retired the cursors of its resource. -/
def retiredCrawls (db : Db) (input : SweepInput) : List CrawlRow :=
  update (fun r => r.adapterId == input.adapterId && r.resourceId == input.resourceId)
    ({ · with nextPage := none }) db.crawls

/-- The text of the resume point a crawl offers after some pages: that of the durable point once a
page has written one, until then the text it was opened with. -/
def storedCursor (c : Crates) (k : OpenCrawl) (start : Option String) (pages : List HistoryRead) :
    Option String :=
  if pages.any fun read => (pageNext k.input read).isSome then cursorAfter c k pages else start

/-- What an end leaves in the row of its crawl. -/
structure Closed (c : Crates) (db : Db) (input : SweepInput) (k : OpenCrawl) (r : SweepRun)
    (row : CrawlRow) : Prop where
  crawlId : row.crawlId = k.crawlId
  adapterId : row.adapterId = input.adapterId
  resourceId : row.resourceId = input.resourceId
  startPage : row.startPage = resumedFrom db input
  start : Store.startPage c row.startPage = .ok k.startPage
  derivation : row.localIdDerivation = input.helloDerivation
  fingerprint : row.fingerprint = some input.fingerprint
  middle : ∀ read ∈ r.committed.dropLast, (pageNext input read).isSome = true
  drained : row.drained = true ↔ ∃ pages read, r.committed = pages ++ [read] ∧
    pageNext input read = none ∧ (pageReply input read).isSome = true
  cursor : row.nextPage = if row.drained then none else storedCursor c k row.startPage r.committed
  complete : row.complete = true ↔ r.Complete
  qualified : row.complete = true → row.drained = true ∧ row.startPage = none

/-! ### The row of a sweep's crawl -/

section Row

variable {c : Crates} {db db₁ : Db} {input : SweepInput} {script : Script} {k : OpenCrawl}
  {events : List Event} {r : SweepRun}

/-- The crawls of an open sweep are the earlier ones, those of its resource retired, and its own, at
the end. -/
lemma Opened.crawls (h : Opened c db input script k db₁) :
    db₁.crawls = retiredCrawls db input ++ [openedRow db input script] := by
  rw [h.db_eq]
  rfl

/-- The row of a sweep's own crawl is the last; no other has its id. -/
lemma Opened.update_crawls (h : Opened c db input script k db₁) (f : CrawlRow → CrawlRow)
    {row : CrawlRow} (hrow : row.crawlId = k.crawlId) :
    update (fun r => decide (r.crawlId = k.crawlId)) f (retiredCrawls db input ++ [row]) =
      retiredCrawls db input ++ [f row] := by
  have hold : update (fun r => decide (r.crawlId = k.crawlId)) f (retiredCrawls db input) =
      retiredCrawls db input := by
    refine update_eq_self _ fun r hr => ?_
    have hids : (retiredCrawls db input).map CrawlRow.crawlId = db.crawls.map CrawlRow.crawlId :=
      map_update _ (fun row : CrawlRow => { row with nextPage := none }) _ (fun _ => rfl) _
    have hlt := Db.lt_nextCrawlId (hids ▸ List.mem_map_of_mem hr : r.crawlId ∈ _)
    rw [h.crawlId_eq, decide_eq_false_iff_not]
    omega
  have hlast : update (fun r => decide (r.crawlId = k.crawlId)) f
      (retiredCrawls db input ++ [row]) =
        update (fun r => decide (r.crawlId = k.crawlId)) f (retiredCrawls db input) ++ [f row] := by
    simp [update, hrow]
  rw [hlast, hold]

/-- The crawls after some pages: the last offers the durable point. -/
lemma Opened.crawls_afterPages (h : Opened c db input script k db₁) (pages : List HistoryRead)
    (hnext : ∀ read ∈ pages, (pageNext k.input read).isSome = true) :
    (afterPages c k db₁ pages).crawls = retiredCrawls db input ++
      [{ openedRow db input script with
        nextPage := storedCursor c k (resumedFrom db input) pages }] := by
  cases pages with
  | nil => exact h.crawls
  | cons read pages =>
    have hany : ((read :: pages).any fun read => (pageNext k.input read).isSome) = true :=
      List.any_eq_true.mpr ⟨read, List.mem_cons_self, hnext read List.mem_cons_self⟩
    simp only [afterPages, List.isEmpty_cons, Bool.false_eq_true, if_false, Db.setCrawlCursor,
      Db.crawls_observeAll, h.crawls, storedCursor, hany, if_true]
    exact h.update_crawls _ h.crawlId_eq.symm

/-- The pages of a sweep between two pages have a next one. -/
lemma At.next_isSome {s : Sweeping} (h : At c script k db₁ events s) :
    ∀ read ∈ s.committed, (pageNext k.input read).isSome = true := by
  intro read hread
  rw [h.committed] at hread
  obtain ⟨e, he, heq⟩ := List.mem_filterMap.mp hread
  match e with
  | .violation _ => simp at heq
  | .reply (.error _) _ => simp at heq
  | .reply (.ok read') fault =>
    obtain rfl : read' = read := by simpa using heq
    obtain ⟨-, read, hok, hnext⟩ := h.clean _ _ he
    obtain rfl := Except.ok.inj hok
    exact hnext

/-- Without a last page, a sweep has not drained. -/
lemma At.not_drained {s : Sweeping} (h : At c script k db₁ events s) :
    ¬ ∃ pages read, s.committed = pages ++ [read] ∧ pageNext k.input read = none ∧
      (pageReply k.input read).isSome = true := by
  rintro ⟨pages, read, hcommitted, hnone, -⟩
  have hsome := h.next_isSome read (by simp [hcommitted])
  simp [hnone] at hsome

/-- A page without a page reply moves no cursor. -/
lemma storedCursor_concat_of_none {start : Option String} (pages : List HistoryRead)
    {read : HistoryRead} (h : pageReply k.input read = none) :
    storedCursor c k start (pages ++ [read]) = storedCursor c k start pages := by
  have hnext : pageNext k.input read = none := by simp [pageNext, h]
  simp [storedCursor, hnext, cursorAfter, resumeAfter, List.foldl_append, h]

/-- The row a final page closes. -/
def closedRow (c : Crates) (db : Db) (input : SweepInput) (script : Script) (k : OpenCrawl)
    (pages : List HistoryRead) (drained complete : Bool) (reason : Option String) : CrawlRow :=
  { openedRow db input script with
    nextPage := if drained then none else storedCursor c k (resumedFrom db input) pages
    drained := drained
    complete := complete
    disqualifiedReason := reason }

/-- Closing the crawl of a sweep that has committed some pages. -/
lemma Opened.crawls_finishCrawl (h : Opened c db input script k db₁) {db₂ : Db}
    {pages : List HistoryRead} (hcrawls : db₂.crawls = (afterPages c k db₁ pages).crawls)
    (hnext : ∀ read ∈ pages, (pageNext k.input read).isSome = true) (drained complete : Bool)
    (reason : Option String) :
    (db₂.finishCrawl k.crawlId drained complete reason).crawls =
      retiredCrawls db input ++ [closedRow c db input script k pages drained complete reason] := by
  rw [Db.finishCrawl, hcrawls, h.crawls_afterPages pages hnext]
  exact h.update_crawls _ h.crawlId_eq.symm

/-- The row an end leaves, by how it drained and whether it is complete. -/
lemma Opened.closed (h : Opened c db k.input script k db₁) {pages : List HistoryRead}
    {drained complete : Bool} {reason : Option String}
    (hmiddle : ∀ read ∈ r.committed.dropLast, (pageNext k.input read).isSome = true)
    (hdrained : drained = true ↔ ∃ pages read, r.committed = pages ++ [read] ∧
      pageNext k.input read = none ∧ (pageReply k.input read).isSome = true)
    (hcursor : drained = false → storedCursor c k (resumedFrom db k.input) pages =
      storedCursor c k (resumedFrom db k.input) r.committed)
    (hcomplete : complete = true ↔ r.Complete)
    (hqualified : complete = true → drained = true ∧ resumedFrom db k.input = none) :
    Closed c db k.input k r (closedRow c db k.input script k pages drained complete reason) where
  crawlId := h.crawlId_eq.symm
  adapterId := rfl
  resourceId := rfl
  startPage := rfl
  start := h.start
  derivation := rfl
  fingerprint := rfl
  middle := hmiddle
  drained := hdrained
  cursor := by
    cases drained with
    | true => rfl
    | false => exact hcursor rfl
  complete := hcomplete
  qualified := hqualified

/-- A sweep that begins at the start of history resumes nothing. -/
lemma Opened.resumedFrom_eq_none (h : Opened c db input script k db₁)
    (hstart : k.startPage = none) : resumedFrom db input = none := by
  have hopen := h.start
  rw [hstart] at hopen
  cases hresumed : resumedFrom db input with
  | none => rfl
  | some text => cases hparse : c.parsePage text <;> simp [startPage, hresumed, hparse] at hopen

/-- **The crawls after a sweep**: the earlier ones retired, and the row of its own.

**Proof sketch.** By cases of how the sweep ended. In each of them the row of the sweep is closed
once, over crawls that the sweep opened with, and the four facts about it are read off the case: a
sweep that was cut or that ended early has no last page, a partial one has one that did not qualify,
and a complete one has one that did, and began at the first page. -/
lemma Ends.crawls (h : Ends c script k db₁ events r) (hopen : Opened c db input script k db₁) :
    ∃ row, r.db.crawls = retiredCrawls db input ++ [row] ∧ Closed c db input k r row := by
  obtain rfl : k.input = input := hopen.input_eq
  cases h with
  | cut hat hended =>
    refine ⟨closedRow c db k.input script k _ false false none,
      hat.db ▸ hopen.crawls_afterPages _ hat.next_isSome,
      hopen.closed ?_ ?_ (fun _ => rfl) ?_ fun h => absurd h Bool.false_ne_true⟩
    · exact fun read hread => hat.next_isSome read (List.dropLast_subset _ hread)
    · exact iff_of_false Bool.false_ne_true hat.not_drained
    · refine iff_of_false Bool.false_ne_true ?_
      rintro ⟨report, hreport, -⟩
      exact hended report hreport
  | early hat reason report hcomplete =>
    refine ⟨_, hopen.crawls_finishCrawl (hat.db ▸ rfl) hat.next_isSome _ _ _,
      hopen.closed ?_ ?_ (fun _ => rfl) ?_ fun h => absurd h Bool.false_ne_true⟩
    · exact fun read hread => hat.next_isSome read (List.dropLast_subset _ hread)
    · exact iff_of_false Bool.false_ne_true hat.not_drained
    · exact iff_of_false Bool.false_ne_true (SweepRun.not_complete rfl hcomplete)
  | @partialSweep events s read status hat hstatus hlast reason hgate report hcomplete =>
    have hreply : pageReply k.input read = status.page := by simp [pageReply, hstatus]
    refine ⟨_, hopen.crawls_finishCrawl Db.crawls_observeAll hat.next_isSome _ _ _,
      hopen.closed ?_ ⟨?_, ?_⟩ ?_ ?_ fun h => absurd h Bool.false_ne_true⟩
    · simpa using hat.next_isSome
    · intro hdrained
      exact ⟨s.committed, read, rfl, hlast, hreply.symm ▸ hdrained⟩
    · rintro ⟨pages, read', hcommitted, -, hsome⟩
      obtain ⟨-, rfl⟩ := List.append_singleton_inj.mp hcommitted
      rwa [hreply] at hsome
    · intro hpage
      refine (storedCursor_concat_of_none _ ?_).symm
      rw [hreply]
      simpa using hpage
    · exact iff_of_false Bool.false_ne_true (SweepRun.not_complete rfl hcomplete)
  | @complete events s read status hat hstatus hlast hgate report hcomplete =>
    have hreply : pageReply k.input read = status.page := by simp [pageReply, hstatus]
    refine ⟨_, hopen.crawls_finishCrawl Db.crawls_observeAll hat.next_isSome _ _ _,
      hopen.closed ?_ ?_ (fun h => absurd h.symm Bool.false_ne_true) ?_ ?_⟩
    · simpa using hat.next_isSome
    · exact iff_of_true rfl ⟨s.committed, read, rfl, hlast, hreply.symm ▸ hgate.drained⟩
    · exact iff_of_true rfl ⟨report, rfl, hcomplete⟩
    · exact fun _ => ⟨rfl, hopen.resumedFrom_eq_none hgate.began⟩

end Row

/-! ### Runs -/

/-- Which crawls offer a cursor: none that drained, and only the newest of its resource. A
complete crawl drained, and began at the start of history. -/
structure Db.CursorsSound (db : Db) : Prop where
  drained : ∀ row ∈ db.crawls, row.drained = true → row.nextPage = none
  newest : ∀ row ∈ db.crawls, row.nextPage ≠ none → ∀ other ∈ db.crawls,
    other.adapterId = row.adapterId → other.resourceId = row.resourceId →
      other.crawlId ≤ row.crawlId
  complete : ∀ row ∈ db.crawls, row.complete = true → row.drained = true ∧ row.startPage = none

section Runs

variable {c : Crates} {db : Db} {input : SweepInput} {script : Script} {pageLimit : Option ℕ}

/-- A row of the earlier crawls is one there was, its cursor retired if it is of the resource. -/
lemma mem_retiredCrawls {row : CrawlRow} :
    row ∈ retiredCrawls db input ↔ ∃ old ∈ db.crawls,
      row = if old.adapterId = input.adapterId ∧ old.resourceId = input.resourceId
        then { old with nextPage := none } else old := by
  rw [retiredCrawls, mem_update]
  simp only [Bool.and_eq_true, beq_iff_eq]
  exact ⟨fun ⟨old, hold, heq⟩ => ⟨old, hold, heq.symm⟩,
    fun ⟨old, hold, heq⟩ => ⟨old, hold, heq.symm⟩⟩

/-- **The crawls after any sweep**: none was opened and they are as before, or the earlier ones
are retired and one is added. -/
lemma crawls_sweepWithin (pageLimit : Option ℕ) (c : Crates) (hdb : db.Consistent)
    (input : SweepInput) (script : Script) :
    ((sweepWithin pageLimit c db input script).opened = none ∧
        (sweepWithin pageLimit c db input script).db = db) ∨
      ∃ k row db₁, (sweepWithin pageLimit c db input script).opened = some k ∧
        Opened c db input script k db₁ ∧
        (sweepWithin pageLimit c db input script).db.crawls = retiredCrawls db input ++ [row] ∧
        Closed c db input k (sweepWithin pageLimit c db input script) row := by
  rcases sweep_outcome pageLimit c hdb input script with ⟨e, h⟩ | ⟨k, db₁, events, hopen, -, hends⟩
  · exact Or.inl ⟨congrArg SweepRun.opened h, congrArg SweepRun.db h⟩
  · obtain ⟨row, hcrawls, hclosed⟩ := hends.crawls hopen
    exact Or.inr ⟨k, row, db₁, hends.opened, hopen, hcrawls, hclosed⟩

/-- The earlier crawls keep their ids, which are below that of the sweep's own. -/
lemma lt_of_mem_retiredCrawls {row : CrawlRow} (h : row ∈ retiredCrawls db input) :
    row.crawlId < db.nextCrawlId := by
  obtain ⟨old, hold, rfl⟩ := mem_retiredCrawls.mp h
  have hlt := Db.lt_nextCrawlId (List.mem_map_of_mem hold : old.crawlId ∈ _)
  split_ifs <;> exact hlt

/-- **A sweep keeps the cursors sound.** The crawl it opens is the newest, and takes over the
cursor of its resource.

**Proof sketch.** A sweep that did not open leaves the crawls. Otherwise the crawls are the old
ones, of which those of the resource no longer offer a cursor, and one new row with the next id. A
row that is not new is sound because it was, and if it offers a cursor it is of another resource, so
the new row is no rival; the new row is the newest of all, it offers nothing once drained, and by
how it was closed it is complete only if it qualified. -/
lemma Db.CursorsSound.sweepWithin (hsound : db.CursorsSound) (hdb : db.Consistent) :
    (sweepWithin pageLimit c db input script).db.CursorsSound := by
  rcases crawls_sweepWithin pageLimit c hdb input script with
    ⟨-, hsame⟩ | ⟨k, row, db₁, -, hopen, hcrawls, hclosed⟩
  · exact hsame.symm ▸ hsound
  have hid : row.crawlId = db.nextCrawlId := hclosed.crawlId.trans hopen.crawlId_eq
  refine ⟨?_, ?_, ?_⟩
  all_goals
    intro r hr
    rw [hcrawls, List.mem_append, List.mem_singleton] at hr
  · intro hdrained
    rcases hr with hr | rfl
    · obtain ⟨old, hold, rfl⟩ := mem_retiredCrawls.mp hr
      split_ifs at hdrained ⊢
      · rfl
      · exact hsound.drained old hold hdrained
    · rw [hclosed.cursor, if_pos hdrained]
  · intro hcursor other hother hadapter hresource
    rw [hcrawls, List.mem_append, List.mem_singleton] at hother
    rcases hr with hr | rfl
    · obtain ⟨old, hold, rfl⟩ := mem_retiredCrawls.mp hr
      split_ifs at hcursor hadapter hresource ⊢ with hsame
      · exact absurd rfl hcursor
      · rcases hother with hother | rfl
        · obtain ⟨old', hold', rfl⟩ := mem_retiredCrawls.mp hother
          split_ifs at hadapter hresource ⊢ <;>
            exact hsound.newest old hold hcursor old' hold' hadapter hresource
        · rw [hclosed.adapterId] at hadapter
          rw [hclosed.resourceId] at hresource
          exact absurd ⟨hadapter.symm, hresource.symm⟩ hsame
    · rcases hother with hother | rfl
      · exact (lt_of_mem_retiredCrawls hother).le.trans hid.ge
      · exact le_rfl
  · intro hcomplete
    rcases hr with hr | rfl
    · obtain ⟨old, hold, rfl⟩ := mem_retiredCrawls.mp hr
      split_ifs at hcomplete ⊢ <;> exact hsound.complete old hold hcomplete
    · exact hclosed.qualified hcomplete

/-- A write outside sweeps leaves the crawls. -/
lemma Db.CursorsSound.congr {db' : Db} (h : db.CursorsSound) (hcrawls : db'.crawls = db.crawls) :
    db'.CursorsSound where
  drained := hcrawls ▸ h.drained
  newest := hcrawls ▸ h.newest
  complete := hcrawls ▸ h.complete

/-- **In every reachable database the cursors are sound.** -/
lemma cursorsSound_run (c : Crates) (actions : List Action) : (run c actions).CursorsSound := by
  induction actions using List.reverseRecOn with
  | nil => exact ⟨nofun, nofun, nofun⟩
  | append_singleton actions a ih =>
    rw [run_concat]
    cases a with
    | write w => exact ih.congr (w.apply_eq _).1
    | sweep input script => exact ih.sweepWithin (consistent_run c actions)

/-- What one step does to a crawl that was there: at most its cursor is retired. -/
lemma Action.crawls_apply (c : Crates) (hdb : db.Consistent) (a : Action) {row : CrawlRow}
    (hrow : row ∈ db.crawls) :
    ∃ row' ∈ (a.apply c db).crawls, row' = row ∨ row' = { row with nextPage := none } := by
  cases a with
  | write w => exact ⟨row, (w.apply_eq db).1.symm ▸ hrow, Or.inl rfl⟩
  | sweep input script =>
    rcases crawls_sweepWithin (some MAX_PAGES) c hdb input script with
      ⟨-, hsame⟩ | ⟨k, own, db₁, -, hopen, hcrawls, -⟩
    · have hcrawls : (Action.apply c db (.sweep input script)).crawls = db.crawls :=
        congrArg Db.crawls hsame
      exact ⟨row, hcrawls.symm ▸ hrow, Or.inl rfl⟩
    · refine ⟨_, hcrawls.symm ▸ List.mem_append_left _ (mem_retiredCrawls.mpr ⟨row, hrow, rfl⟩), ?_⟩
      split_ifs
      · exact Or.inr rfl
      · exact Or.inl rfl

/-- **No later step changes what the row of a crawl says**, its cursor apart. -/
lemma crawl_persists (c : Crates) (before after : List Action) {row : CrawlRow}
    (hrow : row ∈ (run c before).crawls) :
    ∃ row' ∈ (run c (before ++ after)).crawls,
      row' = row ∨ row' = { row with nextPage := none } := by
  induction after using List.reverseRecOn with
  | nil => exact ⟨row, by simpa using hrow, Or.inl rfl⟩
  | append_singleton after a ih =>
    obtain ⟨row', hrow', hsame⟩ := ih
    rw [← List.append_assoc, run_concat]
    obtain ⟨row'', hrow'', hsame'⟩ :=
      a.crawls_apply c (consistent_run c (before ++ after)) hrow'
    refine ⟨row'', hrow'', ?_⟩
    rcases hsame with rfl | rfl <;> rcases hsame' with rfl | rfl <;> simp

/-- **Every crawl of a reachable database is the row some sweep left**, its cursor perhaps retired
since.

**Proof sketch.** Induction on the actions from the end. A write touches no crawl, so the row was
there before it. After a sweep, a row is one of the earlier ones, with its cursor retired if it is
of the same resource, or the new row, whose origin is this sweep. -/
lemma crawl_origin (c : Crates) (actions : List Action) {row : CrawlRow}
    (hrow : row ∈ (run c actions).crawls) :
    ∃ before input script after k row₀, actions = before ++ .sweep input script :: after ∧
      (sweepResource c (run c before) input script).opened = some k ∧
      row₀ ∈ (sweepResource c (run c before) input script).db.crawls ∧
      Closed c (run c before) input k (sweepResource c (run c before) input script) row₀ ∧
      (row = row₀ ∨ row = { row₀ with nextPage := none }) := by
  induction actions using List.reverseRecOn generalizing row with
  | nil => exact absurd hrow List.not_mem_nil
  | append_singleton actions a ih =>
    have hearlier {old : CrawlRow} (hold : old ∈ (run c actions).crawls)
        (hsame : row = old ∨ row = { old with nextPage := none }) :
        ∃ before input script after k row₀,
          actions ++ [a] = before ++ .sweep input script :: after ∧
          (sweepResource c (run c before) input script).opened = some k ∧
          row₀ ∈ (sweepResource c (run c before) input script).db.crawls ∧
          Closed c (run c before) input k (sweepResource c (run c before) input script) row₀ ∧
          (row = row₀ ∨ row = { row₀ with nextPage := none }) := by
      obtain ⟨before, input, script, after, k, row₀, hactions, hopened, hrow₀, hclosed, hold⟩ :=
        ih hold
      refine ⟨before, input, script, after ++ [a], k, row₀, by simp [hactions], hopened, hrow₀,
        hclosed, ?_⟩
      rcases hold with rfl | rfl <;> rcases hsame with rfl | rfl <;> simp
    rw [run_concat] at hrow
    cases a with
    | write w => exact hearlier ((w.apply_eq _).1 ▸ hrow) (Or.inl rfl)
    | sweep input script =>
      rcases crawls_sweepWithin (some MAX_PAGES) c (consistent_run c actions) input script with
        ⟨-, hsame⟩ | ⟨k, own, db₁, hopened, hopen, hcrawls, hclosed⟩
      · exact hearlier (hsame ▸ hrow) (Or.inl rfl)
      · have hmem := hcrawls ▸ hrow
        rcases List.mem_append.mp hmem with hmem | hmem
        · obtain ⟨old, hold, heq⟩ := mem_retiredCrawls.mp hmem
          refine hearlier hold ?_
          split_ifs at heq
          · exact Or.inr heq
          · exact Or.inl heq
        · obtain rfl := List.mem_singleton.mp hmem
          exact ⟨actions, input, script, [], k, row, rfl, hopened, hrow, hclosed, Or.inl rfl⟩

end Runs

end Sumer.Store
