import Sumer.Store.Crawls
import Sumer.Store.Sample

set_option relaxedAutoImplicit false
set_option autoImplicit false

/-!
# The resume point

Which crawl offers a cursor, and which cursor. Three statements write the column; over any run
they leave at most one cursor for each resource, the durable point of its newest crawl.

## Main definitions

* `Sumer.Store.durablePoint`: the page request a sweep would be resumed with.

## Main results

* `Sumer.Store.durablePoint_eq`: the durable point, by the last page reply.
* `Sumer.Store.resume_point`: the cursors of a reachable database.
-/

namespace Sumer.Store

open Sumer.Wire Sumer.Host

/-- The page request a sweep would be resumed with after some pages. -/
def durablePoint (input : SweepInput) (start : Option PageRequest) (pages : List HistoryRead) :
    Option PageRequest :=
  (resumeAfter input start pages).nextRequest

section Point

variable {c : Crates} {input : SweepInput} {start : Option PageRequest}

/-- However many pages were recorded, the resume state knows where the sweep started. -/
@[simp]
lemma start_resumeAfter (pages : List HistoryRead) :
    (resumeAfter input start pages).start = start := by
  induction pages using List.reverseRecOn with
  | nil => rfl
  | append_singleton pages read ih =>
    rw [resumeAfter, List.foldl_append, List.foldl_cons, List.foldl_nil]
    cases pageReply input read <;> exact ih

/-- The durable point after one more page: an exact page moves it to its `next`, any other page
reply back to the start, and a page without one leaves it. -/
lemma durablePoint_concat (pages : List HistoryRead) (read : HistoryRead) :
    durablePoint input start (pages ++ [read]) =
      match pageReply input read with
      | some page => if page.cursorResumable = .exact then page.next else start
      | none => durablePoint input start pages := by
  rw [durablePoint, resumeAfter, List.foldl_append]
  change (match pageReply input read with
    | some page => (resumeAfter input start pages).record page.cursorResumable page.next
    | none => resumeAfter input start pages).nextRequest = _
  cases pageReply input read with
  | none => rfl
  | some page =>
    simp only [ResumeState.nextRequest_record, start_resumeAfter]

/-- **The durable point is decided by the last page reply**: its `next` when that page was exact,
otherwise the start. -/
lemma durablePoint_eq (pages : List HistoryRead) :
    durablePoint input start pages =
      match (pages.filterMap (pageReply input)).getLast? with
      | some page => if page.cursorResumable = .exact then page.next else start
      | none => start := by
  induction pages using List.reverseRecOn with
  | nil => rfl
  | append_singleton pages read ih =>
    rw [durablePoint_concat, List.filterMap_append]
    cases hreply : pageReply input read with
    | none => simpa [hreply] using ih
    | some page => simp [hreply]

end Point

section Newest

variable {c : Crates} {db : Db}

/-- A crawl id belongs to one crawl. -/
lemma Db.Consistent.crawl_inj (hdb : db.Consistent) {row other : CrawlRow}
    (hrow : row ∈ db.crawls) (hother : other ∈ db.crawls) (hid : row.crawlId = other.crawlId) :
    row = other := by
  have hnodup : (db.crawls.map CrawlRow.crawlId).Nodup := hdb.crawlIds.imp fun h => h.ne
  exact List.inj_on_of_nodup_map hnodup hrow hother hid

/-- Resuming a crawl of other software rules resumes nothing. -/
lemma resumedFrom_of_rules {input : SweepInput}
    (hrules : ∀ crawl, db.resumableCrawl input.adapterId input.resourceId = some crawl →
      crawl.localIdDerivation ≠ input.helloDerivation ∨
        crawl.fingerprint ≠ some input.fingerprint) :
    resumedFrom db input = none := by
  unfold resumedFrom resumePoint
  split_ifs with hresume
  · cases hcrawl : db.resumableCrawl input.adapterId input.resourceId with
    | none => rfl
    | some crawl =>
      rcases hrules crawl hcrawl with h | h
      · simp [h]
      · by_cases hderivation : crawl.localIdDerivation = input.helloDerivation <;>
          simp [hderivation, h]
  · rfl

/-- A crawl that did not drain and whose pages wrote no cursor has seen no page reply. -/
lemma Closed.no_reply {input : SweepInput} {k : OpenCrawl} {r : SweepRun} {row : CrawlRow}
    (h : Closed c db input k r row) (hdrained : row.drained = false)
    (hnext : ∀ read ∈ r.committed, pageNext input read = none) :
    ∀ read ∈ r.committed, pageReply input read = none := by
  have hmiddle := h.middle
  rcases List.eq_nil_or_concat r.committed with hnil | ⟨pages, last, hcommitted⟩
  · simp [hnil]
  have hpages : pages = [] := by
    refine List.eq_nil_iff_forall_not_mem.mpr fun read hread => ?_
    have hsome := hmiddle read (by simpa [hcommitted] using hread)
    simp [hnext read (by simp [hcommitted, hread])] at hsome
  intro read hread
  obtain rfl : read = last := by simpa [hcommitted, hpages] using hread
  by_contra hreply
  have hdrained' := h.drained.mpr ⟨pages, read, by simpa using hcommitted, hnext read hread,
    Option.isSome_iff_ne_none.mpr hreply⟩
  simp [hdrained] at hdrained'

/-- What a crawl that did not drain offers. -/
lemma Closed.cursor_eq {input : SweepInput} {k : OpenCrawl} {r : SweepRun} {row : CrawlRow}
    (h : Closed c db input k r row) (hinput : k.input = input) (hdrained : row.drained = false) :
    row.nextPage = (durablePoint input k.startPage r.committed).map c.pageText ∨
      (∀ read ∈ r.committed, pageReply input read = none) ∧ row.nextPage = row.startPage := by
  have hcursor := h.cursor
  rw [hdrained, if_neg Bool.false_ne_true, storedCursor, hinput] at hcursor
  split_ifs at hcursor with hany
  · rw [cursorAfter, hinput] at hcursor
    exact Or.inl hcursor
  · refine Or.inr ⟨h.no_reply hdrained ?_, hcursor⟩
    simpa [List.any_eq_true] using hany

end Newest

/-- **The cursors of a reachable database.** A crawl that offers one has not drained, is the newest
of its resource, and is the only one of its resource that does. It was left by some sweep of the
run, and what it offers is that sweep's durable point after exactly the pages it committed: the
`next` of its last page reply when that was exact, otherwise its own start. A drained crawl offers
none, and under another derivation or fingerprint a sweep starts from the start of history.

**Proof sketch.** The facts about cursors are an invariant of reachable databases
(`cursorsSound_run`). A row that offers a cursor is not drained and is the newest of its resource;
two newest ones have the same id, and ids are distinct. Where the cursor came from is the origin of
its row: some sweep of the run left it (`crawl_origin`), its row was closed with the durable point
after its pages, and no later action moved a cursor that is still offered. A sweep under other rules
does not resume, so it starts at the start of history. -/
theorem resume_point (c : Crates) (actions : List Action) :
    (∀ row ∈ (run c actions).crawls, row.nextPage ≠ none →
      row.drained = false ∧
      (∀ other ∈ (run c actions).crawls, other.adapterId = row.adapterId →
        other.resourceId = row.resourceId →
          other.crawlId ≤ row.crawlId ∧ (other.nextPage ≠ none → other = row)) ∧
      ∃ before input script after k, actions = before ++ .sweep input script :: after ∧
        let out := sweepResource c (run c before) input script
        let point := match (out.committed.filterMap (pageReply input)).getLast? with
          | some page => if page.cursorResumable = .exact then page.next else k.startPage
          | none => k.startPage
        out.opened = some k ∧ k.crawlId = row.crawlId ∧ input.adapterId = row.adapterId ∧
          input.resourceId = row.resourceId ∧ startPage c row.startPage = .ok k.startPage ∧
          durablePoint input k.startPage out.committed = point ∧
          (row.nextPage = point.map c.pageText ∨
            (∀ read ∈ out.committed, pageReply input read = none) ∧
              row.nextPage = row.startPage)) ∧
    (∀ row ∈ (run c actions).crawls, row.drained = true → row.nextPage = none) ∧
    ∀ input script k, (sweepResource c (run c actions) input script).opened = some k →
      (∀ crawl, (run c actions).resumableCrawl input.adapterId input.resourceId = some crawl →
        crawl.localIdDerivation ≠ input.helloDerivation ∨
          crawl.fingerprint ≠ some input.fingerprint) →
      k.startPage = none := by
  have hsound := cursorsSound_run c actions
  have hdb := consistent_run c actions
  refine ⟨fun row hrow hcursor => ⟨?_, ?_, ?_⟩, hsound.drained, ?_⟩
  · by_contra hdrained
    exact hcursor (hsound.drained row hrow (by simpa using hdrained))
  · intro other hother hadapter hresource
    have hle := hsound.newest row hrow hcursor other hother hadapter hresource
    refine ⟨hle, fun hcursor' => ?_⟩
    have hge := hsound.newest other hother hcursor' row hrow hadapter.symm hresource.symm
    exact hdb.crawl_inj hother hrow (le_antisymm hle hge)
  · have hdrained : row.drained = false := by
      by_contra hdrained
      exact hcursor (hsound.drained row hrow (by simpa using hdrained))
    obtain ⟨before, input, script, after, k, row₀, rfl, hopened, -, hclosed, hsame⟩ :=
      crawl_origin c actions hrow
    obtain rfl : row = row₀ := by
      rcases hsame with rfl | rfl
      · rfl
      · exact absurd rfl hcursor
    have hinput : k.input = input := by
      rcases sweep_outcome (some MAX_PAGES) c (consistent_run c before) input script with
        ⟨e, h⟩ | ⟨k', db₁, events, hopen, -, hends⟩
      · simp [sweepResource, h, unopened] at hopened
      · obtain rfl : k = k' := Option.some.inj (hopened.symm.trans hends.opened)
        exact hopen.input_eq
    refine ⟨before, input, script, after, k, rfl, hopened, hclosed.crawlId.symm,
      hclosed.adapterId.symm, hclosed.resourceId.symm, hclosed.start, durablePoint_eq _, ?_⟩
    rw [← durablePoint_eq]
    exact hclosed.cursor_eq hinput hdrained
  · intro input script k hopened hrules
    rcases sweep_outcome (some MAX_PAGES) c hdb input script with
      ⟨e, h⟩ | ⟨k', db₁, events, hopen, -, hends⟩
    · simp [sweepResource, h, unopened] at hopened
    · obtain rfl : k = k' := Option.some.inj (hopened.symm.trans hends.opened)
      have hstart := hopen.start
      rw [resumedFrom_of_rules hrules] at hstart
      exact (Except.ok.inj hstart).symm

/-- A page that reports no page reply: the crawl ends there without having drained. -/
def unpagedPage : HistoryRead where
  observations := []
  statuses := [{ resourceId := "checking", outcome := .fetched true, degraded := [], page := none,
                 historyStart := none }]

/-- A crawl of two pages: an exact one, and one without a page reply. -/
def unpagedCrawl : Action :=
  .sweep (Sample.sweep "checking" "d")
    (Sample.script Sample.day₁ [Sample.page "checking" (some "c1") [], unpagedPage])

/-- The page that decides is the last one with a page reply, not the last one committed: here the
last committed page is not exact, and the cursor is the one before it. -/
theorem cursor_of_unpaged_crawl :
    ¬ ∀ (c : Crates) (actions : List Action), ∀ row ∈ (run c actions).crawls, row.nextPage ≠ none →
      ∀ before input script after k pages last,
        actions = before ++ .sweep input script :: after →
        (sweepResource c (run c before) input script).opened = some k →
        k.crawlId = row.crawlId →
        (sweepResource c (run c before) input script).committed = pages ++ [last] →
        row.nextPage = (match pageReply input last with
          | some page => if page.cursorResumable = .exact then page.next else k.startPage
          | none => k.startPage : Option PageRequest).map c.pageText := by
  intro h
  have hcrawls : ∀ row ∈ (run Sample.crates [unpagedCrawl]).crawls, row.crawlId = 1 ∧
      row.nextPage = some (Sample.pageText (.cursor "c1")) := by decide +kernel
  obtain ⟨row, hrow⟩ : ∃ row, row ∈ (run Sample.crates [unpagedCrawl]).crawls :=
    List.exists_mem_of_length_pos (by decide +kernel)
  obtain ⟨hid, hnext⟩ := hcrawls row hrow
  have hclaim := h Sample.crates [unpagedCrawl] row hrow (by simp [hnext]) [] _ _ [] _
    [Sample.page "checking" (some "c1") []] unpagedPage rfl rfl hid.symm rfl
  rw [hnext] at hclaim
  cases hclaim

end Sumer.Store
