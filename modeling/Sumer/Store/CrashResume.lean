import Sumer.Store.ResumePoint

set_option relaxedAutoImplicit false
set_option autoImplicit false

/-!
# Interrupted sweeps

A crawl that is cut short and continued, any number of times, appends what one uninterrupted sweep
appends. This asks that every cursor of the adapter determines the rest of one fixed sequence of
records. What each record adds is then decided by the tables the first sweep found: no record comes
twice, and the cursor that is stored with a page names the records after it.

## Main definitions

* `Sumer.Store.Pager`: an adapter whose cursors determine the rest of one sequence.
* `Sumer.Store.Interrupted`: sweeps that are resumed and cut short, one after another.
* `Sumer.Store.StoredObservation.written`: a row without crawl ids and the host's stamps.

## Main results

* `Sumer.Store.Progress.observeAll`: what records that come once add to the tables.
* `Sumer.Store.Ends.delivered`: what the committed pages deliver, and where they stop.
* `Sumer.Store.crash_resume`: interrupted sweeps append what one sweep does.
-/

namespace Sumer.Store

open Sumer.Wire Sumer.Host

/-! ### The adapter -/

/-- An adapter with exact cursors: the page requests it hands out, and what is left to read from
the start of history and from each of them. No record comes twice. -/
structure Pager where
  offers : PageRequest → Prop
  rest : Option PageRequest → List ObservationWire
  nodup : ((rest none).map ObservationWire.localId).Nodup

/-- What is left to read after a page with a given `next`. -/
def Pager.left (p : Pager) : Option PageRequest → List ObservationWire
  | none => []
  | some next => p.rest (some next)

/-- A reply is the pager's answer to a page request: the records from there on, and an exact cursor
to those that are left. -/
def Pager.Answers (p : Pager) (input : SweepInput) (asked : Option PageRequest)
    (read : HistoryRead) : Prop :=
  ∃ page, pageReply input read = some page ∧ page.cursorResumable = .exact ∧
    (∀ next, page.next = some next → p.offers next) ∧
    p.rest asked = (pageKept input read).map Observation.authored ++ p.left page.next

/-- Every reply is the pager's answer to what the sweep asks for: the given page first, and then
what the last page's `next` names. A failed answer or a failed commit ends the sweep, and nothing
more is asked. -/
def Pager.Answering (p : Pager) (input : SweepInput) : Option PageRequest → List Event → Prop
  | _, [] => True
  | asked, .violation _ :: events => p.Answering input asked events
  | _, .reply (.error _) _ :: _ => True
  | asked, .reply (.ok read) fault :: events =>
    p.Answers input asked read ∧
      (fault = false → (pageNext input read).isSome = true →
        p.Answering input (pageNext input read) events)

/-- Two sweeps of one resource, under the same software rules. -/
structure SweepInput.SameCrawl (input input' : SweepInput) : Prop where
  adapterId : input'.adapterId = input.adapterId
  resourceId : input'.resourceId = input.resourceId
  derivation : input'.helloDerivation = input.helloDerivation
  fingerprint : input'.fingerprint = input.fingerprint

/-- A sweep with `--resume` of the same crawl, that the pager answers. -/
structure Pager.Resumes (p : Pager) (c : Crates) (input : SweepInput) (db : Db)
    (input' : SweepInput) (script : Script) : Prop where
  same : input.SameCrawl input'
  resume : input'.options.resume = true
  answering : ∀ start, startPage c (resumedFrom db input') = .ok start →
    p.Answering input' start script.events

/-- A sweep has committed a page that ends its resource's history. -/
def SweepRun.Drained (r : SweepRun) (input : SweepInput) : Prop :=
  ∃ pages read, r.committed = pages ++ [read] ∧ pageNext input read = none ∧
    (pageReply input read).isSome = true

/-- Refreshes with `--resume` that are cut short, one after another: the writes of a refresh outside
its sweep, and a sweep, under any page limit, that does not drain. -/
inductive Interrupted (p : Pager) (c : Crates) (input : SweepInput) (db : Db) : Db → Prop
  | start : Interrupted p c input db db
  | write {db' : Db} (h : Interrupted p c input db db') (w : MetaWrite) :
      Interrupted p c input db (w.apply db')
  | sweep {db' : Db} (h : Interrupted p c input db db') (pageLimit : Option ℕ)
      (input' : SweepInput) (script : Script) (hresumes : p.Resumes c input db' input' script)
      (hcut : ¬ (sweepWithin pageLimit c db' input' script).Drained input') :
      Interrupted p c input db (sweepWithin pageLimit c db' input' script).db

/-! ### What a record adds -/

/-- What a row says, without the ids of crawls and the host's stamps. -/
structure WrittenRow where
  adapterId : String
  revision : ℕ
  derivation : String
  fingerprint : Option String
  contentHash : String
  authored : ObservationWire

/-- What a stored row has besides its arrival: all that a sweep that was interrupted and one that
was not write alike. -/
def StoredObservation.written (r : StoredObservation) : WrittenRow where
  adapterId := r.adapterId
  revision := r.revision
  derivation := r.derivation
  fingerprint := r.fingerprint
  contentHash := r.contentHash
  authored := r.observation.authored

/-- What a record adds to the tables: nothing if the head of its chain says the same. -/
def Db.added (c : Crates) (input : SweepInput) (db : Db) (o : Observation) : Option WrittenRow :=
  if db.repeats c input.adapterId o then none else some (db.newRow c input 0 o).written

/-- The rows of a table beyond those of another. -/
def Db.appendedTo (db' db : Db) : List StoredObservation :=
  db'.observations.drop db.observations.length

section Added

variable {c : Crates} {input input' : SweepInput} {db db' : Db} {o o' : Observation}

/-- What a record adds is read off what the adapter wrote. -/
lemma Db.added_congr (h : o.authored = o'.authored) :
    db.added c input o = db.added c input o' := by
  have hid : o.localId = o'.localId := congrArg ObservationWire.localId h
  have hrepeats : db.repeats c input.adapterId o = db.repeats c input.adapterId o' := by
    simp only [repeats, hid, contentHash_congr c h]
  have hrow : (db.newRow c input 0 o).written = (db.newRow c input 0 o').written := by
    simp only [newRow, StoredObservation.written, hid, h, contentHash_congr c h]
  rw [added, added, hrepeats, hrow]

/-- What a record adds depends on its own chain. -/
lemma Db.added_of_chain (hchain : db'.chainRows input.adapterId o.localId =
      db.chainRows input.adapterId o.localId) (hret : db'.retractions = db.retractions) :
    db'.added c input o = db.added c input o := by
  have hrepeats : db'.repeats c input.adapterId o = db.repeats c input.adapterId o := by
    simp only [repeats, buried, headRow, hchain, Db.retractionHighWater_congr hret]
  have hrow : db'.newRow c input 0 o = db.newRow c input 0 o := by
    simp only [newRow, hchain]
  rw [added, added, hrepeats, hrow]

/-- What records add is read off what the adapter wrote. -/
lemma Db.filterMap_added_congr {os os' : List Observation}
    (h : os.map Observation.authored = os'.map Observation.authored) :
    os.filterMap (db.added c input) = os'.filterMap (db.added c input) := by
  induction os generalizing os' with
  | nil =>
    obtain rfl : os' = [] := by simpa using h.symm
    rfl
  | cons o os ih =>
    obtain ⟨o', rest, rfl, ho, hrest⟩ := List.map_eq_cons_iff.mp h.symm
    simp only [List.filterMap_cons, Db.added_congr ho.symm, ih hrest.symm]

/-- An observation reads the resource and the rules of a sweep, and nothing else of it. -/
lemma Db.observe_congr (h : input.SameCrawl input') (crawlId : ℕ) :
    db.observe c input' crawlId o = db.observe c input crawlId o := by
  simp only [observe, stampHead, newRow, h.adapterId, h.derivation, h.fingerprint]

end Added

/-- Some records were added to the tables, each once: the other chains are as they were, and the
new rows are what the records add to the tables as they were. -/
structure Progress (c : Crates) (input : SweepInput) (db : Db) (done : List Observation)
    (db' : Db) : Prop where
  retractions : db'.retractions = db.retractions
  chains : ∀ l, l ∉ done.map Observation.localId →
    db'.chainRows input.adapterId l = db.chainRows input.adapterId l
  length_le : db.observations.length ≤ db'.observations.length
  ids : ∀ r ∈ db'.appendedTo db, r.observation.localId ∈ done.map Observation.localId
  rows : (db'.appendedTo db).map StoredObservation.written = done.filterMap (db.added c input)

section Progress

variable {c : Crates} {input input' : SweepInput} {db db' : Db} {done : List Observation}
  {o : Observation} {crawlId : ℕ}

/-- A sweep that has read no page yet has made no progress, and has left the store as it was. -/
lemma Progress.refl : Progress c input db [] db where
  retractions := rfl
  chains _ _ := rfl
  length_le := le_rfl
  ids := by simp [Db.appendedTo]
  rows := by simp [Db.appendedTo]

/-- Progress is about the observations and the retractions. -/
lemma Progress.congr {db'' : Db} (h : Progress c input db done db')
    (hobs : db''.observations = db'.observations) (hret : db''.retractions = db'.retractions) :
    Progress c input db done db'' where
  retractions := hret.trans h.retractions
  chains l hl := by
    rw [Db.chainRows_congr hobs]
    exact h.chains l hl
  length_le := hobs ▸ h.length_le
  ids := by
    rw [Db.appendedTo, hobs]
    exact h.ids
  rows := by
    rw [Db.appendedTo, hobs]
    exact h.rows

/-- **One more record.** Its chain is as it was, so what it adds now is what it added then; and a
stamp on its chain reaches none of the new rows.

**Proof sketch.** The chain of the record has not been touched since the sweep began, because no
record before it has its local id, so whether it repeats the head, and which row it would add, are
decided as they were at the start. If it repeats the head, the only row that changes is a stamped
row of its own chain, which is an old one, and nothing is added. Otherwise the table has a new row,
at its end, and it is the one that the record adds on its own. -/
lemma Progress.observe (h : Progress c input db done db')
    (ho : o.localId ∉ done.map Observation.localId) :
    Progress c input db (done ++ [o]) (db'.observe c input crawlId o) := by
  have hadded : db'.added c input o = db.added c input o :=
    Db.added_of_chain (h.chains _ ho) h.retractions
  have hchains (l : String) (hl : l ∉ (done ++ [o]).map Observation.localId) :
      (db'.observe c input crawlId o).chainRows input.adapterId l =
        db.chainRows input.adapterId l := by
    simp only [List.map_append, List.map_cons, List.map_nil, List.mem_append, List.mem_singleton,
      not_or] at hl
    rw [Db.chainRows_observe_of_ne fun heq => hl.2 heq.2]
    exact h.chains l hl.1
  by_cases hrep : db'.repeats c input.adapterId o = true
  · have hobs : (db'.observe c input crawlId o).observations =
        update (db'.isHead input.adapterId o.localId) (StoredObservation.stamped input crawlId)
          db'.observations := by
      rw [Db.observe, if_pos hrep]
      rfl
    have hsame : (db'.observe c input crawlId o).appendedTo db = db'.appendedTo db := by
      have hdrop : (db'.observe c input crawlId o).appendedTo db =
          update (db'.isHead input.adapterId o.localId) (StoredObservation.stamped input crawlId)
            (db'.appendedTo db) := by
        rw [Db.appendedTo, hobs, update, ← List.map_drop]
        rfl
      rw [hdrop]
      refine update_eq_self _ fun r hr => ?_
      have hne : r.observation.localId ≠ o.localId := fun heq => ho (heq ▸ h.ids r hr)
      simp [Db.isHead, hne]
    have hnone : db.added c input o = none := by
      rw [← hadded, Db.added, if_pos hrep]
    refine ⟨(Db.retractions_observe).trans h.retractions, hchains, ?_, ?_, ?_⟩
    · rw [hobs, length_update]
      exact h.length_le
    · rw [hsame]
      exact fun r hr => by simpa using Or.inl (List.mem_map.mp (h.ids r hr))
    · rw [hsame, h.rows, List.filterMap_append]
      simp [hnone]
  · have hobs : (db'.observe c input crawlId o).observations =
        db'.observations ++ [db'.newRow c input crawlId o] := by
      rw [Db.observe, if_neg hrep]
    have hnew : (db'.observe c input crawlId o).appendedTo db =
        db'.appendedTo db ++ [db'.newRow c input crawlId o] := by
      rw [Db.appendedTo, hobs, List.drop_append_of_le_length h.length_le]
      rfl
    have hsome : db.added c input o = some (db'.newRow c input crawlId o).written := by
      rw [← hadded, Db.added, if_neg hrep]
      rfl
    refine ⟨(Db.retractions_observe).trans h.retractions, hchains, ?_, ?_, ?_⟩
    · rw [hobs, List.length_append]
      exact Nat.le_add_right_of_le h.length_le
    · intro r hr
      rw [hnew, List.mem_append, List.mem_singleton] at hr
      rw [List.map_append, List.mem_append]
      rcases hr with hr | rfl
      · exact Or.inl (h.ids r hr)
      · exact Or.inr (List.mem_singleton.mpr rfl)
    · rw [hnew, List.map_append, h.rows, List.filterMap_append]
      simp [hsome]

/-- **Records that come once**: the run lemma. -/
lemma Progress.observeAll (h : Progress c input db done db') (hsame : input.SameCrawl input')
    {os : List Observation} (hnodup : ((done ++ os).map Observation.localId).Nodup) :
    Progress c input db (done ++ os) (db'.observeAll c input' crawlId os) := by
  induction os generalizing done db' with
  | nil => simpa using h
  | cons o os ih =>
    have hsplit : done ++ o :: os = (done ++ [o]) ++ os := by simp
    have ho : o.localId ∉ done.map Observation.localId := by
      rw [List.map_append, List.map_cons] at hnodup
      exact fun hmem => (List.nodup_append.mp hnodup).2.2 _ hmem _ List.mem_cons_self rfl
    rw [hsplit] at hnodup ⊢
    rw [Db.observeAll_cons, Db.observe_congr hsame]
    exact ih (h.observe ho) hnodup

end Progress

/-! ### What the pages deliver -/

section Delivered

variable {p : Pager} {c : Crates} {db db₁ : Db} {input : SweepInput} {script : Script}
  {k : OpenCrawl} {events more : List Event} {r : SweepRun} {row : CrawlRow}
  {asked : Option PageRequest} {read : HistoryRead}

/-- An answer delivers what was asked for, up to what its `next` leaves. -/
lemma Pager.Answers.rest_eq (h : p.Answers input asked read) :
    p.rest asked = (pageKept input read).map Observation.authored ++
      p.left (pageNext input read) := by
  obtain ⟨page, hreply, -, -, hrest⟩ := h
  rw [hrest, pageNext, hreply]
  rfl

/-- After a first page, the page to request is that of the pages that follow it. -/
lemma pageAfter_cons (pages : List HistoryRead) :
    pageAfter input asked (read :: pages) = pageAfter input (pageNext input read) pages := by
  rcases List.eq_nil_or_concat pages with rfl | ⟨pages, last, rfl⟩
  · rfl
  · rw [List.concat_eq_append, ← List.cons_append]
    simp only [pageAfter, List.getLast?_concat]

/-- Pages that a pager answered, each with a next one: they deliver what was asked for, up to what
the last of them leaves. -/
structure Pager.Delivers (p : Pager) (input : SweepInput) (asked : Option PageRequest)
    (pages : List HistoryRead) : Prop where
  exactCursor : ∀ read ∈ pages, ∃ page, pageReply input read = some page ∧
    page.cursorResumable = .exact
  offered : ∀ next, pageAfter input asked pages = some next → asked = some next ∨ p.offers next
  rest : p.rest asked = (allKept input pages).map Observation.authored ++
    p.rest (pageAfter input asked pages)

/-- **What the pages of a script deliver.** The events are those of pages that committed, each with
a next one.

**Proof sketch.** Induction on the events. A violation answers nothing and is skipped. A reply is a
committed page with a next one, so what the pager is asked for next is that next page, and the
induction hypothesis applies to it. -/
lemma Pager.Answering.delivers (h : p.Answering input asked (events ++ more))
    (hclean : ∀ answer fault, Event.reply answer fault ∈ events →
      fault = false ∧ ∃ read, answer = .ok read ∧ (pageNext input read).isSome = true) :
    p.Delivers input asked (repliesOf events) ∧
      p.Answering input (pageAfter input asked (repliesOf events)) more := by
  induction events generalizing asked with
  | nil => exact ⟨⟨List.forall_mem_nil _, fun next h => Or.inl h, rfl⟩, h⟩
  | cons e events ih =>
    have htail : ∀ answer fault, Event.reply answer fault ∈ events →
        fault = false ∧ ∃ read, answer = .ok read ∧ (pageNext input read).isSome = true :=
      fun answer fault he => hclean answer fault (List.mem_cons_of_mem _ he)
    cases e with
    | violation kind => exact ih h htail
    | reply answer fault =>
      obtain ⟨rfl, read, rfl, hnext⟩ := hclean answer fault List.mem_cons_self
      obtain ⟨hanswers, hmore⟩ := h
      obtain ⟨hdelivers, hanswering⟩ := ih (hmore rfl hnext) htail
      obtain ⟨next, hsome⟩ := Option.isSome_iff_exists.mp hnext
      have hcons : repliesOf (.reply (.ok read) false :: events) = read :: repliesOf events := rfl
      have hrest := hanswers.rest_eq
      obtain ⟨page, hreply, hexact, hoffers, -⟩ := hanswers
      rw [hcons, pageAfter_cons]
      refine ⟨⟨?_, ?_, ?_⟩, hanswering⟩
      · exact List.forall_mem_cons.mpr ⟨⟨page, hreply, hexact⟩, hdelivers.exactCursor⟩
      · intro last hlast
        rw [pageAfter_cons] at hlast
        refine Or.inr ((hdelivers.offered last hlast).elim (fun heq => hoffers last ?_) id)
        rwa [pageNext, hreply] at heq
      · have hleft : p.left (pageNext input read) = p.rest (pageNext input read) := by
          rw [hsome]
          rfl
        rw [hrest, hleft, hdelivers.rest, pageAfter_cons, ← List.append_assoc, ← List.map_append]
        rfl

/-- The pages of a sweep between two pages. -/
lemma At.delivers {s : Sweeping} (h : At c script k db₁ events s)
    (hanswering : p.Answering k.input k.startPage (events ++ more)) :
    p.Delivers k.input k.startPage s.committed ∧
      p.Answering k.input (pageAfter k.input k.startPage s.committed) more := by
  rw [h.committed]
  exact hanswering.delivers h.clean

/-- **What the committed pages of a sweep deliver**: all there is, if it drained; otherwise all up
to a page that is still to be requested.

**Proof sketch.** By cases of how the sweep ended. In each the pages that committed are the replies
of events that the pager answered (`At.delivers`). A sweep that was cut or ended early has no last
page; the other two have one, and then all there is was delivered, up to and with the reply that
named no next page. -/
lemma Ends.delivered (h : Ends c script k db₁ events r)
    (hanswering : p.Answering k.input k.startPage (events ++ more)) :
    (¬ r.Drained k.input ∧ p.Delivers k.input k.startPage r.committed) ∨
      (r.Drained k.input ∧
        p.rest k.startPage = (allKept k.input r.committed).map Observation.authored) := by
  have hlast {events : List Event} {s : Sweeping} {read : HistoryRead}
      (hat : At c script k db₁ events s) (hnone : pageNext k.input read = none)
      (hevents : p.Answering k.input k.startPage
        (events ++ [.reply (.ok read) false] ++ more)) :
      (pageReply k.input read).isSome = true ∧ p.rest k.startPage =
        (allKept k.input (s.committed ++ [read])).map Observation.authored := by
    rw [List.append_assoc] at hevents
    obtain ⟨hdelivers, hanswers, -⟩ := hat.delivers hevents
    have hrest := hanswers.rest_eq
    obtain ⟨page, hreply, -⟩ := hanswers
    refine ⟨by rw [hreply]; rfl, ?_⟩
    rw [hdelivers.rest, hrest, hnone, allKept_concat, List.map_append]
    simp [Pager.left]
  cases h with
  | cut hat => exact Or.inl ⟨hat.not_drained, (hat.delivers hanswering).1⟩
  | early hat => exact Or.inl ⟨hat.not_drained, (hat.delivers hanswering).1⟩
  | partialSweep hat hstatus hnone =>
    obtain ⟨hreply, hrest⟩ := hlast hat hnone hanswering
    exact Or.inr ⟨⟨_, _, rfl, hnone, hreply⟩, hrest⟩
  | complete hat hstatus hnone =>
    obtain ⟨hreply, hrest⟩ := hlast hat hnone hanswering
    exact Or.inr ⟨⟨_, _, rfl, hnone, hreply⟩, hrest⟩

/-- After exact pages, a sweep would be resumed with the page it would request next. -/
lemma Pager.Delivers.durablePoint_eq {pages : List HistoryRead}
    (h : p.Delivers input asked pages) :
    durablePoint input asked pages = pageAfter input asked pages := by
  rcases List.eq_nil_or_concat pages with rfl | ⟨pages, last, rfl⟩
  · rfl
  · rw [List.concat_eq_append] at h ⊢
    obtain ⟨page, hreply, hexact⟩ := h.exactCursor last (by simp)
    simp [durablePoint_concat, pageAfter, pageNext, hreply, hexact]

/-- The cursor that a crawl of exact pages offers. -/
lemma Closed.cursor_of_delivers (h : Closed c db input k r row) (hinput : k.input = input)
    (hdrained : row.drained = false) (hdelivers : p.Delivers input k.startPage r.committed)
    (hstart : resumedFrom db input = k.startPage.map c.pageText) :
    row.nextPage = (pageAfter input k.startPage r.committed).map c.pageText := by
  rcases h.cursor_eq hinput hdrained with hnext | ⟨hnone, hnext⟩
  · rw [hnext, hdelivers.durablePoint_eq]
  · have hnil : r.committed = [] := List.eq_nil_iff_forall_not_mem.mpr fun read hread => by
      obtain ⟨page, hreply, -⟩ := hdelivers.exactCursor read hread
      simp [hnone read hread] at hreply
    rw [hnext, h.startPage, hstart, hnil]
    rfl

/-- The next sweep is resumed from the crawl that was opened last.

**Proof sketch.** The earlier crawls of the resource were retired, so they offer nothing, and the
row of the sweep is the one that a resumption looks at. It has the derivation and the fingerprint of
the input, so its cursor is taken. -/
lemma Closed.resumePoint_eq (h : Closed c db input k r row)
    (hcrawls : r.db.crawls = retiredCrawls db input ++ [row]) (hdrained : row.drained = false) :
    resumePoint r.db input = row.nextPage := by
  have hretired : (retiredCrawls db input).filter (fun r => r.adapterId == input.adapterId &&
      r.resourceId == input.resourceId && !r.drained && r.nextPage.isSome) = [] := by
    refine List.filter_eq_nil_iff.mpr fun old hold => ?_
    obtain ⟨old, -, rfl⟩ := mem_retiredCrawls.mp hold
    split_ifs with hsame
    · simp
    · simp only [Bool.and_eq_true, beq_iff_eq]
      tauto
  have hcrawl : r.db.resumableCrawl input.adapterId input.resourceId =
      if row.nextPage.isSome = true then some row else none := by
    rw [Db.resumableCrawl, hcrawls, List.filter_append, hretired, List.nil_append]
    by_cases hnext : row.nextPage.isSome = true
    · simp [h.adapterId, h.resourceId, hdrained, hnext, latest, later]
    · simp [hnext]
  rw [resumePoint, hcrawl]
  cases hnext : row.nextPage with
  | none => simp
  | some text => simp [h.derivation, h.fingerprint, hnext]

end Delivered

/-! ### Sweeps that are cut short -/

/-- Where interrupted sweeps have come to: some records were added, each once, and the stored
cursor names those that are left. -/
structure Suspended (p : Pager) (c : Crates) (input : SweepInput) (db : Db)
    (done : List Observation) (asked : Option PageRequest) (db' : Db) : Prop where
  consistent : db'.Consistent
  progress : Progress c input db done db'
  left : p.rest none = done.map Observation.authored ++ p.rest asked
  offered : ∀ next, asked = some next → p.offers next
  cursor : resumePoint db' input = asked.map c.pageText

section Suspended

variable {p : Pager} {c : Crates} {db db' db₁ : Db} {input input' : SweepInput} {script : Script}
  {k : OpenCrawl} {events : List Event} {r : SweepRun} {done : List Observation}
  {asked : Option PageRequest}

/-- The resume point is that of a crawl. -/
lemma resumePoint_congr (h : input.SameCrawl input') :
    resumePoint db input' = resumePoint db input := by
  simp only [resumePoint, h.adapterId, h.resourceId, h.derivation, h.fingerprint]

/-- The first page of a sweep that is resumed is the one that is due. -/
lemma startPage_map (hc : ∀ next, asked = some next → c.parsePage (c.pageText next) = some next) :
    startPage c (asked.map c.pageText) = .ok asked := by
  cases asked with
  | none => rfl
  | some next => simp [startPage, hc next rfl]

/-- Nothing is in progress in a store without a cursor. -/
lemma Suspended.refl (hdb : db.Consistent)
    (hnone : db.resumableCrawl input.adapterId input.resourceId = none) :
    Suspended p c input db [] none db where
  consistent := hdb
  progress := .refl
  left := rfl
  offered next h := absurd h.symm (Option.some_ne_none next)
  cursor := by simp [resumePoint, hnone]

/-- A write outside sweeps leaves it there. -/
lemma Suspended.write (h : Suspended p c input db done asked db') (w : MetaWrite) :
    Suspended p c input db done asked (w.apply db') where
  consistent := w.consistent_apply h.consistent
  progress := h.progress.congr (w.apply_eq db').2.1 (w.apply_eq db').2.2
  left := h.left
  offered := h.offered
  cursor := by
    rw [← h.cursor, resumePoint, resumePoint, Db.resumableCrawl, (w.apply_eq db').1]
    rfl

/-- What a sweep observes comes once more to what was added before. -/
lemma Suspended.observed (h : Suspended p c input db done asked db')
    (hsame : input.SameCrawl input') (hopen : Opened c db' input' script k db₁)
    {pages : List HistoryRead} {after : List ObservationWire}
    (hrest : p.rest asked = (allKept input' pages).map Observation.authored ++ after) :
    Progress c input db (done ++ allKept input' pages) (observedTables c k db₁ pages) := by
  obtain rfl : k.input = input' := hopen.input_eq
  refine (h.progress.congr hopen.observations hopen.retractions).observeAll hsame ?_
  have hall : (p.rest none).map ObservationWire.localId =
      (done ++ allKept k.input pages).map Observation.localId ++
        after.map ObservationWire.localId := by
    rw [h.left, hrest, ← List.append_assoc, ← List.map_append, List.map_append, List.map_map]
    rfl
  have hnodup := p.nodup
  rw [hall] at hnodup
  exact (List.nodup_append.mp hnodup).1

/-- **A sweep that is cut short** leaves the store suspended further on.

**Proof sketch.** If the sweep never opened, nothing changed. Otherwise it started where the cursor
says, because the rules of resuming hold and a cursor that was rendered is read back; what it
committed is therefore the next part of what the provider would deliver (`Ends.delivered`), and
since it was not drained, something is left. It was not complete either, so it retracted nothing,
and the records it ingested extend the ones counted so far (`Progress.observe`, for each). The
cursor of its row is the request for what is left. -/
lemma Suspended.sweep (h : Suspended p c input db done asked db')
    (hc : c.PageRoundTrip p.offers)
    (pageLimit : Option ℕ) (hresumes : p.Resumes c input db' input' script)
    (hcut : ¬ (sweepWithin pageLimit c db' input' script).Drained input') :
    ∃ done asked, Suspended p c input db done asked
      (sweepWithin pageLimit c db' input' script).db := by
  have hconsistent := consistent_sweepWithin pageLimit c h.consistent input' script
  rcases crawls_sweepWithin pageLimit c h.consistent input' script with
    ⟨-, hdb⟩ | ⟨k', row, -, hopened', -, hcrawls, hclosed⟩
  · exact ⟨done, asked, hdb.symm ▸ h⟩
  rcases sweep_outcome pageLimit c h.consistent input' script with
    ⟨e, heq⟩ | ⟨k, db₁, events, hopen, ⟨more, hevents⟩, hends⟩
  · simp [heq, unopened] at hopened'
  obtain rfl : k = k' := Option.some.inj (hends.opened.symm.trans hopened')
  obtain rfl : k.input = input' := hopen.input_eq
  have hresumed : resumedFrom db' k.input = asked.map c.pageText := by
    rw [resumedFrom, if_pos hresumes.resume, resumePoint_congr hresumes.same, h.cursor]
  have hstart : startPage c (resumedFrom db' k.input) = .ok asked := by
    rw [hresumed]
    exact startPage_map fun next hnext => hc next (h.offered next hnext)
  obtain rfl : k.startPage = asked := Except.ok.inj (hopen.start.symm.trans hstart)
  have hanswering := hresumes.answering _ hstart
  rw [← hevents] at hanswering
  rcases hends.delivered hanswering with ⟨-, hdelivers⟩ | ⟨hdrained, -⟩
  swap
  · exact absurd hdrained hcut
  have hundrained : row.drained = false := by
    rw [← Bool.not_eq_true]
    exact fun hrow => hcut (hclosed.drained.mp hrow)
  have hretractions : (sweepWithin pageLimit c db' k.input script).db.retractions =
      db₁.retractions := by
    rcases hends.retractions with ⟨-, hret⟩ | ⟨hcomplete, -⟩
    · exact hret
    · have hrow := (hclosed.qualified (hclosed.complete.mpr hcomplete)).1
      simp [hundrained] at hrow
  have hprogress := (h.observed hresumes.same hopen hdelivers.rest).congr hends.observations
    (hretractions.trans Db.retractions_observeAll.symm)
  refine ⟨done ++ allKept k.input (sweepWithin pageLimit c db' k.input script).committed,
    pageAfter k.input k.startPage (sweepWithin pageLimit c db' k.input script).committed,
    hconsistent, hprogress, ?_, ?_, ?_⟩
  · rw [h.left, hdelivers.rest, List.map_append, List.append_assoc]
  · exact fun next hnext => (hdelivers.offered next hnext).elim (h.offered next) id
  · rw [← resumePoint_congr hresumes.same, hclosed.resumePoint_eq hcrawls hundrained]
    exact hclosed.cursor_of_delivers rfl hundrained hdelivers hresumed

/-- Interrupted sweeps leave the store suspended: some first part of the history is in it, and the
cursor asks for the rest. -/
lemma Interrupted.suspended (h : Interrupted p c input db db') (hdb : db.Consistent)
    (hc : c.PageRoundTrip p.offers)
    (hnone : db.resumableCrawl input.adapterId input.resourceId = none) :
    ∃ done asked, Suspended p c input db done asked db' := by
  induction h with
  | start => exact ⟨[], none, .refl hdb hnone⟩
  | write h w ih =>
    obtain ⟨done, asked, hsuspended⟩ := ih
    exact ⟨done, asked, hsuspended.write w⟩
  | sweep h pageLimit input' script hresumes hcut ih =>
    obtain ⟨done, asked, hsuspended⟩ := ih
    exact hsuspended.sweep hc pageLimit hresumes hcut

/-- **A sweep that drains** adds what is left: all records of the adapter are then added, each
once. -/
lemma Suspended.drain (h : Suspended p c input db done asked db')
    (hc : c.PageRoundTrip p.offers)
    {pageLimit : Option ℕ} (hsame : input.SameCrawl input')
    (hresumed : resumedFrom db' input' = asked.map c.pageText)
    (hanswering : p.Answering input' asked script.events)
    (hdrained : (sweepWithin pageLimit c db' input' script).Drained input') :
    ∃ os : List Observation, os.map Observation.authored = p.rest none ∧
      ((sweepWithin pageLimit c db' input' script).db.appendedTo db).map
        StoredObservation.written = os.filterMap (db.added c input) := by
  rcases sweep_outcome pageLimit c h.consistent input' script with
    ⟨e, heq⟩ | ⟨k, db₁, events, hopen, ⟨more, hevents⟩, hends⟩
  · obtain ⟨pages, read, hcommitted, -⟩ := hdrained
    simp [heq, unopened] at hcommitted
  obtain rfl : k.input = input' := hopen.input_eq
  have hstart : startPage c (resumedFrom db' k.input) = .ok asked := by
    rw [hresumed]
    exact startPage_map fun next hnext => hc next (h.offered next hnext)
  obtain rfl : k.startPage = asked := Except.ok.inj (hopen.start.symm.trans hstart)
  rw [← hevents] at hanswering
  rcases hends.delivered hanswering with ⟨hnot, -⟩ | ⟨-, hrest⟩
  · exact absurd hdrained hnot
  refine ⟨done ++ allKept k.input (sweepWithin pageLimit c db' k.input script).committed, ?_, ?_⟩
  · rw [h.left, hrest, ← List.map_append]
  · rw [← List.append_nil (List.map _ _)] at hrest
    rw [← (h.observed hsame hopen hrest).rows, Db.appendedTo, Db.appendedTo, hends.observations]

/-- A sweep that starts from a stored cursor writes no retraction. -/
lemma retractions_of_resumed {pageLimit : Option ℕ} (hdb : db'.Consistent)
    (hresumed : resumedFrom db' input' ≠ none) :
    (sweepWithin pageLimit c db' input' script).db.retractions = db'.retractions := by
  rcases sweep_outcome pageLimit c hdb input' script with
    ⟨e, heq⟩ | ⟨k, db₁, events, hopen, -, hends⟩
  · rw [heq]
    rfl
  · rcases hends.retractions with ⟨-, hret⟩ | ⟨-, hqualifies, -⟩
    · rw [hret, hopen.retractions]
    · exact absurd (hopen.resumedFrom_eq_none hqualifies.began) hresumed

end Suspended

/-- **Crash and resume.** In a store without a cursor for a resource, sweeps of it are cut short and
resumed any number of times, and the last one drains. They append the rows that one sweep without a
page limit would, up to the ids of crawls and the host's stamps. None of these sweeps that starts
from a stored cursor writes a retraction. The adapter's cursors are exact, and read back as they
were written.

**Proof sketch.** Between two sweeps the stored cursor names the records that are left, and what
was added is decided by the tables there were (`Suspended`). -/
theorem crash_resume (p : Pager) (c : Crates) (actions : List Action) (input : SweepInput)
    (hc : c.PageRoundTrip p.offers)
    (hnone : (run c actions).resumableCrawl input.adapterId input.resourceId = none) :
    ∀ db, Interrupted p c input (run c actions) db → ∀ pageLimit input' script,
      p.Resumes c input db input' script →
        (∀ single scriptOfSingle, input.SameCrawl single →
          p.Answering single none scriptOfSingle.events →
          (sweepWithin none c (run c actions) single scriptOfSingle).Drained single →
          (sweepWithin pageLimit c db input' script).Drained input' →
          ((sweepWithin pageLimit c db input' script).db.appendedTo (run c actions)).map
              StoredObservation.written =
            ((sweepWithin none c (run c actions) single scriptOfSingle).db.appendedTo
              (run c actions)).map StoredObservation.written) ∧
        (resumedFrom db input' ≠ none →
          (sweepWithin pageLimit c db input' script).db.retractions = db.retractions) := by
  intro db hinterrupted pageLimit input' script hresumes
  have hdb := consistent_run c actions
  obtain ⟨done, asked, hsuspended⟩ := hinterrupted.suspended hdb hc hnone
  refine ⟨fun single scriptOfSingle hsame hanswering hsingle hdrained => ?_,
    fun hresumed => retractions_of_resumed hsuspended.consistent hresumed⟩
  have hasked : resumedFrom db input' = asked.map c.pageText := by
    rw [resumedFrom, if_pos hresumes.resume, resumePoint_congr hresumes.same, hsuspended.cursor]
  have hfirst : resumedFrom (run c actions) single = none := by
    have hpoint : resumePoint (run c actions) single = none := by
      rw [resumePoint_congr hsame, resumePoint, hnone]
    rw [resumedFrom, hpoint, ite_self]
  have hstart : startPage c (resumedFrom db input') = .ok asked := by
    rw [hasked]
    exact startPage_map fun next hnext => hc next (hsuspended.offered next hnext)
  obtain ⟨os, hos, hrows⟩ := hsuspended.drain hc hresumes.same hasked
    (hresumes.answering asked hstart) hdrained
  have hnew : Suspended p c input (run c actions) [] none (run c actions) := .refl hdb hnone
  obtain ⟨os', hos', hrows'⟩ := hnew.drain hc hsame hfirst hanswering hsingle
  rw [hrows, hrows']
  exact Db.filterMap_added_congr (hos.trans hos'.symm)

/-- Two payments, on two days. -/
def rent : Observation := Sample.record "checking" "rent" "api" "rent" .active Sample.day₁

/-- The record of the first page. -/
def coffee : Observation := Sample.record "checking" "coffee" "api" "coffee" .active Sample.day₁

/-- The bank delivers them one by one. -/
def paymentPager : Pager where
  offers next := next = .cursor "1"
  rest
    | none => [rent.authored, coffee.authored]
    | some next => if next = .cursor "1" then [coffee.authored] else []
  nodup := by decide

/-- A sweep with `--resume`. -/
def resumingSweep : SweepInput := { Sample.sweep "checking" "d" with options := ⟨true, false⟩ }

/-- A process that dies after the first payment, and the tables it leaves. -/
def firstPage : Script :=
  Sample.script Sample.day₂ [Sample.page "checking" (some "1") [rent]]

/-- The store of a process that was killed after the first page was committed. -/
def afterFirstPage : Db := (sweepWithin (some MAX_PAGES) Sample.crates (run Sample.crates [])
  resumingSweep firstPage).db

/-- The next process reads the second payment. -/
def secondPage : Script := Sample.script Sample.day₃ [Sample.page "checking" none [coffee]]

/-- The store after the page that the interrupted sweep had not read. -/
def afterSecondPage : Db :=
  (sweepWithin (some MAX_PAGES) Sample.crates afterFirstPage resumingSweep secondPage).db

/-- Another process reads both. -/
def bothPages : Script :=
  Sample.script Sample.day₄ [Sample.page "checking" (some "1") [rent],
    Sample.page "checking" none [coffee]]

/-- The store of a process that read both pages without an interruption. -/
def afterBothPages : Db :=
  (sweepWithin none Sample.crates (run Sample.crates []) (Sample.sweep "checking" "d") bothPages).db

/-- Two sweeps that read one payment each append what one sweep appends.

**Proof sketch.** The script of the first sweep stops after one page, so it was interrupted; the
second resumes at the cursor that the first one stored, and is answered with the second page; a
third sweep, over the first tables, gets both pages. The theorem compares what the last two leave.
Its second part applies because the first sweep was not complete. -/
theorem crash_resume_payments :
    (afterSecondPage.appendedTo (run Sample.crates [])).map StoredObservation.written =
        (afterBothPages.appendedTo (run Sample.crates [])).map StoredObservation.written ∧
      afterSecondPage.retractions = afterFirstPage.retractions := by
  have hfirst : paymentPager.Answers resumingSweep none
      (Sample.page "checking" (some "1") [rent]) :=
    ⟨_, rfl, rfl, fun next h => (Option.some.inj h).symm, rfl⟩
  have hsecond : paymentPager.Answers resumingSweep (some (.cursor "1"))
      (Sample.page "checking" none [coffee]) :=
    ⟨_, rfl, rfl, fun next h => absurd h.symm (Option.some_ne_none next), rfl⟩
  have hinterrupted : Interrupted paymentPager Sample.crates resumingSweep (run Sample.crates [])
      afterFirstPage := by
    refine .sweep .start (some MAX_PAGES) resumingSweep firstPage ⟨⟨rfl, rfl, rfl, rfl⟩, rfl, ?_⟩ ?_
    · intro start hstart
      obtain rfl : none = start := Except.ok.inj hstart
      exact ⟨hfirst, fun _ _ => trivial⟩
    · rintro ⟨pages, read, hcommitted, hnone, -⟩
      have hone : [] ++ [Sample.page "checking" (some "1") [rent]] = pages ++ [read] := hcommitted
      obtain ⟨-, rfl⟩ := List.append_singleton_inj.mp hone
      cases hnone
  have hresumes : paymentPager.Resumes Sample.crates resumingSweep afterFirstPage resumingSweep
      secondPage := by
    refine ⟨⟨rfl, rfl, rfl, rfl⟩, rfl, fun start hstart => ?_⟩
    have hcursor : startPage Sample.crates (resumedFrom afterFirstPage resumingSweep) =
        .ok (some (.cursor "1")) := by decide +kernel
    obtain rfl : some (.cursor "1") = start := Except.ok.inj (hcursor.symm.trans hstart)
    exact ⟨hsecond, fun _ h => absurd h Bool.false_ne_true⟩
  obtain ⟨hrows, hretractions⟩ := crash_resume paymentPager Sample.crates [] resumingSweep
    (fun next h => by
      obtain rfl : next = .cursor "1" := h
      decide) rfl afterFirstPage hinterrupted (some MAX_PAGES) resumingSweep secondPage hresumes
  refine ⟨hrows (Sample.sweep "checking" "d") bothPages ⟨rfl, rfl, rfl, rfl⟩ ?_ ?_ ?_, ?_⟩
  · exact ⟨hfirst, fun _ _ => ⟨hsecond, fun _ h => absurd h Bool.false_ne_true⟩⟩
  · exact ⟨[Sample.page "checking" (some "1") [rent]], Sample.page "checking" none [coffee], rfl,
      rfl, rfl⟩
  · exact ⟨[], Sample.page "checking" none [coffee], rfl, rfl, rfl⟩
  · exact hretractions (by decide +kernel)

end Sumer.Store
