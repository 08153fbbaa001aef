import Sumer.Bitcoin.Ledger

set_option relaxedAutoImplicit false
set_option autoImplicit false

/-!
# One crawl, one snapshot

The requests that one adapter process answers one after the other. A client that starts a crawl
and follows its cursors is served from the snapshot that was fetched at the start, as long as no
request that is answered with `err` moved a snapshot before it failed: the loop over the queries
starts and drops snapshots as it goes, and a later query can still fail. No op but `history.read`
touches the snapshots.

## Main definitions

* `Sumer.Bitcoin.serveRounds`: the requests of one process, answered in order.
* `Sumer.Bitcoin.Follows`, `Sumer.Bitcoin.AllFrom`: a client that follows a crawl, and what it is
  served.
* `Sumer.Bitcoin.SnapshotLaw`: every crawl is one snapshot, also across failed requests.
* `Sumer.Bitcoin.Spoils`: a request that displaces a snapshot and fails, by its ledger.

## Main results

* `Sumer.Bitcoin.snapshot_law_iff`: the law holds of the runs in which no request spoils a
  crawl.
-/

namespace Sumer.Bitcoin

open Sumer.Wire

/-- One `history.read`: its id, its queries, and what the provider answers meanwhile. -/
structure Round where
  requestId : U64
  queries : List ResourceQuery
  world : String → Responses

/-- A request that was answered, with the crawls in hand before and after. -/
structure Served where
  before : Crawls
  round : Round
  reply : Except ErrorBody HistoryReply
  after : Crawls

/-- One request of a process. -/
def answer (debug : String → String) (a : Adapter) (crawls : Crawls) (r : Round) : Served where
  before := crawls
  round := r
  reply := writeReply r.requestId (historyRead debug a r.world crawls r.queries).2
  after := (historyRead debug a r.world crawls r.queries).1

/-- The requests of a process, in order. -/
def serveRounds (debug : String → String) (a : Adapter) : Crawls → List Round → List Served
  | _, [] => []
  | crawls, r :: rest =>
    answer debug a crawls r :: serveRounds debug a (answer debug a crawls r).after rest

/-! ### The law -/

/-- The page that a reply has for a resource. -/
def pageFor (reply : Except ErrorBody HistoryReply) (resourceId : String) : Option PageReply :=
  match reply with
  | .error _ => none
  | .ok body => (body.statuses.find? fun e => e.resourceId == resourceId).bind StatusEntry.page

/-- The observations that a reply has for a resource. -/
def observationsFor (reply : Except ErrorBody HistoryReply) (resourceId : String) :
    List ObservationWire :=
  match reply with
  | .error _ => []
  | .ok body => body.observations.filter fun o => o.resourceId == resourceId

/-- What a client asks for next: the `next` of a page it was served, and otherwise the same
again. -/
def nextAsk (resourceId : String) (asked : PageRequest) (reply : Except ErrorBody HistoryReply) :
    Option PageRequest :=
  match pageFor reply resourceId with
  | some p => p.next
  | none => some asked

/-- A client follows a crawl: until it has drained, what is asked for the resource is the page that
is due. -/
def Follows (resourceId : String) : Option PageRequest → List Served → Prop
  | some asked, s :: rest =>
    (∀ q ∈ s.round.queries, q.resourceId = resourceId → q.page = some asked) ∧
      Follows resourceId (nextAsk resourceId asked s.reply) rest
  | _, _ => True

/-- The page that a reply has for a resource is cut from a crawl, and carries its instant. -/
def FromCrawl (debug : String → String) (a : Adapter) (resourceId : String) (crawl : Crawl)
    (asked : Option PageRequest) (reply : Except ErrorBody HistoryReply) : Prop :=
  ∀ p, pageFor reply resourceId = some p → ∃ w start budget page,
    a.lookup resourceId = some w ∧ startOf debug asked = .ok start ∧
    a.pageOf w crawl start budget = .ok page ∧ page.reply = p ∧
    observationsFor reply resourceId = page.observations ∧
    ∀ o ∈ observationsFor reply resourceId, o.provenance.observedAt = crawl.observedAt

/-- Every page of a followed crawl is cut from one snapshot. -/
def AllFrom (debug : String → String) (a : Adapter) (resourceId : String) (crawl : Crawl) :
    Option PageRequest → List Served → Prop
  | some asked, s :: rest =>
    FromCrawl debug a resourceId crawl (some asked) s.reply ∧
      AllFrom debug a resourceId crawl (nextAsk resourceId asked s.reply) rest
  | _, _ => True

/-- A client that starts a crawl and follows it is served from the snapshot fetched at the
start. -/
def OneSnapshot (debug : String → String) (a : Adapter) (served : List Served) : Prop :=
  ∀ earlier first later, served = earlier ++ first :: later →
    ∀ q ∈ first.round.queries, q.page = none →
    ∀ p, pageFor first.reply q.resourceId = some p →
    ∃ w crawl, a.lookup q.resourceId = some w ∧
      observedAt (first.round.world q.resourceId) = .ok crawl.observedAt ∧
      sync (first.round.world q.resourceId) w = .ok crawl.chain ∧
      FromCrawl debug a q.resourceId crawl none first.reply ∧
      (Follows q.resourceId p.next later → AllFrom debug a q.resourceId crawl p.next later)

/-- A request that is answered with `err` leaves the crawls as they were. -/
def KeptOnErr (served : List Served) : Prop :=
  ∀ s ∈ served, ∀ e, s.reply = .error e → s.after = s.before

/-- **One crawl is one snapshot**, also across failed requests: the law of a process that starts
without a crawl in hand. -/
def SnapshotLaw (debug : String → String) (a : Adapter) (rounds : List Round) : Prop :=
  OneSnapshot debug a (serveRounds debug a (fun _ => none) rounds) ∧
    KeptOnErr (serveRounds debug a (fun _ => none) rounds)

/-! ### Requests that fail too late -/

/-- The ledger of a request, by the crawls in hand before it. -/
def Round.lines (debug : String → String) (a : Adapter) (crawls : Crawls) (r : Round) :
    List Line :=
  ledgerOf debug a r.world crawls r.queries

/-- **A request that spoils a crawl.** It names no resource twice; among its queries, up to the
first one it is refused for, is one that displaces the crawl of its wallet: it starts a crawl that
stays in hand, or its page has room for all that is left of the crawl in hand. And it is refused, or
its reply takes more bytes that nothing was set aside for than there are to spare. -/
def Spoils (debug : String → String) (a : Adapter) (crawls : Crawls) (r : Round) : Prop :=
  (r.queries.map ResourceQuery.resourceId).Nodup ∧
  (∃ l ∈ reached (r.lines debug a crawls), l.Displaces crawls) ∧
  ((∃ l ∈ r.lines debug a crawls, l.share.fails = true) ∨
    spare (r.lines debug a crawls) < overdraft r.requestId (r.lines debug a crawls))

/-! ### One request -/

section Answer

variable {debug : String → String} {a : Adapter} {world : String → Responses} {crawls : Crawls}
  {r : Round} {s s' : Reading} {q : ResourceQuery}

/-- A query leaves the crawls of the other resources alone. -/
lemma crawlsOf_serveQuery {resourceId : String} (hne : resourceId ≠ q.resourceId) :
    crawlsOf (serveQuery debug a world s q) resourceId = s.crawls resourceId := by
  cases h : serveQuery debug a world s q with
  | ok s' => exact (serveQuery_same h hne).crawls
  | error f =>
    rcases serveQuery_eq_error h with hsame | ⟨w, start, crawl, e, -, -, hcrawls⟩
    · exact congrFun hsame resourceId
    · exact (congrFun hcrawls resourceId).trans (Function.update_of_ne hne _ _)

/-- The loop leaves the crawls alone that are not asked for, whatever comes of it. -/
lemma crawlsOf_serveAll (queries : List ResourceQuery) {resourceId : String}
    (hne : resourceId ∉ queries.map ResourceQuery.resourceId) :
    crawlsOf (queries.foldlM (serveQuery debug a world) s) resourceId = s.crawls resourceId := by
  induction queries generalizing s with
  | nil => rfl
  | cons q queries ih =>
    rw [List.map_cons, List.mem_cons, not_or] at hne
    have hone : crawlsOf (serveQuery debug a world s q) resourceId = s.crawls resourceId :=
      crawlsOf_serveQuery hne.1
    rw [List.foldlM_cons]
    cases h : serveQuery debug a world s q with
    | error f =>
      rw [h] at hone
      exact hone
    | ok s' =>
      rw [h] at hone
      exact (ih hne.2).trans hone

/-- The loop of a request, from the state it starts in. -/
def loopOf (debug : String → String) (a : Adapter) (crawls : Crawls) (r : Round) :
    Except Failure Reading :=
  r.queries.foldlM (serveQuery debug a r.world) (Reading.start crawls r.queries)

/-- A request that names a resource twice is refused before anything is read. -/
lemma answer_of_repeats (debug : String → String) (a : Adapter) (crawls : Crawls)
    (h : ¬ (r.queries.map ResourceQuery.resourceId).Nodup) :
    (∃ e, (answer debug a crawls r).reply = .error e) ∧
      (answer debug a crawls r).after = crawls := by
  simp only [answer, historyRead, noRepeats, if_neg h, and_true]
  rw [writeReply]
  split_ifs
  · exact ⟨_, rfl⟩
  · exact ⟨_, rfl⟩

/-- What the loop leaves in hand is in hand afterwards. -/
lemma after_answer (h : (r.queries.map ResourceQuery.resourceId).Nodup) :
    (answer debug a crawls r).after = crawlsOf (loopOf debug a crawls r) := by
  simp only [answer, historyRead, noRepeats, if_pos h, loopOf]
  cases r.queries.foldlM (serveQuery debug a r.world) (Reading.start crawls r.queries) <;> rfl

/-- What goes out when the loop has ended, if it fits. -/
lemma reply_answer (h : (r.queries.map ResourceQuery.resourceId).Nodup) {t : Reading}
    (ht : loopOf debug a crawls r = .ok t) :
    (answer debug a crawls r).reply =
      writeReply r.requestId (.ok ⟨t.observations, t.statuses⟩) := by
  rw [loopOf] at ht
  simp only [answer, historyRead, noRepeats, if_pos h, ht]

/-- When a request without a repeat is answered with `err`. -/
lemma answer_err_iff (h : (r.queries.map ResourceQuery.resourceId).Nodup) :
    (∃ e, (answer debug a crawls r).reply = .error e) ↔
      (∃ f, loopOf debug a crawls r = .error f) ∨ ∃ t, loopOf debug a crawls r = .ok t ∧
        MAX_FRAME_BYTES < (replyJson r.requestId (.ok ⟨t.observations, t.statuses⟩)).size := by
  cases ht : loopOf debug a crawls r with
  | error f =>
    rw [loopOf] at ht
    simp only [answer, historyRead, noRepeats, if_pos h, ht, writeReply]
    split_ifs <;> simp
  | ok t =>
    rw [reply_answer h ht, writeReply]
    split_ifs with hsize
    · simp [hsize]
    · simp [hsize]

/-- The loop of a request does what its lines say. -/
lemma loopOf_eq_lines (h : (r.queries.map ResourceQuery.resourceId).Nodup) :
    loopOf debug a crawls r =
      (r.lines debug a crawls).foldlM (fun s l => l.apply s) (Reading.start crawls r.queries) :=
  serveAll_start_eq_apply h

/-- The loop of a request fails, or makes a reply that does not fit a frame, when a line of it is
refused or the lines take more than there is to spare.

**Proof sketch.** The loop applies the lines of the request one by one, so it fails exactly when a
line does. If none does, the reply it makes is larger than a frame exactly when the lines take more
than there is to spare. -/
lemma loopOf_late_iff (h : (r.queries.map ResourceQuery.resourceId).Nodup) :
    ((∃ f, loopOf debug a crawls r = .error f) ∨ ∃ t, loopOf debug a crawls r = .ok t ∧
        MAX_FRAME_BYTES < (replyJson r.requestId (.ok ⟨t.observations, t.statuses⟩)).size) ↔
      (∃ l ∈ r.lines debug a crawls, l.share.fails = true) ∨
        spare (r.lines debug a crawls) < overdraft r.requestId (r.lines debug a crawls) := by
  have hfails : (∃ f, loopOf debug a crawls r = .error f) ↔
      ∃ l ∈ r.lines debug a crawls, l.share.fails = true := by
    rw [loopOf_eq_lines h]
    exact foldlM_apply_eq_error_iff
  rw [hfails]
  refine or_congr_right' fun hgoes => ?_
  obtain ⟨t, ht⟩ : ∃ t, loopOf debug a crawls r = .ok t := by
    cases hloop : loopOf debug a crawls r with
    | ok t => exact ⟨t, rfl⟩
    | error f => exact absurd (hfails.mp ⟨f, hloop⟩) hgoes
  obtain ⟨hgoes, hstatuses, hobservations⟩ := foldlM_apply_eq_ok (loopOf_eq_lines h ▸ ht)
  have hsize : (replyJson r.requestId (.ok ⟨t.observations, t.statuses⟩)).size ≤ MAX_FRAME_BYTES ↔
      overdraft r.requestId (r.lines debug a crawls) ≤ spare (r.lines debug a crawls) := by
    rw [hstatuses, hobservations]
    exact overdraft_le_spare_iff r.requestId hgoes
  rw [← not_le, ← hsize, not_le]
  constructor
  · rintro ⟨t', ht', hlarge⟩
    cases ht.symm.trans ht'
    exact hlarge
  · exact fun hlarge => ⟨t, ht, hlarge⟩

/-- **A request spoils a crawl** exactly when it is answered with `err` and does not leave the
crawls as they were. -/
lemma spoils_iff : Spoils debug a crawls r ↔
    (∃ e, (answer debug a crawls r).reply = .error e) ∧
      (answer debug a crawls r).after ≠ crawls := by
  by_cases hnodup : (r.queries.map ResourceQuery.resourceId).Nodup
  swap
  · have hrepeat := answer_of_repeats debug a crawls hnodup
    exact ⟨fun h => absurd h.1 hnodup, fun h => absurd hrepeat.2 h.2⟩
  have hids : ((r.lines debug a crawls).map Line.resourceId).Nodup := by
    rw [Round.lines, ledgerOf, map_resourceId_ledger]
    exact hnodup
  have hkept : crawlsOf (loopOf debug a crawls r) = crawls ↔
      ∀ l ∈ reached (r.lines debug a crawls), ¬ l.Displaces crawls := by
    rw [loopOf_eq_lines hnodup]
    exact crawlsOf_apply_iff hids (Reading.start crawls r.queries)
  rw [answer_err_iff hnodup, after_answer hnodup, loopOf_late_iff hnodup, Ne, hkept]
  push Not
  exact ⟨fun h => ⟨h.2.2, h.2.1⟩, fun h => ⟨hnodup, h.2, h.1⟩⟩

/-- What went out is what the loop ended with. -/
lemma reply_eq_ok {body : HistoryReply} (h : (answer debug a crawls r).reply = .ok body) :
    (r.queries.map ResourceQuery.resourceId).Nodup ∧ ∃ t, loopOf debug a crawls r = .ok t ∧
      body = ⟨t.observations, t.statuses⟩ := by
  by_cases hnodup : (r.queries.map ResourceQuery.resourceId).Nodup
  swap
  · obtain ⟨e, he⟩ := (answer_of_repeats debug a crawls hnodup).1
    rw [he] at h
    cases h
  refine ⟨hnodup, ?_⟩
  cases ht : loopOf debug a crawls r with
  | error f =>
    obtain ⟨e, he⟩ := (answer_err_iff hnodup).mpr (.inl ⟨f, ht⟩)
    rw [he] at h
    cases h
  | ok t =>
    rw [reply_answer hnodup ht, writeReply] at h
    split_ifs at h
    cases h
    exact ⟨t, rfl, rfl⟩

/-- The entry of a resource is the only one it has. -/
lemma find?_of_filter_eq {statuses : List StatusEntry} {resourceId : String} {entry : StatusEntry}
    (h : (statuses.filter fun e => e.resourceId == resourceId) = [entry]) :
    (statuses.find? fun e => e.resourceId == resourceId) = some entry := by
  rw [← List.head?_filter, h]
  rfl

/-- The turn of a query: the loop before it has nothing of its resource, and the loop after it adds
nothing. -/
lemma exists_turn (hq : q ∈ r.queries) (hnodup : (r.queries.map ResourceQuery.resourceId).Nodup)
    {t : Reading} (ht : loopOf debug a crawls r = .ok t) :
    ∃ s s', serveQuery debug a r.world s q = .ok s' ∧
      SameFor q.resourceId (Reading.start crawls r.queries) s ∧ SameFor q.resourceId s' t := by
  obtain ⟨before, after, heq⟩ := List.append_of_mem hq
  have hloop : (before ++ q :: after).foldlM (serveQuery debug a r.world)
      (Reading.start crawls r.queries) = .ok t := by
    rw [← heq]
    exact ht
  obtain ⟨s, hbefore, ht⟩ := foldlM_append_eq_ok.mp hloop
  obtain ⟨s', hserve, hafter⟩ := foldlM_cons_eq_ok.mp ht
  rw [heq, List.map_append, List.map_cons, List.nodup_append, List.nodup_cons] at hnodup
  exact ⟨s, s', hserve,
    serveAll_same hbefore fun hmem => hnodup.2.2 _ hmem _ List.mem_cons_self rfl,
    serveAll_same hafter hnodup.2.1.1⟩

/-- **A page that goes out** is cut from the crawl its query was served from, which stays in hand
unless the page drained it.

**Proof sketch.** A reply with a page is not an error, so the loop went through, and its turn for
this query found what was in hand before the request and neither an entry nor a record of its
resource (`exists_turn`). If the turn served no page, the only entry of the resource has none. If it
did, the entry is that of the page, the records of the resource are those of the page, and the later
turns leave them and the crawl alone. -/
lemma pageFor_answer (hq : q ∈ r.queries) {p : PageReply}
    (hp : pageFor (answer debug a crawls r).reply q.resourceId = some p) :
    ∃ w start crawl budget page, a.lookup q.resourceId = some w ∧
      startOf debug q.page = .ok start ∧
      crawlFor (r.world q.resourceId) w (crawls q.resourceId) start = .ok (.ok crawl) ∧
      a.pageOf w crawl start budget = .ok page ∧ page.reply = p ∧
      observationsFor (answer debug a crawls r).reply q.resourceId = page.observations ∧
      (answer debug a crawls r).after q.resourceId =
        if page.next.isNone then none else some crawl := by
  cases hreply : (answer debug a crawls r).reply with
  | error e =>
    rw [hreply] at hp
    cases hp
  | ok body =>
    rw [hreply] at hp
    obtain ⟨hnodup, t, ht, rfl⟩ := reply_eq_ok hreply
    obtain ⟨s, s', hserve, hbefore, hafter⟩ := exists_turn hq hnodup ht
    have hcrawls : s.crawls q.resourceId = crawls q.resourceId := hbefore.crawls
    have hobs : (s.observations.filter fun o => o.resourceId == q.resourceId) = [] :=
      hbefore.observations
    have hstatuses : (s.statuses.filter fun e => e.resourceId == q.resourceId) = [] :=
      hbefore.statuses
    rcases serveQuery_eq_ok hserve with ⟨entry, abandoned, hentry, hnopage, rfl⟩ |
        ⟨w, start, crawl, page, hpaged, hpage, rfl⟩
    · have hone : (t.statuses.filter fun e => e.resourceId == q.resourceId) = [entry] := by
        rw [hafter.statuses]
        simp [Reading.push, hstatuses, hentry]
      rw [pageFor, find?_of_filter_eq hone] at hp
      exact absurd (hnopage.symm.trans hp) (by simp)
    · have hone : (t.statuses.filter fun e => e.resourceId == q.resourceId) =
          [page.entry q.resourceId] := by
        rw [hafter.statuses]
        simp [Reading.paged, Reading.serve, hstatuses, Page.entry]
      rw [pageFor, find?_of_filter_eq hone] at hp
      refine ⟨w, start, crawl, _, page, hpaged.wallet, hpaged.cursor, hcrawls ▸ hpaged.crawl, hpage,
        Option.some.inj hp, ?_, ?_⟩
      · show t.observations.filter _ = _
        rw [hafter.observations]
        show (s.observations ++ page.observations).filter _ = _
        rw [List.filter_append, hobs, filter_pageOf hpage,
          if_pos (lookup_eq_some hpaged.wallet).symm, List.nil_append]
      · rw [after_answer hnodup, ht]
        show t.crawls q.resourceId = _
        rw [hafter.crawls, Reading.crawls_paged, Function.update_self]

/-- A reply without a page for a resource leaves its crawl in hand.

**Proof sketch.** A resource that was not asked for keeps its crawl through all turns. One that was
had a turn, which served no page, as the reply would have it otherwise; and such a turn, with all
the others, leaves the crawl. -/
lemma after_of_no_page {body : HistoryReply} (hreply : (answer debug a crawls r).reply = .ok body)
    {resourceId : String} (hnone : pageFor (answer debug a crawls r).reply resourceId = none) :
    (answer debug a crawls r).after resourceId = crawls resourceId := by
  obtain ⟨hnodup, t, ht, rfl⟩ := reply_eq_ok hreply
  rw [after_answer hnodup]
  by_cases hnamed : ∃ q ∈ r.queries, q.resourceId = resourceId
  swap
  · refine crawlsOf_serveAll r.queries fun hmem => hnamed ?_
    obtain ⟨q, hq, rfl⟩ := List.mem_map.mp hmem
    exact ⟨q, hq, rfl⟩
  obtain ⟨q, hq, rfl⟩ := hnamed
  obtain ⟨s, s', hserve, hbefore, hafter⟩ := exists_turn hq hnodup ht
  rw [ht]
  show t.crawls q.resourceId = _
  rw [hafter.crawls]
  rcases serveQuery_eq_ok hserve with ⟨entry, abandoned, -, -, rfl⟩ |
      ⟨w, start, crawl, page, hpaged, hpage, rfl⟩
  · exact hbefore.crawls
  · have hone : (t.statuses.filter fun e => e.resourceId == q.resourceId) =
        [page.entry q.resourceId] := by
      have hstatuses : (s.statuses.filter fun e => e.resourceId == q.resourceId) = [] :=
        hbefore.statuses
      rw [hafter.statuses]
      simp [Reading.paged, Reading.serve, hstatuses, Page.entry]
    rw [hreply, pageFor, find?_of_filter_eq hone] at hnone
    exact absurd hnone (by simp [Page.entry])

/-- A resource that a reply has a page for was asked for. -/
lemma exists_query {resourceId : String} {p : PageReply}
    (hp : pageFor (answer debug a crawls r).reply resourceId = some p) :
    ∃ q ∈ r.queries, q.resourceId = resourceId := by
  cases hreply : (answer debug a crawls r).reply with
  | error e =>
    rw [hreply] at hp
    cases hp
  | ok body =>
    obtain ⟨-, t, ht, rfl⟩ := reply_eq_ok hreply
    rw [hreply] at hp
    obtain ⟨entry, hentry, -⟩ := Option.bind_eq_some_iff.mp hp
    have hid := List.find?_some hentry
    have hmem := List.mem_map_of_mem (f := StatusEntry.resourceId)
      (List.mem_of_find?_eq_some hentry)
    rw [serveAll_resourceIds ht] at hmem
    obtain ⟨q, hq, heq⟩ := List.mem_map.mp hmem
    exact ⟨q, hq, heq.trans (by simpa using hid)⟩

/-- A crawl that is started is fetched.

**Proof sketch.** Without a cursor a crawl is started whatever is in hand; it reads the clock and
lists the wallet, and is made of the two. -/
lemma crawlFor_none {responses : Responses} {w : Wallet} {inHand : Option Crawl} {crawl : Crawl}
    (h : crawlFor responses w inHand none = .ok (.ok crawl)) :
    observedAt responses = .ok crawl.observedAt ∧ sync responses w = .ok crawl.chain := by
  have h : startCrawl responses w = .ok (.ok crawl) := by
    cases inHand <;> exact h
  rw [startCrawl] at h
  cases hclock : observedAt responses with
  | error e =>
    rw [hclock] at h
    cases h
  | ok t =>
    rw [hclock] at h
    cases hsync : sync responses w with
    | error e =>
      rw [hsync] at h
      cases h
    | ok chain =>
      rw [hsync] at h
      cases h
      exact ⟨rfl, rfl⟩

/-- A page that is cut from the crawl in hand carries the instant of that crawl. -/
lemma fromCrawl_answer {asked : Option PageRequest} {crawl : Crawl} {resourceId : String}
    (hasked : ∀ q ∈ r.queries, q.resourceId = resourceId → q.page = asked)
    (hcrawl : ∀ w start crawl', a.lookup resourceId = some w → startOf debug asked = .ok start →
      crawlFor (r.world resourceId) w (crawls resourceId) start = .ok (.ok crawl') →
      crawl' = crawl) :
    FromCrawl debug a resourceId crawl asked (answer debug a crawls r).reply := by
  intro p hp
  obtain ⟨q, hq, rfl⟩ := exists_query hp
  obtain ⟨w, start, crawl', budget, page, hw, hstart, hfor, hpage, hreply, hobs, -⟩ :=
    pageFor_answer hq hp
  rw [hasked q hq rfl] at hstart
  obtain rfl := hcrawl w start crawl' hw hstart hfor
  refine ⟨w, start, budget, page, hw, hstart, hpage, hreply, hobs, fun o ho => ?_⟩
  rw [hobs] at ho
  exact (pageOf_observations hpage ho).2

/-- Once a crawl has drained, nothing more is promised of it. -/
lemma allFrom_none {crawl : Crawl} {resourceId : String} (served : List Served) :
    AllFrom debug a resourceId crawl none served := by
  cases served <;> exact trivial

/-- **A followed crawl stays in hand**, and every page is cut from it.

**Proof sketch.** Induction on the requests. A request that follows the cursor meets the crawl in
hand, so whatever page it gets is cut from it (`fromCrawl_answer`). If it has a page with a next
one, the crawl is still in hand after it, and the induction hypothesis is for the cursor of that
page; if it has none, it was answered with an error, and the crawl is kept by assumption, or the
resource was not asked about. -/
lemma allFrom_of_follows {crawl : Crawl} {resourceId : String} (rounds : List Round)
    (hin : crawls resourceId = some crawl) (cursor : String)
    (hkept : KeptOnErr (serveRounds debug a crawls rounds))
    (hfollows : Follows resourceId (some (.cursor cursor)) (serveRounds debug a crawls rounds)) :
    AllFrom debug a resourceId crawl (some (.cursor cursor))
      (serveRounds debug a crawls rounds) := by
  induction rounds generalizing crawls cursor with
  | nil => exact trivial
  | cons r rounds ih =>
    obtain ⟨hasked, hfollows⟩ := hfollows
    have hcontinues (w : Wallet) (start : Option Cursor) (crawl' : Crawl)
        (_ : a.lookup resourceId = some w)
        (hstart : startOf debug (some (.cursor cursor)) = .ok start)
        (hfor : crawlFor (r.world resourceId) w (crawls resourceId) start = .ok (.ok crawl')) :
        crawl' = crawl := by
      rw [startOf] at hstart
      split at hstart
      · cases hstart
        rw [hin] at hfor
        cases hfor
        rfl
      · cases hstart
    refine ⟨fromCrawl_answer hasked hcontinues, ?_⟩
    have hrest : KeptOnErr (serveRounds debug a (answer debug a crawls r).after rounds) :=
      fun s hs => hkept s (List.mem_cons_of_mem _ hs)
    cases hpage : pageFor (answer debug a crawls r).reply resourceId with
    | none =>
      have hnext : nextAsk resourceId (.cursor cursor) (answer debug a crawls r).reply =
          some (.cursor cursor) := by rw [nextAsk, hpage]
      have hstays : (answer debug a crawls r).after resourceId = some crawl := by
        cases hreply : (answer debug a crawls r).reply with
        | error e =>
          rw [hkept _ List.mem_cons_self e hreply]
          exact hin
        | ok body => rw [after_of_no_page hreply hpage, hin]
      rw [hnext] at hfollows ⊢
      exact ih hstays cursor hrest hfollows
    | some p =>
      obtain ⟨q, hq, rfl⟩ := exists_query hpage
      obtain ⟨w, start, crawl', budget, page, hw, hstart, hfor, -, rfl, -, hafter⟩ :=
        pageFor_answer hq hpage
      rw [hasked q hq rfl] at hstart
      obtain rfl := hcontinues w start crawl' hw hstart hfor
      have hnext : nextAsk q.resourceId (.cursor cursor) (answer debug a crawls r).reply =
          page.next.map fun c => .cursor c.encode := by
        rw [nextAsk, hpage]
        rfl
      rw [hnext] at hfollows ⊢
      cases hdrained : page.next with
      | none => exact allFrom_none _
      | some c =>
        rw [hdrained] at hafter hfollows
        exact ih hafter c.encode hrest hfollows

end Answer

/-! ### The requests of a process -/

section Rounds

variable {debug : String → String} {a : Adapter} {crawls : Crawls} {rounds : List Round}

/-- Where a request of a process stands. -/
lemma serveRounds_eq_append {earlier later : List Served} {s : Served}
    (h : serveRounds debug a crawls rounds = earlier ++ s :: later) :
    ∃ before r rest, s = answer debug a before r ∧ later = serveRounds debug a s.after rest := by
  induction rounds generalizing crawls earlier with
  | nil => exact absurd h.symm (by simp [serveRounds])
  | cons r rounds ih =>
    cases earlier with
    | nil =>
      obtain ⟨rfl, rfl⟩ := List.cons.inj h
      exact ⟨crawls, r, rounds, rfl, rfl⟩
    | cons e earlier => exact ih (List.cons.inj h).2

/-- What is kept across failed requests is enough for every crawl to be one snapshot.

**Proof sketch.** The run is split at the request for a first page. Its page is cut from the crawl
that this request fetched, since a query without a cursor does not use what is in hand
(`pageFor_answer`). If the page drained the crawl there is nothing to follow; otherwise the crawl
stays in hand, and the requests that follow its cursor are served from it (`allFrom_of_follows`). -/
lemma oneSnapshot_of_kept (hkept : KeptOnErr (serveRounds debug a crawls rounds)) :
    OneSnapshot debug a (serveRounds debug a crawls rounds) := by
  intro earlier first later heq q hq hpage p hp
  obtain ⟨before, r, rest, rfl, rfl⟩ := serveRounds_eq_append heq
  have hnodup : (r.queries.map ResourceQuery.resourceId).Nodup := by
    cases hreply : (answer debug a before r).reply with
    | error e =>
      rw [hreply] at hp
      cases hp
    | ok body => exact (reply_eq_ok hreply).1
  obtain ⟨w, start, crawl, budget, page, hw, hstart, hfor, -, hreply, -, hafter⟩ :=
    pageFor_answer hq hp
  rw [hpage] at hstart
  cases hstart
  obtain ⟨hclock, hsync⟩ := crawlFor_none hfor
  refine ⟨w, crawl, hw, hclock, hsync, ?_, fun hfollows => ?_⟩
  · refine fromCrawl_answer (fun q' hq' heq' => ?_) fun w' start crawl' hw' hstart' hfor' => ?_
    · rw [List.inj_on_of_nodup_map hnodup hq' hq heq', hpage]
    · cases hstart'
      cases hw.symm.trans hw'
      have hboth := hfor.symm.trans hfor'
      cases hboth
      rfl
  · rw [← hreply] at hfollows ⊢
    cases hdrained : page.next with
    | none =>
      rw [show page.reply.next = none by simp [Page.reply, hdrained]]
      exact allFrom_none _
    | some c =>
      have hnext : page.reply.next = some (.cursor c.encode) := by simp [Page.reply, hdrained]
      rw [hnext] at hfollows ⊢
      rw [hdrained] at hafter
      refine allFrom_of_follows rest hafter c.encode (fun s hs => hkept s ?_) hfollows
      rw [heq]
      exact List.mem_append_right _ (List.mem_cons_of_mem _ hs)

/-- A request among those of a process, with the crawls it found in hand. -/
lemma mem_serveRounds {s : Served} (h : s ∈ serveRounds debug a crawls rounds) :
    s = answer debug a s.before s.round := by
  obtain ⟨earlier, later, heq⟩ := List.append_of_mem h
  obtain ⟨before, r, rest, rfl, -⟩ := serveRounds_eq_append heq
  rfl

/-- **One crawl is one snapshot**, also across failed requests, in exactly the runs in which no
request spoils a crawl.

**Proof sketch.** A request spoils a crawl exactly when it is answered with `err` and does not leave
the crawls as they were (`spoils_iff`), and as long as every failed request leaves them so, a crawl
that a client follows stays in hand (`oneSnapshot_of_kept`). -/
theorem snapshot_law_iff (debug : String → String) (a : Adapter) (rounds : List Round) :
    SnapshotLaw debug a rounds ↔ ∀ s ∈ serveRounds debug a (fun _ => none) rounds,
      ¬ Spoils debug a s.before s.round := by
  have hiff (s : Served) (hs : s ∈ serveRounds debug a (fun _ => none) rounds) :
      (∀ e, s.reply = .error e → s.after = s.before) ↔ ¬ Spoils debug a s.before s.round := by
    rw [spoils_iff, ← mem_serveRounds hs]
    constructor
    · rintro hkept ⟨⟨e, he⟩, hne⟩
      exact hne (hkept e he)
    · intro h e he
      by_contra hne
      exact h ⟨⟨e, he⟩, hne⟩
  constructor
  · intro h s hs
    exact (hiff s hs).mp (h.2 s hs)
  · intro h
    have hkept : KeptOnErr (serveRounds debug a (fun _ => none) rounds) :=
      fun s hs => (hiff s hs).mpr (h s hs)
    exact ⟨oneSnapshot_of_kept hkept, hkept⟩

end Rounds

/-! ### A spoiled run -/

section Example

/-- The debug text of a string with nothing to escape. -/
def quotes (s : String) : String := "\"" ++ s ++ "\""

/-- A transaction that waits in the mempool. -/
def waitingTx : Tx where
  txid := "0000000000000000000000000000000000000000000000000000000000000000"
  fee := 0
  status := ⟨false, none, none, none⟩
  vin := []
  vout := []
  vin_lt := length_nil_lt
  vout_lt := length_nil_lt

/-- A wallet of one address. -/
def savings : Wallet := ⟨"w", ["a"], "h", by decide⟩

/-- An adapter with one wallet. -/
def savingsAdapter : Adapter := ⟨[savings], "https://esplora"⟩

/-- A provider that lists one transaction, at a given second. -/
def waiting (now : ℤ) : Responses where
  addressChain _ := .ok []
  addressMempool _ := .ok [waitingTx]
  addressStats _ := .ok ⟨⟨0, 0⟩, ⟨0, 0⟩⟩
  now := now

/-- A resource whose name alone uses up the budget of a reply. -/
@[irreducible]
def longName : String := String.ofList (List.replicate 1048000 'a')

/-- Starts a crawl whose first page has no room for anything. -/
def firstRound : Round := ⟨1, [⟨"w", none⟩, ⟨longName, none⟩], fun _ => waiting 0⟩

/-- Drains the crawl, and fails at the cursor of another resource. -/
def failedRound : Round :=
  ⟨2, [⟨"w", some (.cursor "0:")⟩, ⟨"x", some (.cursor "later")⟩], fun _ => waiting 1⟩

/-- Asks for the same page again. -/
def retriedRound : Round := ⟨3, [⟨"w", some (.cursor "0:")⟩], fun _ => waiting 2⟩

/-- The crawl that the first request starts. -/
def firstCrawls : Crawls :=
  match startCrawl (waiting 0) savings with
  | .ok (.ok crawl) => Function.update (fun _ => none) "w" (some crawl)
  | .ok (.error _) => fun _ => none
  | .error _ => fun _ => none

/-- The failed request, as it finds the crawls. -/
@[irreducible]
def failedServed : Served := answer quotes savingsAdapter firstCrawls failedRound

/-- The retried request. -/
@[irreducible]
def retriedServed : Served := answer quotes savingsAdapter failedServed.after retriedRound

/-- The name is as long as it says. -/
lemma textSize_longName : textSize longName = 1048000 + 2 := by
  unfold longName
  exact textSize_replicate 1048000

/-- The name is not that of the wallet. -/
lemma longName_ne : longName ≠ "w" := by
  intro h
  have hsize := textSize_longName
  rw [h] at hsize
  exact absurd hsize (by decide)

/-- What an entry of a status without evidence takes. -/
lemma size_fetched (resourceId : String) :
    (status resourceId (.fetched true)).toJson.size = textSize resourceId + 58 := by
  have hkeys : textSize "resource_id" = 13 ∧ textSize "outcome" = 9 ∧
      (outcomeJson (.fetched true)).size = 31 := by decide
  simp [status, StatusEntry.toJson, degradedMember, Wire.optional, Json.size, membersSize, hkeys]
  omega

/-- What an entry of an unknown resource takes. -/
lemma size_unknownResource (resourceId : String) :
    (unknownResource resourceId).toJson.size = textSize resourceId + 155 := by
  have hkeys : textSize "resource_id" = 13 ∧ textSize "outcome" = 9 ∧
      (outcomeJson .notFetched).size = 13 ∧ textSize "provider_detail" = 17 := by decide
  have hdetail : (ProviderDetail.mk "unknown_resource"
      "no wallet with this resource_id is configured" .null).toJson.size = 96 := by decide
  simp [unknownResource, StatusEntry.withDetail, status, StatusEntry.toJson, degradedMember,
    Wire.optional, Json.size, membersSize, hkeys, hdetail]
  omega

/-- The adapter of the example has the wallet under its name. -/
lemma lookup_savings : savingsAdapter.lookup "w" = some savings := by
  simp [Adapter.lookup, savingsAdapter, savings]

/-- A query for a resource without a wallet is served with the entry that says so. -/
lemma serveQuery_unknown {debug : String → String} {a : Adapter} {world : String → Responses}
    {s : Reading} {resourceId : String} (h : a.lookup resourceId = none) :
    serveQuery debug a world s ⟨resourceId, none⟩ = .ok (s.push (unknownResource resourceId)) := by
  simp only [serveQuery, startOf, h]

/-- A budget of which nothing is left. -/
lemma budget_eq_zero {b : Budget} (h : b.left = 0) : b = ⟨0⟩ := by
  cases b
  cases h
  rfl

/-- A long name leaves nothing of the budget. -/
lemma reserve_pair (first : String) {second : String} (h : 1048000 ≤ textSize second) :
    Budget.new.reserve [first, second] = ⟨0⟩ := by
  refine budget_eq_zero ?_
  simp only [Budget.reserve, List.foldl_cons, List.foldl_nil, Budget.spend, Budget.new, statusBytes,
    size_fetched, MAX_FRAME_BYTES, ENVELOPE_BYTES, PAGE_REPLY_BYTES]
  omega

/-- What a reply with two entries takes, the second of an unknown resource. -/
lemma size_replyJson (entry : StatusEntry) (resourceId : String) :
    (replyJson 1 (.ok ⟨[], [entry, unknownResource resourceId]⟩)).size =
      entry.toJson.size + textSize resourceId + 203 := by
  have hkeys : textSize "id" = 4 ∧ textSize "ok" = 4 ∧ textSize "observations" = 14 ∧
      textSize "statuses" = 10 ∧ (Json.nat (1 : U64).val).size = 1 := by decide
  simp only [replyJson, HistoryReply.toJson, List.map_nil, List.map_cons, Json.size, membersSize,
    itemsSize, hkeys, size_unknownResource, List.length_cons, List.length_nil]
  omega

/-- The first turn of the first request, when nothing is left of the budget. -/
def firstTurn : Except Failure Reading :=
  serveQuery quotes savingsAdapter (fun _ => waiting 0) ⟨fun _ => none, [], [], false, ⟨0⟩⟩
    ⟨"w", none⟩

/-- Whether a turn has made nothing of the reply but a small empty page, with the cursor of the
start. -/
def OnlyCursor : Except Failure Reading → Bool
  | .error _ => false
  | .ok s => s.observations.isEmpty &&
    match s.statuses with
    | [entry] => entry.resourceId == "w" && decide (entry.toJson.size ≤ 200) &&
      match entry.page with
      | some p => p.next == some (.cursor "0:")
      | none => false
    | _ => false

/-- What the first turn makes of the reply: an empty page, and a cursor to go on from.

**Proof sketch.** The turn is evaluated down to what the reply has of it: no observation and one
entry with a page and a cursor. That its crawl is the one a new crawl starts follows from the branch
of the turn that serves a page. -/
lemma firstTurn_spec : ∃ s entry p, firstTurn = .ok s ∧ s.observations = [] ∧
    s.statuses = [entry] ∧ entry.resourceId = "w" ∧ entry.page = some p ∧
    p.next = some (.cursor "0:") ∧ entry.toJson.size ≤ 200 ∧ s.crawls = firstCrawls := by
  have heval : OnlyCursor firstTurn = true := by decide +kernel
  unfold OnlyCursor at heval
  split at heval
  · cases heval
  rename_i s hs
  rw [Bool.and_eq_true] at heval
  obtain ⟨hobs, heval⟩ := heval
  split at heval
  swap
  · cases heval
  rename_i entry hentry
  rw [Bool.and_eq_true, Bool.and_eq_true] at heval
  obtain ⟨⟨hid, hsize⟩, heval⟩ := heval
  split at heval
  swap
  · cases heval
  rename_i p hp
  refine ⟨s, entry, p, hs, by simpa using hobs, hentry, by simpa using hid, hp,
    by simpa using heval, by simpa using hsize, ?_⟩
  rcases serveQuery_eq_ok hs with ⟨entry', abandoned, -, hnone, rfl⟩ |
      ⟨w, start, crawl, page, hpaged, hpage, rfl⟩
  · cases hentry
    exact absurd (hnone.symm.trans hp) (by simp)
  · have hcrawl : startCrawl (waiting 0) savings = .ok (.ok crawl) := by
      obtain rfl := Option.some.inj (lookup_savings.symm.trans hpaged.wallet)
      obtain rfl : none = start := Except.ok.inj hpaged.cursor
      exact hpaged.crawl
    have hnext : page.next.isNone = false := by
      obtain rfl : page.entry "w" = entry := (List.cons.inj hentry).1
      obtain rfl := Option.some.inj hp
      cases hdrained : page.next with
      | none => simp [Page.reply, hdrained] at heval
      | some c => rfl
    rw [Reading.crawls_paged, hnext, firstCrawls, hcrawl]
    rfl

/-- The first request: an empty page, and the crawl stays in hand.

**Proof sketch.** The loop makes the first turn (`firstTurn_spec`), and the second one finds no
wallet of that name and pushes its entry. The reply of both is within a frame, since the entry of
the first is small and the name of the second leaves room for it, so it goes out as it is. -/
lemma first_served : ∃ p, pageFor (answer quotes savingsAdapter (fun _ => none) firstRound).reply
      "w" = some p ∧ p.next = some (.cursor "0:") ∧
    (answer quotes savingsAdapter (fun _ => none) firstRound).after = firstCrawls := by
  obtain ⟨s, entry, p, hs, hobs, hstatuses, hid, hpage, hnext, hsize, hcrawls⟩ := firstTurn_spec
  have hnodup : (firstRound.queries.map ResourceQuery.resourceId).Nodup := by
    simp [firstRound, longName_ne.symm]
  have hbudget : Reading.start (fun _ => none) firstRound.queries =
      ⟨fun _ => none, [], [], false, ⟨0⟩⟩ := by
    have hleft : Budget.new.reserve ["w", longName] = ⟨0⟩ :=
      reserve_pair "w" (textSize_longName ▸ Nat.le_add_right _ _)
    simp only [Reading.start, firstRound, List.map_cons, List.map_nil, Reading.mk.injEq, true_and]
    exact hleft
  have hlookup : savingsAdapter.lookup longName = none := by
    simp [Adapter.lookup, savingsAdapter, savings, longName_ne.symm]
  have hlast : serveQuery quotes savingsAdapter (fun _ => waiting 0) s ⟨longName, none⟩ =
      .ok (s.push (unknownResource longName)) := serveQuery_unknown hlookup
  have hloop : loopOf quotes savingsAdapter (fun _ => none) firstRound =
      .ok (s.push (unknownResource longName)) := by
    rw [loopOf, hbudget]
    exact foldlM_cons_eq_ok.mpr ⟨s, hs, foldlM_cons_eq_ok.mpr ⟨_, hlast, rfl⟩⟩
  have hfits : (replyJson 1 (.ok ⟨s.observations, s.statuses ++ [unknownResource longName]⟩)).size ≤
      MAX_FRAME_BYTES := by
    rw [hobs, hstatuses, List.cons_append, List.nil_append, size_replyJson, textSize_longName,
      MAX_FRAME_BYTES]
    omega
  have hreply : (answer quotes savingsAdapter (fun _ => none) firstRound).reply =
      .ok ⟨s.observations, s.statuses ++ [unknownResource longName]⟩ := by
    rw [reply_answer hnodup hloop]
    exact if_neg (not_lt.mpr hfits)
  refine ⟨p, ?_, hnext, ?_⟩
  · rw [hreply, pageFor, hstatuses]
    simp [hid, hpage]
  · rw [after_answer hnodup, hloop]
    exact hcrawls

/-- What is kept with an answer is the request that it answers. -/
lemma round_answer {debug : String → String} {a : Adapter} {crawls : Crawls} {r : Round} :
    (answer debug a crawls r).round = r := rfl

/-- What following means for one request more. -/
lemma follows_cons {resourceId : String} {asked : PageRequest} {s : Served} {rest : List Served} :
    Follows resourceId (some asked) (s :: rest) ↔
      (∀ q ∈ s.round.queries, q.resourceId = resourceId → q.page = some asked) ∧
        Follows resourceId (nextAsk resourceId asked s.reply) rest := Iff.rfl

/-- What is promised of one request more. -/
lemma allFrom_cons {debug : String → String} {a : Adapter} {resourceId : String} {crawl : Crawl}
    {asked : PageRequest} {s : Served} {rest : List Served} :
    AllFrom debug a resourceId crawl (some asked) (s :: rest) ↔
      FromCrawl debug a resourceId crawl (some asked) s.reply ∧
        AllFrom debug a resourceId crawl (nextAsk resourceId asked s.reply) rest := Iff.rfl

/-- The failed request: it drops the crawl and is answered with `err`. -/
lemma failed_served : (∃ e, failedServed.reply = .error e) ∧ failedServed.after "w" = none ∧
    firstCrawls "w" ≠ none := by
  have heval : ((match failedServed.reply with
      | .error _ => true
      | .ok _ => false) && (failedServed.after "w").isNone && (firstCrawls "w").isSome) = true := by
    decide +kernel
  rw [Bool.and_eq_true, Bool.and_eq_true] at heval
  obtain ⟨⟨herr, hnone⟩, hsome⟩ := heval
  refine ⟨?_, Option.isNone_iff_eq_none.mp hnone, fun h => by simp [h] at hsome⟩
  cases hreply : failedServed.reply with
  | error e => exact ⟨e, rfl⟩
  | ok body => simp [hreply] at herr

/-- The retried request: a page with an observation of another instant. -/
lemma retried_served : ∃ p, pageFor retriedServed.reply "w" = some p ∧
    ∃ o ∈ observationsFor retriedServed.reply "w",
      o.provenance.observedAt.text ≠ "1970-01-01T00:00:00Z" := by
  have heval : ((pageFor retriedServed.reply "w").isSome &&
      (observationsFor retriedServed.reply "w").any fun o =>
        o.provenance.observedAt.text != "1970-01-01T00:00:00Z") = true := by decide +kernel
  rw [Bool.and_eq_true, List.any_eq_true] at heval
  obtain ⟨hpage, o, ho, hne⟩ := heval
  obtain ⟨p, hp⟩ := Option.isSome_iff_exists.mp hpage
  exact ⟨p, hp, o, ho, by simpa using hne⟩

/-- **Pages of one crawl from two snapshots.** A request drains a crawl and then fails at the
cursor of another resource, so that the retry of its page finds no crawl in hand and fetches
another one.

**Proof sketch.** The three requests are run. The first one serves a page with a cursor and keeps
its crawl in hand; the second drains the crawl and is answered with an error at the other resource,
so the crawl is gone although the client saw no page; the third one, with the same cursor, fetches
again, at another time. If all pages were cut from one crawl, the records of the third would carry
the time of the first, which they do not. And the error of the second request did not keep what was
in hand before it. -/
theorem snapshot_law_spoiled :
    let served := serveRounds quotes savingsAdapter (fun _ => none)
      [firstRound, failedRound, retriedRound]
    ¬ OneSnapshot quotes savingsAdapter served ∧ ¬ KeptOnErr served := by
  obtain ⟨p, hp, hnext, hafter⟩ := first_served
  obtain ⟨⟨e, he⟩, hnone, hsome⟩ := failed_served
  obtain ⟨p', hp', o, ho, hne⟩ := retried_served
  have hserved : serveRounds quotes savingsAdapter (fun _ => none)
      [firstRound, failedRound, retriedRound] =
        [answer quotes savingsAdapter (fun _ => none) firstRound, failedServed, retriedServed] := by
    simp only [serveRounds, hafter, failedServed, retriedServed]
  have hsame : nextAsk "w" (.cursor "0:") failedServed.reply = some (.cursor "0:") := by
    rw [he]
    rfl
  have hasked : Follows "w" p.next [failedServed, retriedServed] := by
    rw [hnext, follows_cons, hsame, follows_cons]
    refine ⟨?_, ?_, ?_⟩
    · intro q hq heq
      rw [failedServed, round_answer] at hq
      rcases List.mem_pair.mp hq with rfl | rfl
      · rfl
      · exact absurd heq (by decide)
    · intro q hq _
      rw [retriedServed, round_answer] at hq
      rw [List.mem_singleton.mp hq]
    · generalize nextAsk "w" (.cursor "0:") retriedServed.reply = asked
      cases asked <;> exact trivial
  have hclock {t : Rfc3339} (ht : observedAt (waiting 0) = .ok t) :
      t.text = "1970-01-01T00:00:00Z" := by
    have heval : (match observedAt (waiting 0) with
        | .error _ => false
        | .ok t => t.text == "1970-01-01T00:00:00Z") = true := by decide +kernel
    rw [ht] at heval
    simpa using heval
  simp only [hserved]
  refine ⟨fun hlaw => ?_, fun hkept => ?_⟩
  · have hmem : (⟨"w", none⟩ : ResourceQuery) ∈
        (answer quotes savingsAdapter (fun _ => none) firstRound).round.queries := by
      rw [round_answer]
      exact List.mem_cons_self
    obtain ⟨w, crawl, -, hcrawl, -, -, hfrom⟩ := hlaw [] _ _ rfl ⟨"w", none⟩ hmem rfl p hp
    have hall := hfrom hasked
    rw [hnext, allFrom_cons, hsame, allFrom_cons] at hall
    obtain ⟨_, _, _, _, -, -, -, -, -, hinstant⟩ := hall.2.1 p' hp'
    exact hne ((congrArg Rfc3339.text (hinstant o ho)).trans (hclock hcrawl))
  · have hkeep := hkept failedServed (by simp) e he
    have hbefore : failedServed.before = firstCrawls := by
      rw [failedServed]
      rfl
    rw [hbefore] at hkeep
    exact hsome ((congrFun hkeep "w").symm.trans hnone)

end Example

end Sumer.Bitcoin
