import Sumer.Bitcoin.Delivery
import Sumer.Bitcoin.Restart
import Sumer.Store.Revival

set_option relaxedAutoImplicit false
set_option autoImplicit false

/-!
# The store and the wallet

A sweep of the store (`core/store/src/sweep.rs`) whose pages come, through the host
(`core/host/src/lib.rs`), from this adapter (`adapters/bitcoin/src/main.rs`). The sweep asks for
one page after the other, each time for the one that the page before named; the adapter may be
restarted between any two of them. When the sweep is complete, it has taken exactly the records
that the wallet's history is mapped to, and of the others none is left that is live.

## Main definitions

* `Sumer.Mirror.Feeds`: the replies of a sweep are what the host has of the adapter's replies.
* `Sumer.Mirror.Mirrored`: a history that a sweep has read to its end.

## Main results

* `Sumer.Mirror.Feeds.reads`: a sweep reads the history of the wallet to its end.
* `Sumer.Mirror.events_of_complete`: what a complete sweep was told.
* `Sumer.Mirror.sweep_mirrors`: a complete sweep mirrors the wallet.
-/

namespace Sumer.Mirror

open Sumer.Wire Sumer.Host

/-- The events of a sweep that is at a page: it asks the adapter for this page, and what the host
has of the reply is what the sweep is told. The connection's verdict may change at any time, and a
call may fail without the adapter. -/
inductive Feeds (resourceId : String) :
    Option PageRequest → List Bitcoin.Served → List Store.Event → Prop
  | done (asked : Option PageRequest) : Feeds resourceId asked [] []
  | failed (asked : Option PageRequest) (served : List Bitcoin.Served) (e : HostError)
      (fault : Bool) (events : List Store.Event) :
      Feeds resourceId asked served (.reply (.error e) fault :: events)
  | violation {asked : Option PageRequest} {served : List Bitcoin.Served}
      {events : List Store.Event} (kind : ProtocolViolationKind)
      (h : Feeds resourceId asked served events) :
      Feeds resourceId asked served (.violation kind :: events)
  | reply {asked : Option PageRequest} {s : Bitcoin.Served} {served : List Bitcoin.Served}
      {events : List Store.Event} (receivedAt : Rfc3339) (fault : Bool)
      (hasked : s.round.queries = [⟨resourceId, asked⟩])
      (h : Feeds resourceId ((Bitcoin.pageFor s.reply resourceId).bind fun p => p.next)
        served events) :
      Feeds resourceId asked (s :: served)
        (.reply (Bitcoin.receivedOf receivedAt s.reply) fault :: events)

/-- A reply with a page of the sweep's resource, as the sweep has it. -/
def Arrived (input : Store.SweepInput) (s : Bitcoin.Served) (read : HistoryRead) : Prop :=
  ∃ asked receivedAt p, s.round.queries = [⟨input.resourceId, asked⟩] ∧
    Bitcoin.receivedOf receivedAt s.reply = .ok read ∧
    Bitcoin.pageFor s.reply input.resourceId = some p

/-- What a sweep has of the rounds it was served in: their history is read to its end, what is kept
of the replies is what the rounds' pages carry, and every reply is one round's. -/
structure Mirrored (input : Store.SweepInput) (asked : Option PageRequest)
    (front : List Bitcoin.Served) (reads : List HistoryRead) : Prop where
  read : Bitcoin.Reads input.resourceId asked front none
  kept : (Store.allKept input reads).map Observation.authored =
    Bitcoin.receivedFor input.resourceId front
  arrived : ∀ read ∈ reads, ∃ s ∈ front, Arrived input s read

/-- The local ids of all transactions that a wallet's history has. -/
def listed (w : Bitcoin.Wallet) (snapshot : Bitcoin.Snapshot) : List String :=
  snapshot.txs.map fun tx => Bitcoin.localId w.resourceId tx.txid

section Pages

variable {debug : String → String} {a : Bitcoin.Adapter} {input : Store.SweepInput}
  {s : Bitcoin.Served} {read : HistoryRead} {receivedAt : Rfc3339}

/-- **A page of a sweep** is a page of the adapter: its status, and its records.

**Proof sketch.** The reply is what the loop left, which the host can read: its entries are taken
over one by one, so the status of the resource is found at the same place, and its records are all
kept, since they are of the adapter and within the size. -/
lemma page_of_reply (hs : s = Bitcoin.answer debug a s.before s.round)
    (hadapter : input.adapterId = "sumer-bitcoin")
    (hread : Bitcoin.receivedOf receivedAt s.reply = .ok read) :
    Store.pageReply input read =
        (Bitcoin.pageFor s.reply input.resourceId).map Bitcoin.PageReply.toPageReply ∧
      (Store.pageKept input read).map Observation.authored =
        Bitcoin.observationsFor s.reply input.resourceId := by
  cases hreply : s.reply with
  | error e =>
    rw [hreply] at hread
    cases hread
  | ok reply =>
    rw [hreply] at hread
    cases hread
    have hhistory : (Bitcoin.historyRead debug a s.round.world s.before s.round.queries).2 =
        .ok reply := by
      rw [hs, Bitcoin.answer, Bitcoin.writeReply] at hreply
      dsimp only at hreply
      split_ifs at hreply
      exact hreply
    obtain ⟨-, t, ht, rfl⟩ := Bitcoin.exists_loop hhistory
    have hreadable := Bitcoin.readable_of_loop ht
    constructor
    · rw [Store.pageReply, Store.statusFor, List.find?_map, Bitcoin.pageFor]
      have hsame : ((fun status : ResourceStatus => status.resourceId == input.resourceId) ∘
          Bitcoin.StatusEntry.received) = fun e => e.resourceId == input.resourceId := rfl
      rw [hsame]
      cases t.statuses.find? fun e => e.resourceId == input.resourceId <;> rfl
    · rw [Store.pageKept, Store.keptObservations, List.filter_map, List.map_map,
        Bitcoin.observationsFor]
      have hid : (Observation.authored ∘ fun o => Observation.stamp o receivedAt .live) = id := rfl
      rw [hid, List.map_id]
      refine List.filter_congr fun o ho => ?_
      have hown : (Observation.stamp o receivedAt .live).provenance.adapterId = input.adapterId :=
        (hreadable.own o ho).trans hadapter.symm
      simp [hown]
      rfl

/-- The page that the sweep asks for next is the one that the adapter's page names; a reply without
a page, or with a last one, names none. -/
lemma pageNext_of_reply (hs : s = Bitcoin.answer debug a s.before s.round)
    (hadapter : input.adapterId = "sumer-bitcoin")
    (hread : Bitcoin.receivedOf receivedAt s.reply = .ok read) :
    Store.pageNext input read =
      (Bitcoin.pageFor s.reply input.resourceId).bind fun p => p.next := by
  rw [Store.pageNext, (page_of_reply hs hadapter hread).1]
  cases Bitcoin.pageFor s.reply input.resourceId <;> rfl

/-- A round that asked for one page of one resource asked for that page. -/
lemma page_of_asked {asked : Option PageRequest}
    (hasked : s.round.queries = [⟨input.resourceId, asked⟩]) :
    ∀ q ∈ s.round.queries, q.resourceId = input.resourceId → q.page = asked := by
  rw [hasked]
  rintro q hq -
  rw [List.mem_singleton.mp hq]

/-- The round of a last page is all of the history that is left. -/
lemma Mirrored.last {asked : Option PageRequest}
    (hs : s = Bitcoin.answer debug a s.before s.round)
    (hadapter : input.adapterId = "sumer-bitcoin")
    (hasked : s.round.queries = [⟨input.resourceId, asked⟩])
    (hread : Bitcoin.receivedOf receivedAt s.reply = .ok read)
    (hlast : Store.pageNext input read = none)
    (hpage : (Store.pageReply input read).isSome = true) :
    Mirrored input asked [s] [read] := by
  have hnext := pageNext_of_reply hs hadapter hread
  obtain ⟨hpage', hkept⟩ := page_of_reply hs hadapter hread
  rw [hpage', Option.isSome_map] at hpage
  obtain ⟨p, hp⟩ := Option.isSome_iff_exists.mp hpage
  rw [hlast, hp] at hnext
  refine ⟨.drained (page_of_asked hasked) hp hnext.symm, ?_, fun read' hread' => ?_⟩
  · simp [Store.allKept, hkept, Bitcoin.receivedFor]
  · obtain rfl : read' = read := List.mem_singleton.mp hread'
    exact ⟨s, List.mem_singleton_self s, asked, receivedAt, p, hasked, hread, hp⟩

/-- A round whose page named another one stands before the rounds of the rest. -/
lemma Mirrored.cons {asked : Option PageRequest} {front : List Bitcoin.Served}
    {reads : List HistoryRead} {next : PageRequest}
    (hs : s = Bitcoin.answer debug a s.before s.round)
    (hadapter : input.adapterId = "sumer-bitcoin")
    (hasked : s.round.queries = [⟨input.resourceId, asked⟩])
    (hread : Bitcoin.receivedOf receivedAt s.reply = .ok read)
    (hnext : Store.pageNext input read = some next)
    (h : Mirrored input (some next) front reads) :
    Mirrored input asked (s :: front) (read :: reads) := by
  have hnext' := (pageNext_of_reply hs hadapter hread).symm.trans hnext
  obtain ⟨p, hp, hpnext⟩ := Option.bind_eq_some_iff.mp hnext'
  refine ⟨.page (page_of_asked hasked) hp hpnext h.read, ?_, fun read' hread' => ?_⟩
  · rw [Store.allKept, List.flatMap_cons, List.map_append, (page_of_reply hs hadapter hread).2]
    exact congrArg (Bitcoin.observationsFor s.reply input.resourceId ++ ·) h.kept
  · rcases List.mem_cons.mp hread' with rfl | hread'
    · exact ⟨s, List.mem_cons_self, asked, receivedAt, p, hasked, hread, hp⟩
    · obtain ⟨s', hs', harrived⟩ := h.arrived read' hread'
      exact ⟨s', List.mem_cons_of_mem _ hs', harrived⟩

/-- **The sweep reads the history to its end**, when its last page comes after pages that each named
another one.

**Proof sketch.** Induction on how the events feed the sweep. A call that failed is no page with a
next one, so it does not stand before the last page; a violation carries no reply and is passed
over. A reply is either the last page, and its round is all of the history that is left
(`Mirrored.last`), or it names the page that the next round asks for, and its round is put before
those of the rest (`Mirrored.cons`). -/
lemma Feeds.reads {asked : Option PageRequest} {served : List Bitcoin.Served}
    {events before rest : List Store.Event} {last : HistoryRead} {fault : Bool}
    (h : Feeds input.resourceId asked served events)
    (hserved : ∀ s ∈ served, s = Bitcoin.answer debug a s.before s.round)
    (hadapter : input.adapterId = "sumer-bitcoin")
    (hevents : events = before ++ .reply (.ok last) fault :: rest)
    (hmiddle : ∀ answer fault, Store.Event.reply answer fault ∈ before →
      ∃ read, answer = .ok read ∧ (Store.pageNext input read).isSome = true)
    (hlast : Store.pageNext input last = none)
    (hpage : (Store.pageReply input last).isSome = true) :
    ∃ front back, served = front ++ back ∧
      Mirrored input asked front (Store.repliesOf before ++ [last]) := by
  induction h generalizing before with
  | done asked =>
    cases before <;> cases hevents
  | failed asked served e fault' events =>
    cases before with
    | nil => cases hevents
    | cons first before =>
      obtain ⟨rfl, -⟩ := List.cons.inj hevents
      obtain ⟨read, hread, -⟩ := hmiddle _ _ List.mem_cons_self
      cases hread
  | violation kind h ih =>
    cases before with
    | nil => cases hevents
    | cons first before =>
      obtain ⟨rfl, hrest⟩ := List.cons.inj hevents
      have hmiddle' (answer : Except HostError HistoryRead) (fault : Bool)
          (hmem : .reply answer fault ∈ before) :=
        hmiddle answer fault (List.mem_cons_of_mem _ hmem)
      have hread := ih hserved hrest hmiddle'
      exact hread
  | @reply asked s served events receivedAt fault' hasked h ih =>
    have hs := hserved s List.mem_cons_self
    cases before with
    | nil =>
      obtain ⟨hread, -⟩ := List.cons.inj hevents
      injection hread with hread
      exact ⟨[s], served, rfl, .last hs hadapter hasked hread hlast hpage⟩
    | cons first before =>
      obtain ⟨hfirst, hrest⟩ := List.cons.inj hevents
      obtain ⟨read, hread, hsome⟩ := hmiddle (Bitcoin.receivedOf receivedAt s.reply) fault'
        (hfirst ▸ List.mem_cons_self)
      obtain ⟨next, hnext⟩ := Option.isSome_iff_exists.mp hsome
      rw [← pageNext_of_reply hs hadapter hread, hnext] at ih
      obtain ⟨front, back, rfl, hmirrored⟩ := ih
        (fun s' hs' => hserved s' (List.mem_cons_of_mem _ hs')) hrest
        fun answer fault hmem => hmiddle answer fault (List.mem_cons_of_mem _ hmem)
      have hreplies : Store.repliesOf (first :: before) = read :: Store.repliesOf before := by
        rw [← hfirst, hread]
        rfl
      refine ⟨s :: front, back, rfl, ?_⟩
      rw [hreplies]
      exact .cons hs hadapter hasked hread hnext hmirrored

end Pages

/-! ### What the wallet lists -/

section Listed

variable {debug : String → String} {a : Bitcoin.Adapter} {w : Bitcoin.Wallet}
  {snapshot : Bitcoin.Snapshot} {ctx : Bitcoin.Ctx} {owned : List String} {tx : Bitcoin.Tx}
  {items : List Bitcoin.Item} {i : Bitcoin.Item} {o : ObservationWire}

/-- What is emitted of an item has its id and its state. -/
lemma kept_identity (h : Bitcoin.kept i = some o) :
    o.localId = i.2.localId ∧ o.state = i.2.state := by
  unfold Bitcoin.kept Bitcoin.degrade at h
  dsimp only at h
  split_ifs at h <;> cases h <;> exact ⟨rfl, rfl⟩

/-- **The items of a plan** are transactions of the wallet. -/
lemma item_listed (hmapped : Bitcoin.Mapped ctx owned snapshot.txs) {start : Option Bitcoin.Cursor}
    {p : Bitcoin.Plan} (h : Bitcoin.plan ctx snapshot.toChain owned start = .ok p)
    (hi : i ∈ p.items) :
    ∃ tx ∈ snapshot.txs, i.1 = tx.key ∧
      i.2.localId = Bitcoin.localId ctx.resourceId tx.txid ∧ i.2.state = .active := by
  obtain ⟨items, hplan, -, hmem⟩ := Bitcoin.plan_spec ctx owned snapshot hmapped start
  obtain rfl := Except.ok.inj (h.symm.trans hplan)
  obtain ⟨tx, htx, -, hitem⟩ := (hmem i).mp hi
  obtain ⟨o, ho⟩ := hmapped tx htx
  have hpair : some (tx.key, o) = some i := by rw [← hitem, Bitcoin.itemOf, ho]; rfl
  obtain rfl := Option.some.inj hpair
  obtain ⟨-, -, -, -, hid, hstate⟩ := Bitcoin.active_fields ho
  exact ⟨tx, htx, rfl, hid, hstate⟩

/-- A wallet gives each of its transactions an id of its own. -/
lemma tx_of_localId {tx' : Bitcoin.Tx} {resourceId : String} (htx : tx ∈ snapshot.txs)
    (htx' : tx' ∈ snapshot.txs)
    (h : Bitcoin.localId resourceId tx.txid = Bitcoin.localId resourceId tx'.txid) : tx = tx' := by
  have htxid : tx.txid = tx'.txid := (String.append_right_inj _).mp h
  have hnodup : (snapshot.txs.map Bitcoin.Tx.txid).Nodup := by
    rw [List.Nodup, List.pairwise_map]
    exact snapshot.sorted.imp ne_of_lt
  exact List.inj_on_of_nodup_map hnodup htx htx' htxid

/-- The ids of what a plan emits differ. -/
lemma nodup_kept (hmapped : Bitcoin.Mapped ctx owned snapshot.txs) {p : Bitcoin.Plan}
    (h : Bitcoin.plan ctx snapshot.toChain owned none = .ok p) :
    ((p.items.filterMap Bitcoin.kept).map ObservationWire.localId).Nodup := by
  obtain ⟨items, hplan, hsorted, -⟩ := Bitcoin.plan_spec ctx owned snapshot hmapped none
  obtain rfl := Except.ok.inj (h.symm.trans hplan)
  rw [List.Nodup, List.pairwise_map, List.pairwise_filterMap]
  refine hsorted.imp_of_mem fun {i j} hi hj hlt o ho o' ho' heq => ?_
  obtain ⟨tx, htx, hkey, hid, -⟩ := item_listed hmapped h hi
  obtain ⟨tx', htx', hkey', hid', -⟩ := item_listed hmapped h hj
  have hsame : Bitcoin.localId ctx.resourceId tx.txid =
      Bitcoin.localId ctx.resourceId tx'.txid := by
    rw [← hid, ← hid', ← (kept_identity ho).1, ← (kept_identity ho').1, heq]
  obtain rfl := tx_of_localId htx htx' hsame
  exact absurd (hkey.trans hkey'.symm) hlt.ne

/-- **What a page names as degraded** is in the wallet's history.

**Proof sketch.** A name that is exempt is that of an item of the page that was dropped. The page is
cut from the plan of the crawl the query was served from, whose snapshot is the wallet's, so the
item is planned for a transaction of the snapshot, and its local id is that of the transaction. -/
lemma exempt_listed {input : Store.SweepInput} {s : Bitcoin.Served} {read : HistoryRead}
    {l : String} (hs : s = Bitcoin.answer debug a s.before s.round)
    (hwallet : a.lookup w.resourceId = some w)
    (hunmoved : Bitcoin.Unmoved w.resourceId snapshot s.before)
    (hworld : Bitcoin.Unchanging w snapshot s.round.world)
    (hresource : input.resourceId = w.resourceId) (harrived : Arrived input s read)
    (hl : l ∈ Store.pageExempt input read) : l ∈ listed w snapshot := by
  obtain ⟨asked, receivedAt, p, hqueries, hread, hp⟩ := harrived
  rw [hresource] at hqueries hp
  cases hreply : s.reply with
  | error e =>
    rw [hreply] at hread
    cases hread
  | ok body =>
    rw [hreply] at hread hp
    cases hread
    rw [hs] at hreply
    obtain ⟨w', start, crawl, page, hpaged, hpage, -, rfl⟩ := Bitcoin.reply_alone hqueries hreply hp
    obtain rfl := Option.some.inj (hwallet.symm.trans hpaged.wallet)
    obtain ⟨hchain, -⟩ := hunmoved.crawlFor hworld hpaged.crawl
    have hexempt : Store.pageExempt input ⟨page.observations.map fun o =>
        Observation.stamp o receivedAt .live, [(page.entry w.resourceId).received]⟩ =
        page.degraded.filterMap Degraded.localId := by
      simp [Store.pageExempt, Store.statusFor, hresource, Bitcoin.Page.entry,
        Bitcoin.StatusEntry.received]
    obtain ⟨d, hd, hdl⟩ := List.mem_filterMap.mp (hexempt ▸ hl)
    unfold Bitcoin.Adapter.pageOf at hpage
    split at hpage
    · cases hpage
    rename_i plan hplan
    cases hpage
    obtain ⟨taken, rest, hitems, -, hdegraded, -⟩ := Bitcoin.cutPage_spec plan start _
    rw [hdegraded] at hd
    obtain ⟨i, hi, hdropped⟩ := List.mem_filterMap.mp hd
    have hplanned : i ∈ plan.items := hitems ▸ List.mem_append_left _ hi
    obtain ⟨tx, htx, hactive, -⟩ := Bitcoin.mem_plan hplan hplanned
    obtain ⟨-, -, -, -, hlocal, -⟩ := Bitcoin.active_fields hactive
    have hid := (Bitcoin.dropped_eq_some hdropped).2
    rw [hdl, hlocal] at hid
    obtain rfl := Option.some.inj hid
    exact List.mem_map_of_mem (hchain ▸ htx)

end Listed

/-! ### Complete sweeps -/

section Complete

variable {c : Store.Crates} {db : Store.Db} {input : Store.SweepInput} {script : Store.Script}
  {asked : Option PageRequest}

/-- **The events of a complete sweep**: from the start of history, pages that each name another
one, and then a page that names none.

**Proof sketch.** Only one of the four ends is complete. There, the sweep began at the start of
history and its final page drained it; the events before the final reply were violations, or pages
that committed and named a next one. -/
lemma events_of_complete (hdb : db.Consistent)
    (hasked : Store.startPage c (Store.resumedFrom db input) = .ok asked)
    (hcomplete : (Store.sweepResource c db input script).Complete) :
    asked = none ∧ ∃ before last rest, script.events = before ++ .reply (.ok last) false :: rest ∧
      (Store.sweepResource c db input script).committed = Store.repliesOf before ++ [last] ∧
      (∀ answer fault, Store.Event.reply answer fault ∈ before →
        ∃ read, answer = .ok read ∧ (Store.pageNext input read).isSome = true) ∧
      Store.pageNext input last = none ∧ (Store.pageReply input last).isSome = true := by
  have hwithin : Store.sweepResource c db input script =
      Store.sweepWithin (some Store.MAX_PAGES) c db input script := rfl
  rw [hwithin] at hcomplete ⊢
  rcases Store.sweep_outcome (some Store.MAX_PAGES) c hdb input script with
    ⟨e, h⟩ | ⟨k, db₁, events, hopen, ⟨rest, hrest⟩, hends⟩
  · rw [h] at hcomplete
    obtain ⟨report, hreport, -⟩ := hcomplete
    exact nomatch hreport
  · obtain rfl : k.input = input := hopen.input_eq
    generalize Store.sweepWithin (some Store.MAX_PAGES) c db k.input script = out at *
    cases hends with
    | cut hat hended =>
      obtain ⟨report, hreport, -⟩ := hcomplete
      exact absurd hreport (hended report)
    | early hat reason report hincomplete =>
      exact absurd hcomplete (Store.SweepRun.not_complete rfl hincomplete)
    | partialSweep hat hstatus hlast reason hgate report hincomplete =>
      exact absurd hcomplete (Store.SweepRun.not_complete rfl hincomplete)
    | @complete before s last status hat hstatus hlast hgate report hreport =>
      have hstart : asked = k.startPage := Except.ok.inj (hasked.symm.trans hopen.start)
      refine ⟨hstart.trans hgate.began, before, last, rest, ?_, ?_, ?_, hlast, ?_⟩
      · rw [← hrest, List.append_assoc, List.singleton_append]
      · rw [hat.committed]
      · exact fun answer fault hmem => (hat.clean answer fault hmem).2
      · simpa [Store.pageReply, hstatus] using hgate.drained

/-- One report of a record among reports whose ids differ. -/
lemma reportsOf_eq_singleton {os : List Observation} (hnodup : (os.map Observation.localId).Nodup)
    {o : Observation} (ho : o ∈ os) : Store.reportsOf o.localId os = [o] := by
  refine List.perm_singleton.mp ((List.perm_ext_iff_of_nodup (hnodup.of_map.filter _)
    (List.nodup_singleton o)).mpr fun o' => ?_)
  rw [List.mem_filter, List.mem_singleton, beq_iff_eq]
  constructor
  · rintro ⟨ho', hid⟩
    exact List.inj_on_of_nodup_map hnodup ho' ho hid
  · rintro rfl
    exact ⟨ho, rfl⟩

end Complete

/-- **A complete sweep mirrors the wallet.** The provider's history of a wallet does not change,
and its block times can be written. Processes of the adapter are started one after the other, and a
sweep of the wallet's resource is told what the host has of some of their replies, each to the
request that the sweep had to make next. If the sweep is complete, then what it has taken, over all
processes, is what one plan of the wallet's history emits at any instant, in that order. Such a
record is live after the sweep exactly when the head of its chain gives way to it (for a digest that
tells the head from the record). Of the resource's other records, those that are not in the wallet's
history are live after the sweep only if they were before, and the vantage has moved, or nothing was
taken and no one has confirmed that.

**Proof sketch.** A complete sweep has read from the start of history to a page without a `next`
(`events_of_complete`), so the replies are those of a client (`Feeds.reads`), and such a client is
served the plan (`Reads.delivered_plan`). The ids that the plan emits differ (`nodup_kept`), so
there is one report of each record; and a page names as degraded only what the plan has
(`exempt_listed`). -/
theorem sweep_mirrors (debug : String → String) (a : Bitcoin.Adapter) (w : Bitcoin.Wallet)
    (snapshot : Bitcoin.Snapshot) (processes : List (List Bitcoin.Round)) (now : ℤ) (t : Rfc3339)
    (c : Store.Crates) (actions : List Store.Action) (input : Store.SweepInput)
    (script : Store.Script) (asked : Option PageRequest) (served : List Bitcoin.Served)
    (hwallet : a.lookup w.resourceId = some w) (htimes : Bitcoin.Timed snapshot.txs)
    (hworld : ∀ rounds ∈ processes, ∀ r ∈ rounds, Bitcoin.Unchanging w snapshot r.world)
    (ht : Bitcoin.rfc3339Utc now = .ok t) (hadapter : input.adapterId = "sumer-bitcoin")
    (hresource : input.resourceId = w.resourceId) (hreach : input.historyStart = none)
    (hasked : Store.startPage c (Store.resumedFrom (Store.run c actions) input) = .ok asked)
    (hserved : served.Sublist (Bitcoin.serveProcesses debug a processes))
    (hfeeds : Feeds input.resourceId asked served script.events)
    (hcomplete : (Store.sweepResource c (Store.run c actions) input script).Complete) :
    let db := Store.run c actions
    let out := Store.sweepResource c db input script
    ∃ items, Bitcoin.plan (a.ctx w t) snapshot.toChain w.owned none =
        .ok ⟨items, snapshot.mark⟩ ∧
      (Store.allKept input out.committed).map (fun o => Bitcoin.stampedAt t o.authored) =
        items.filterMap Bitcoin.kept ∧
      (∀ o ∈ Store.allKept input out.committed,
        (∀ head, db.headRow input.adapterId o.localId = some head →
          Store.contentHash c head.observation = Store.contentHash c o →
            Store.hashedFields head.observation = Store.hashedFields o) →
        (out.db.Live input.adapterId input.resourceId o.localId ↔
          Store.GivesWay (db.headRow input.adapterId o.localId) o)) ∧
      ∀ l, l ∉ listed w snapshot →
        (out.db.Live input.adapterId input.resourceId l ↔
          db.Live input.adapterId input.resourceId l ∧
            (db.vantageMoved input ≠ none ∨
              (items.filterMap Bitcoin.kept = [] ∧ input.options.confirmEmpty = false))) := by
  intro db out
  have hdb : db.Consistent := Store.consistent_run c actions
  have hanswers (s : Bitcoin.Served) (hs : s ∈ served) :=
    Bitcoin.of_mem_serveProcesses hwallet hworld (hserved.subset hs)
  obtain ⟨rfl, before, last, rest, hevents, hcommitted, hmiddle, hlast, hpage⟩ :=
    events_of_complete hdb hasked hcomplete
  obtain ⟨front, back, hsplit, hreads, hkept, harrived⟩ := hfeeds.reads
    (fun s hs => (hanswers s hs).1) hadapter hevents hmiddle hlast hpage
  rw [← hcommitted] at hkept harrived
  rw [hresource] at hreads hkept
  have hfront (s : Bitcoin.Served) (hs : s ∈ front) :=
    hanswers s (hsplit ▸ List.mem_append_left _ hs)
  obtain ⟨items, hplan, hdelivered⟩ := hreads.delivered_plan debug hwallet htimes hfront ht
  have hmapped : Bitcoin.Mapped (a.ctx w t) w.owned snapshot.txs := fun tx htx =>
    Bitcoin.active_isOk_iff.mpr (htimes tx htx)
  have htaken : (Store.allKept input out.committed).map
      (fun o => Bitcoin.stampedAt t o.authored) = items.filterMap Bitcoin.kept := by
    rw [← hdelivered.drained rfl, ← hkept, List.map_map]
    rfl
  have hids : Store.allObserved input out.committed =
      (items.filterMap Bitcoin.kept).map ObservationWire.localId := by
    rw [← htaken, List.map_map]
    rfl
  have hnodup : (Store.allObserved input out.committed).Nodup := hids ▸ nodup_kept hmapped hplan
  refine ⟨items, hplan, htaken, ?_, ?_⟩
  · intro o ho hfaithful
    obtain ⟨i, hi, hitem⟩ := List.mem_filterMap.mp (htaken ▸ List.mem_map_of_mem ho)
    obtain ⟨-, -, -, -, hactive⟩ := item_listed hmapped hplan hi
    have hstate : o.state = .active := (kept_identity hitem).2.trans hactive
    have hown : o.resourceId = input.resourceId := by
      obtain ⟨read, -, hread⟩ := Store.mem_allKept.mp ho
      exact (Store.mem_pageKept.mp hread).2.2
    obtain ⟨crawlId, hsame⟩ := Store.sweep_observed (c := c) (some Store.MAX_PAGES) hdb input script
    have hlive := (hsame o.localId (List.mem_map_of_mem ho)).live o.resourceId
    rw [show Store.sweepWithin (some Store.MAX_PAGES) c db input script = out from rfl,
      reportsOf_eq_singleton hnodup ho] at hlive
    rw [← hown, hlive]
    exact Store.Db.live_observe_iff crawlId hdb hstate hfaithful
  · intro l hl
    have hunseen : l ∉ Store.allObserved input out.committed := by
      rw [hids]
      intro hmem
      obtain ⟨o, ho, rfl⟩ := List.mem_map.mp hmem
      obtain ⟨i, hi, hitem⟩ := List.mem_filterMap.mp ho
      obtain ⟨tx, htx, -, hid, -⟩ := item_listed hmapped hplan hi
      rw [(kept_identity hitem).1, hid] at hl
      exact hl (List.mem_map_of_mem htx)
    have hunnamed : l ∉ Store.allExempt input out.committed := by
      intro hmem
      obtain ⟨read, hread, hmem⟩ := List.mem_flatMap.mp hmem
      obtain ⟨s, hs, hpaged⟩ := harrived read hread
      obtain ⟨hanswer, hunmoved, hunchanging⟩ := hfront s hs
      exact hl (exempt_listed hanswer hwallet hunmoved hunchanging hresource hpaged hmem)
    have hempty : Store.allObserved input out.committed = [] ↔
        items.filterMap Bitcoin.kept = [] := by
      rw [hids, List.map_eq_nil_iff]
    have hexcuses : (⟨db, input, out⟩ : Store.Swept).Excuses l ↔ db.vantageMoved input ≠ none ∨
        (items.filterMap Bitcoin.kept = [] ∧ input.options.confirmEmpty = false) := by
      constructor
      · rintro (hmoved | ⟨hnone, hconfirm⟩ | hnamed | ⟨head, -, hout⟩)
        · exact Or.inl hmoved
        · exact Or.inr ⟨hempty.mp hnone, hconfirm⟩
        · exact absurd hnamed hunnamed
        · simp [Store.inReach, hreach] at hout
      · rintro (hmoved | ⟨hnone, hconfirm⟩)
        · exact Or.inl hmoved
        · exact Or.inr (Or.inl ⟨hempty.mpr hnone, hconfirm⟩)
    have hlive := (Store.sweep_unobserved hdb hcomplete hunseen).2 input.resourceId
    exact hlive.trans (and_congr_right fun _ => (forall_prop_of_true rfl).trans hexcuses)

/-- A request for the history of the one wallet there is, from its start. -/
def firstPage : Bitcoin.Round := ⟨0, [⟨"w", none⟩], fun _ => Bitcoin.waiting 0⟩

/-- What the adapter serves. -/
@[irreducible]
def firstServed : Bitcoin.Served :=
  Bitcoin.answer Bitcoin.quotes Bitcoin.savingsAdapter (fun _ => none) firstPage

/-- A sweep of the wallet. -/
def walletSweep : Store.SweepInput :=
  { Store.Sample.sweep "w" "d1" with adapterId := "sumer-bitcoin" }

/-- It is told of one reply. -/
def walletScript : Store.Script where
  now := Bitcoin.receiptDay
  verdict := none
  openFault := false
  events := [.reply (Bitcoin.receivedOf Bitcoin.receiptDay firstServed.reply) false]
  limitFault := false

/-- A payment that the wallet does not list. -/
def strayPayment : Observation :=
  let record := Store.Sample.record "w" "w:stray" "btc_tx" "received 1 sat" .active
    Store.Sample.day₁
  { record with provenance := { record.provenance with adapterId := "sumer-bitcoin" } }

/-- A database that has such a payment. -/
def beforeSweep : List Store.Action :=
  [.write (.upsertAdapter "sumer-bitcoin" []),
    .sweep walletSweep (Store.Sample.script Store.Sample.day₁
      [Store.Sample.page "w" none [strayPayment]])]

/-- The sweep takes what the wallet lists, and of the payment that it does not list nothing is left
that is live.

**Proof sketch.** The sweep is fed with one page of the adapter's process, over tables that have a
record the wallet does not list. The run is evaluated: the record is live before, the sweep is
complete, the vantage stands still and something was taken in. The theorem then gives the snapshot,
the plan, and that of what is not listed nothing stays live. -/
theorem sweep_mirrors_waiting :
    let db := Store.run Store.Sample.crates beforeSweep
    let out := Store.sweepResource Store.Sample.crates db walletSweep walletScript
    db.Live "sumer-bitcoin" "w" "w:stray" ∧ ¬ out.db.Live "sumer-bitcoin" "w" "w:stray" ∧
      ∃ snapshot t items, Bitcoin.sync (Bitcoin.waiting 0) Bitcoin.savings = .ok snapshot ∧
        Bitcoin.plan (Bitcoin.savingsAdapter.ctx Bitcoin.savings t) snapshot.toChain
          Bitcoin.savings.owned none = .ok ⟨items, snapshot.mark⟩ ∧
        (Store.allKept walletSweep out.committed).map
          (fun o => Bitcoin.stampedAt t o.authored) = items.filterMap Bitcoin.kept := by
  intro db out
  obtain ⟨snapshot, hchain, htimes, hunchanging⟩ := Bitcoin.waiting_snapshot
  have hclock : (Bitcoin.rfc3339Utc 0).toOption.isSome = true := by decide +kernel
  obtain ⟨t, ht⟩ := exists_eq_ok_iff.mpr hclock
  have hserved : Bitcoin.serveProcesses Bitcoin.quotes Bitcoin.savingsAdapter [[firstPage]] =
      [firstServed] := by
    unfold firstServed
    rfl
  have hround : firstServed.round.queries = [⟨"w", none⟩] := by
    unfold firstServed
    rfl
  have hfeeds : Feeds "w" none [firstServed] walletScript.events :=
    .reply Bitcoin.receiptDay false hround (.done _)
  have hlive : db.Live "sumer-bitcoin" "w" "w:stray" := by decide +kernel
  have hsame : db.vantageMoved walletSweep = none := by decide +kernel
  have hcomplete : out.Complete := by decide +kernel
  have htaken : Store.allObserved walletSweep out.committed ≠ [] := by decide +kernel
  obtain ⟨items, hplan, hkept, -, hgone⟩ := sweep_mirrors Bitcoin.quotes Bitcoin.savingsAdapter
    Bitcoin.savings snapshot [[firstPage]] 0 t Store.Sample.crates beforeSweep walletSweep
    walletScript none [firstServed] Bitcoin.lookup_savings htimes (by
      intro rounds hrounds r hr
      obtain rfl := List.mem_singleton.mp hrounds
      obtain rfl := List.mem_singleton.mp hr
      exact hunchanging 0) ht rfl rfl rfl rfl (hserved ▸ List.Sublist.refl _) hfeeds hcomplete
  refine ⟨hlive, fun hstill => ?_, snapshot, t, items, hchain, hplan, hkept⟩
  have hstray : "w:stray" ∉ listed Bitcoin.savings snapshot := by
    intro hmem
    obtain ⟨tx, htx, hid⟩ := List.mem_map.mp hmem
    have hsplit : "w:stray" = Bitcoin.localId "w" "stray" := by decide
    have htxid : tx.txid = "stray" := (String.append_right_inj _).mp (hid.trans hsplit)
    exact absurd (htxid ▸ snapshot.txids tx htx) (by decide)
  rcases ((hgone "w:stray" hstray).mp hstill).2 with hmoved | ⟨hnone, -⟩
  · exact hmoved hsame
  · rw [← hkept, List.map_eq_nil_iff] at hnone
    exact htaken (by rw [Store.allObserved, hnone]; rfl)

end Sumer.Mirror
