import Sumer.Wire.Codec
import Sumer.Bitcoin.Cursors
import Sumer.Bitcoin.Wallet

set_option relaxedAutoImplicit false
set_option autoImplicit false

/-!
# The Bitcoin adapter's `history.read`

One adapter process (`adapters/bitcoin/src/main.rs`): the status entries of a reply, its byte
budget, the crawl snapshots that live between two pages, and the loop over the queried resources.
A request that fails leaves behind whatever its loop had made of the snapshots so far, so that a
failure carries them. What the provider answers is given for each request and resource. The
parameters of a request are taken decoded, and `debug` is the standard library's debug text of a
string.

## Main definitions

* `Sumer.Bitcoin.StatusEntry`, `Sumer.Bitcoin.HistoryReply`: what a reply carries.
* `Sumer.Bitcoin.Budget`: one reply's remaining bytes.
* `Sumer.Bitcoin.Crawl`, `Sumer.Bitcoin.serveQuery`, `Sumer.Bitcoin.historyRead`.
* `Sumer.Bitcoin.writeReply`: the reply that goes out.

## Main results

* `Sumer.Bitcoin.serveQuery_eq_ok`, `Sumer.Bitcoin.serveQuery_eq_error`: how one query is served,
  and how it fails.
* `Sumer.Bitcoin.serveAll_same`: the loop leaves alone what it has of a resource that is not asked
  for.
* `Sumer.Bitcoin.serveAll_resourceIds`: one entry for every query, in the order of the request.
-/

namespace Sumer.Bitcoin

open Sumer.Wire Sumer.Money
open Sumer.Host (WireErrorCode)

/-! ### What a reply carries -/

/-- The body of an `err` envelope, with its evidence. -/
structure ErrorBody where
  code : WireErrorCode
  message : String
  detail : Option Json

/-- A page reply, with the fields this adapter populates. -/
structure PageReply extends Wire.PageReply where
  pageSizeReducedTo : Option ℕ

/-- A status entry, with the fields this adapter populates. -/
structure StatusEntry where
  resourceId : String
  outcome : ReadOutcome
  degraded : List Degraded
  providerDetail : Option ProviderDetail
  page : Option PageReply

/-- The body of a `history.read` reply. -/
structure HistoryReply where
  observations : List ObservationWire
  statuses : List StatusEntry

/-- One resource of a `history.read` request. -/
structure ResourceQuery where
  resourceId : String
  page : Option PageRequest

/-! ### As it is serialized -/

/-- The wire spelling of an error code. -/
def codeSpelling : WireErrorCode → String
  | .unsupportedProtocol => "unsupported_protocol"
  | .unsupported => "unsupported"
  | .invalidRequest => "invalid_request"
  | .notReady => "not_ready"
  | .internal => "internal"

/-- The wire spelling of a cursor family. -/
def resumableSpelling : CursorResumable → String
  | .exact => "exact"
  | .batchRestart => "batch_restart"
  | .none => "none"

/-- An error body. -/
def ErrorBody.toJson (e : ErrorBody) : Json :=
  .obj ([("code", .str (codeSpelling e.code)), ("message", .str e.message)] ++
    optional "detail" id e.detail)

/-- A page request. -/
def pageRequestJson : PageRequest → Json
  | .cursor cursor => .obj [("kind", .str "cursor"), ("cursor", .str cursor)]
  | .window resourceId asset start stop =>
    .obj ([("kind", .str "window"), ("resource_id", .str resourceId)] ++
      optional "asset" (fun a : AssetId => Json.str a.text) asset ++
      [("start", timestampJson start), ("end", timestampJson stop)])

/-- A page reply. -/
def PageReply.toJson (p : PageReply) : Json :=
  .obj ([("cursor_resumable", .str (resumableSpelling p.cursorResumable))] ++
    optional "next" pageRequestJson p.next ++
    optional "page_size_reduced_to" Json.nat p.pageSizeReducedTo)

/-- An outcome. -/
def outcomeJson : ReadOutcome → Json
  | .fetched pageEmpty => .obj [("fetched", .obj [("page_empty", .bool pageEmpty)])]
  | .notFetched => .str "not_fetched"
  | .stale asOf => .obj [("stale", .obj [("as_of", timestampJson asOf)])]
  | .rateLimited ms => .obj [("rate_limited", .obj [("retry_after_ms", Json.nat ms)])]
  | .unavailable => .str "unavailable"
  | .reauthRequired => .str "reauth_required"
  | .revoked => .str "revoked"
  | .gone => .str "gone"
  | .scaRequired => .str "sca_required"

/-- A record that was omitted. -/
def degradedJson (d : Degraded) : Json :=
  .obj (optional "local_id" Json.str d.localId ++ [("bytes", Json.nat d.bytes)])

/-- The records that were omitted, left out when there is none. -/
def degradedMember (degraded : List Degraded) : List (String × Json) :=
  if degraded.isEmpty then [] else [("degraded", .arr (degraded.map degradedJson))]

/-- A provider's evidence. -/
def ProviderDetail.toJson (d : ProviderDetail) : Json :=
  .obj [("code", .str d.code), ("message", .str d.message), ("raw", d.raw)]

/-- A status entry. -/
def StatusEntry.toJson (s : StatusEntry) : Json :=
  .obj ([("resource_id", .str s.resourceId), ("outcome", outcomeJson s.outcome)] ++
    degradedMember s.degraded ++
    optional "provider_detail" ProviderDetail.toJson s.providerDetail ++
    optional "page" PageReply.toJson s.page)

/-- The body of a reply. -/
def HistoryReply.toJson (r : HistoryReply) : Json :=
  .obj [("observations", .arr (r.observations.map ObservationWire.toJson)),
    ("statuses", .arr (r.statuses.map StatusEntry.toJson))]

/-- A reply line. -/
def replyJson (requestId : U64) : Except ErrorBody HistoryReply → Json
  | .ok body => .obj [("id", Json.nat requestId.val), ("ok", body.toJson)]
  | .error e => .obj [("id", Json.nat requestId.val), ("err", e.toJson)]

/-! ### Errors and status entries -/

/-- `Display` of a mapping error. -/
def MapError.message : MapError → String
  | .money e => "money: " ++ e.display
  | .time e => "timestamp: byte " ++ toString e.offset

/-- `Display` of a cursor error. -/
def CursorError.message (debug : String → String) (e : CursorError) : String :=
  "not a cursor this adapter issued: " ++ debug e.cursor ++
    " (expected \"<height>:<txid>\" with an optional \":m:<mempool_txid>\" suffix)"

/-- A request this adapter cannot process. -/
def invalid (message : String) : ErrorBody := ⟨.invalidRequest, message, none⟩

/-- A failure of this adapter's own. -/
def internal (message : String) : ErrorBody := ⟨.internal, message, none⟩

/-- A status entry with every other field left absent. -/
def status (resourceId : String) (outcome : ReadOutcome) : StatusEntry :=
  ⟨resourceId, outcome, [], none, none⟩

/-- `with_detail`. -/
def StatusEntry.withDetail (s : StatusEntry) (detail : ProviderDetail) : StatusEntry :=
  { s with providerDetail := some detail }

/-- A `resource_id` this adapter was never configured with. -/
def unknownResource (resourceId : String) : StatusEntry :=
  (status resourceId .notFetched).withDetail {
    code := "unknown_resource"
    message := "no wallet with this resource_id is configured"
    raw := .null }

/-- Rejects a request that names the same resource twice. -/
def noRepeats (resourceIds : List String) : Except ErrorBody Unit :=
  if resourceIds.Nodup then .ok ()
  else .error (invalid ("a resource_id is named more than once in this request; every requested " ++
    "resource_id appears in statuses exactly once, so a repeat has no answer"))

/-! ### The reply's byte budget -/

/-- The bytes of a reply that are neither a status entry nor an observation, with slack. -/
def ENVELOPE_BYTES : ℕ := 512

/-- What a status entry can still grow by after it has been measured. -/
def PAGE_REPLY_BYTES : ℕ := 320

/-- The most bytes one page of observations may take. -/
def PAGE_BUDGET_BYTES : ℕ := 512 * 1024

/-- What one status entry costs before any provider evidence is attached to it. -/
def statusBytes (resourceId : String) : ℕ :=
  (status resourceId (.fetched true)).toJson.size + PAGE_REPLY_BYTES

/-- One reply's remaining byte budget. -/
structure Budget where
  left : ℕ

/-- `Budget::new`. -/
def Budget.new : Budget := ⟨MAX_FRAME_BYTES - ENVELOPE_BYTES⟩

/-- `Budget::spend`. -/
def Budget.spend (b : Budget) (bytes : ℕ) : Budget := ⟨b.left - bytes⟩

/-- Reserves the mandatory status entry of every requested resource. -/
def Budget.reserve (b : Budget) (resourceIds : List String) : Budget :=
  resourceIds.foldl (fun b id => b.spend (statusBytes id)) b

/-- Charges what an entry costs beyond its reservation. -/
def Budget.charge (b : Budget) (entry : StatusEntry) : Budget :=
  b.spend (entry.toJson.size - statusBytes entry.resourceId)

/-- What one page of observations may spend. -/
def Budget.page (b : Budget) : ℕ := min b.left PAGE_BUDGET_BYTES

/-! ### Serving a request -/

/-- One crawl's snapshot, and the instant it was taken. -/
structure Crawl where
  observedAt : Rfc3339
  chain : Snapshot

/-- The crawls in hand, by resource. -/
abbrev Crawls : Type := String → Option Crawl

/-- What this adapter is configured with. -/
structure Adapter where
  wallets : List Wallet
  providerId : String

/-- `Adapter::lookup`. -/
def Adapter.lookup (a : Adapter) (resourceId : String) : Option Wallet :=
  a.wallets.find? (·.resourceId == resourceId)

/-- The constants of the observations of one resource. -/
def Adapter.ctx (a : Adapter) (w : Wallet) (observedAt : Rfc3339) : Ctx where
  resourceId := w.resourceId
  adapterId := "sumer-bitcoin"
  providerId := a.providerId
  observedAt := observedAt

/-- `Adapter::observed_at`: what the clock says, as a timestamp. -/
def observedAt (r : Responses) : Except ErrorBody Rfc3339 :=
  (rfc3339Utc r.now).mapError fun e => internal ("clock: byte " ++ toString e.offset)

/-- What a query's page resumes from. A page this adapter does not serve is a request it cannot
process as a whole. -/
def startOf (debug : String → String) : Option PageRequest → Except ErrorBody (Option Cursor)
  | none => .ok none
  | some (.cursor cursor) =>
    match Cursor.parse cursor with
    | .ok c => .ok (some c)
    | .error e => .error (invalid (e.message debug))
  | some (.window _ _ _ _) =>
    .error {
      code := .invalidRequest
      message := "this adapter serves cursor pages only; Bitcoin history is ordered by block, " ++
        "not by wall-clock time"
      detail := some (.obj [("page_kind", .str "window")]) }

/-- A new crawl: the clock, and then a sync. -/
def startCrawl (r : Responses) (w : Wallet) : Except ErrorBody (Except FetchError Crawl) :=
  (observedAt r).map fun t => (sync r w).map fun chain => ⟨t, chain⟩

/-- The crawl that a page is served from: the one in hand when there is a cursor to continue it
from, and a new one otherwise. -/
def crawlFor (r : Responses) (w : Wallet) (inHand : Option Crawl) (start : Option Cursor) :
    Except ErrorBody (Except FetchError Crawl) :=
  match start, inHand with
  | some _, some crawl => .ok (.ok crawl)
  | _, _ => startCrawl r w

/-- A page of a crawl. -/
def Adapter.pageOf (a : Adapter) (w : Wallet) (crawl : Crawl) (start : Option Cursor)
    (budget : ℕ) : Except MapError Page :=
  match plan (a.ctx w crawl.observedAt) crawl.chain.toChain w.owned start with
  | .error e => .error e
  | .ok p => .ok (cutPage p start budget)

/-- The `page` of a status entry. -/
def Page.reply (p : Page) : PageReply where
  cursorResumable := .exact
  next := p.next.map fun c => .cursor c.encode
  pageSizeReducedTo := p.pageSizeReducedTo

/-- The status entry of a resource that was served a page. -/
def Page.entry (p : Page) (resourceId : String) : StatusEntry where
  resourceId := resourceId
  outcome := .fetched p.observations.isEmpty
  degraded := p.degraded
  providerDetail := none
  page := some p.reply

/-- What the loop over the queries has made so far. -/
structure Reading where
  crawls : Crawls
  observations : List ObservationWire
  statuses : List StatusEntry
  abandoned : Bool
  budget : Budget

/-- An entry without a page, charged for. -/
def Reading.push (s : Reading) (entry : StatusEntry) : Reading :=
  { s with statuses := s.statuses ++ [entry], budget := s.budget.charge entry }

/-- A page, its entry and its observations. A drained crawl is dropped. -/
def Reading.serve (s : Reading) (resourceId : String) (page : Page) : Reading :=
  { s with
    crawls := if page.next.isNone then Function.update s.crawls resourceId none else s.crawls
    observations := s.observations ++ page.observations
    statuses := s.statuses ++ [page.entry resourceId]
    budget := s.budget.spend page.bytes }

/-- A request that fails, and the crawls it leaves in hand. -/
structure Failure where
  crawls : Crawls
  error : ErrorBody

/-- One turn of the loop over the queries. -/
def serveQuery (debug : String → String) (a : Adapter) (world : String → Responses) (s : Reading)
    (q : ResourceQuery) : Except Failure Reading :=
  match startOf debug q.page with
  | .error e => .error ⟨s.crawls, e⟩
  | .ok start =>
    match a.lookup q.resourceId with
    | none => .ok (s.push (unknownResource q.resourceId))
    | some w =>
      if s.abandoned then .ok (s.push (status q.resourceId .notFetched))
      else
        match crawlFor (world q.resourceId) w (s.crawls q.resourceId) start with
        | .error e => .error ⟨s.crawls, e⟩
        | .ok (.error (.rateLimited ms detail)) =>
          -- everything after this in the batch is `not_fetched`
          .ok { s.push ((status q.resourceId (.rateLimited ms.val)).withDetail detail) with
            abandoned := true }
        | .ok (.error (.unavailable detail)) =>
          .ok (s.push ((status q.resourceId .unavailable).withDetail detail))
        | .ok (.ok crawl) =>
          -- a crawl that was started is in hand from here on, whatever becomes of the request
          let crawls := Function.update s.crawls q.resourceId (some crawl)
          let budget := s.budget.charge (status q.resourceId (.fetched true))
          match a.pageOf w crawl start budget.page with
          | .error e => .error ⟨crawls, internal e.message⟩
          | .ok page =>
            .ok ({ s with crawls := crawls, budget := budget }.serve q.resourceId page)

/-- What the loop starts from: every mandatory status entry is reserved. -/
def Reading.start (crawls : Crawls) (queries : List ResourceQuery) : Reading where
  crawls := crawls
  observations := []
  statuses := []
  abandoned := false
  budget := Budget.new.reserve (queries.map ResourceQuery.resourceId)

/-- `Adapter::history_read`: the crawls in hand afterwards, and the result. -/
def historyRead (debug : String → String) (a : Adapter) (world : String → Responses)
    (crawls : Crawls) (queries : List ResourceQuery) : Crawls × Except ErrorBody HistoryReply :=
  match noRepeats (queries.map ResourceQuery.resourceId) with
  | .error e => (crawls, .error e)
  | .ok () =>
    match queries.foldlM (serveQuery debug a world) (Reading.start crawls queries) with
    | .error f => (f.crawls, .error f.error)
    | .ok s => (s.crawls, .ok ⟨s.observations, s.statuses⟩)

/-- The reply that goes out: an `err` in place of one that does not fit a frame. -/
def writeReply (requestId : U64) (result : Except ErrorBody HistoryReply) :
    Except ErrorBody HistoryReply :=
  let bytes := (replyJson requestId result).size
  if MAX_FRAME_BYTES < bytes then
    .error (internal ("this reply is " ++ toString bytes ++ " bytes and MAX_FRAME_BYTES is " ++
      toString MAX_FRAME_BYTES ++ "; ask for fewer resources per request"))
  else result

/-! ### One page -/

section Pages

variable {a : Adapter} {w : Wallet} {crawl : Crawl} {start : Option Cursor} {budget : ℕ} {ctx : Ctx}
  {owned : List String}

/-- What all observations of one reply share. -/
lemma active_eq_ok {tx : Tx} {o : ObservationWire} (h : active ctx tx owned = .ok o) :
    o.resourceId = ctx.resourceId ∧ o.provenance.observedAt = ctx.observedAt := by
  unfold active at h
  dsimp only at h
  split at h
  · cases h
  · split at h
    · cases h
    · split at h
      · cases h
      · cases h
        exact ⟨rfl, rfl⟩

/-- **The observations of a page**: of its resource, at the instant of the crawl.

**Proof sketch.** An observation of the page is that of an item of the plan, as it was made from a
transaction or without its notes, and both have the resource of the wallet and the instant of the
crawl. -/
lemma pageOf_observations {page : Page} (h : a.pageOf w crawl start budget = .ok page)
    {o : ObservationWire} (ho : o ∈ page.observations) :
    o.resourceId = w.resourceId ∧ o.provenance.observedAt = crawl.observedAt := by
  unfold Adapter.pageOf at h
  split at h
  · cases h
  rename_i p hp
  cases h
  obtain ⟨taken, rest, hitems, hobs, -⟩ := cutPage_spec p start budget
  rw [hobs] at ho
  obtain ⟨i, hi, hkept⟩ := List.mem_filterMap.mp ho
  obtain ⟨tx, -, hactive, -⟩ := mem_plan hp (hitems ▸ List.mem_append_left _ hi)
  have hsame := active_eq_ok hactive
  have hdegrade : degrade i.2 = .ok o := by
    unfold kept at hkept
    cases hdegrade : degrade i.2 with
    | error d => simp [hdegrade, Except.toOption] at hkept
    | ok o' =>
      rw [hdegrade] at hkept
      cases hkept
      rfl
  rw [degrade_eq_ok hdegrade]
  split_ifs
  · exact hsame
  · exact hsame

end Pages

/-! ### One query -/

section Queries

variable {debug : String → String} {a : Adapter} {world : String → Responses} {s s' : Reading}
  {q : ResourceQuery} {f : Failure}

/-- A wallet that is found is the one that was looked for. -/
lemma lookup_eq_some {resourceId : String} {w : Wallet} (h : a.lookup resourceId = some w) :
    w.resourceId = resourceId := by
  simpa using List.find?_some h

/-- What a query is served: a page of a crawl. -/
structure Paged (debug : String → String) (a : Adapter) (world : String → Responses)
    (s : Reading) (q : ResourceQuery) (w : Wallet) (start : Option Cursor) (crawl : Crawl) :
    Prop where
  cursor : startOf debug q.page = .ok start
  wallet : a.lookup q.resourceId = some w
  going : s.abandoned = false
  crawl : crawlFor (world q.resourceId) w (s.crawls q.resourceId) start = .ok (.ok crawl)

/-- The bytes that are left for the page of a query. -/
def Reading.pageBudget (s : Reading) (q : ResourceQuery) : ℕ :=
  (s.budget.charge (status q.resourceId (.fetched true))).page

/-- The state of the loop after a query that was served a page. -/
def Reading.paged (s : Reading) (q : ResourceQuery) (crawl : Crawl) (page : Page) : Reading :=
  Reading.serve
    { s with
      crawls := Function.update s.crawls q.resourceId (some crawl)
      budget := s.budget.charge (status q.resourceId (.fetched true)) }
    q.resourceId page

/-- What a page leaves in hand: its crawl, or nothing when it drained it. -/
lemma Reading.crawls_paged (s : Reading) (q : ResourceQuery) (crawl : Crawl) (page : Page) :
    (s.paged q crawl page).crawls =
      Function.update s.crawls q.resourceId (if page.next.isNone then none else some crawl) := by
  show (if page.next.isNone then Function.update (Function.update s.crawls _ _) _ _ else _) = _
  split_ifs
  · rw [Function.update_idem]
  · rfl

/-- **How a query is served**: an entry without a page, which touches no crawl, or a page.

**Proof sketch.** The branches of the turn that go on: an unknown resource, one that is not asked
for any more, and a fetch that failed each push an entry without a page; a crawl serves a page. -/
lemma serveQuery_eq_ok (h : serveQuery debug a world s q = .ok s') :
    (∃ entry abandoned, entry.resourceId = q.resourceId ∧ entry.page = none ∧
      s' = { s.push entry with abandoned := abandoned }) ∨
    ∃ w start crawl page, Paged debug a world s q w start crawl ∧
      a.pageOf w crawl start (s.pageBudget q) = .ok page ∧ s' = s.paged q crawl page := by
  unfold serveQuery at h
  split at h
  · cases h
  rename_i start hstart
  split at h
  · cases h
    exact .inl ⟨_, s.abandoned, rfl, rfl, rfl⟩
  rename_i w hw
  split_ifs at h with habandoned
  · cases h
    exact .inl ⟨_, s.abandoned, rfl, rfl, rfl⟩
  split at h
  · cases h
  · cases h
    exact .inl ⟨_, true, rfl, rfl, rfl⟩
  · cases h
    exact .inl ⟨_, s.abandoned, rfl, rfl, rfl⟩
  · rename_i crawl hcrawl
    dsimp only at h
    split at h
    · cases h
    rename_i page hpage
    cases h
    exact .inr ⟨w, start, crawl, page, ⟨hstart, hw, by simpa using habandoned, hcrawl⟩, hpage, rfl⟩

/-- **How a query fails**: before any crawl is touched, or at the page of a crawl that is then in
hand.

**Proof sketch.** A turn fails at its cursor, at the start of a crawl, or at the page of a crawl
that has started; only the last of these has written the crawl. -/
lemma serveQuery_eq_error (h : serveQuery debug a world s q = .error f) :
    f.crawls = s.crawls ∨
    ∃ w start crawl e, Paged debug a world s q w start crawl ∧
      a.pageOf w crawl start (s.pageBudget q) = .error e ∧
      f.crawls = Function.update s.crawls q.resourceId (some crawl) := by
  unfold serveQuery at h
  split at h
  · cases h
    exact .inl rfl
  rename_i start hstart
  split at h
  · cases h
  rename_i w hw
  split_ifs at h with habandoned
  split at h
  · cases h
    exact .inl rfl
  · cases h
  · cases h
  · rename_i crawl hcrawl
    dsimp only at h
    split at h
    · rename_i e hpage
      cases h
      exact .inr ⟨w, start, crawl, e, ⟨hstart, hw, by simpa using habandoned, hcrawl⟩, hpage, rfl⟩
    · cases h

/-- What the loop has of a resource: its crawl, its observations and its entries. -/
structure SameFor (resourceId : String) (s s' : Reading) : Prop where
  crawls : s'.crawls resourceId = s.crawls resourceId
  observations : (s'.observations.filter fun o => o.resourceId == resourceId) =
    s.observations.filter fun o => o.resourceId == resourceId
  statuses : (s'.statuses.filter fun e => e.resourceId == resourceId) =
    s.statuses.filter fun e => e.resourceId == resourceId

/-- The observations of a page among those of another resource. -/
lemma filter_pageOf {w : Wallet} {crawl : Crawl} {start : Option Cursor} {budget : ℕ} {page : Page}
    (h : a.pageOf w crawl start budget = .ok page) (resourceId : String) :
    (page.observations.filter fun o => o.resourceId == resourceId) =
      if resourceId = w.resourceId then page.observations else [] := by
  split_ifs with heq
  · refine List.filter_eq_self.mpr fun o ho => ?_
    rw [(pageOf_observations h ho).1, heq, beq_self_eq_true]
  · refine List.filter_eq_nil_iff.mpr fun o ho => ?_
    rw [(pageOf_observations h ho).1, beq_iff_eq]
    exact Ne.symm heq

/-- A query whose turn comes to a crawl is served a page of it, or fails at that page. -/
lemma Paged.serveQuery_eq {w : Wallet} {start : Option Cursor} {crawl : Crawl}
    (h : Paged debug a world s q w start crawl) :
    serveQuery debug a world s q =
      match a.pageOf w crawl start (s.pageBudget q) with
      | .error e =>
        .error ⟨Function.update s.crawls q.resourceId (some crawl), internal e.message⟩
      | .ok page => .ok (s.paged q crawl page) := by
  have hgoing : ¬ s.abandoned = true := by simp [h.going]
  simp only [serveQuery, h.cursor, h.wallet, if_neg hgoing, h.crawl]
  rfl

/-- A query leaves the other resources alone. -/
lemma serveQuery_same (h : serveQuery debug a world s q = .ok s') {resourceId : String}
    (hne : resourceId ≠ q.resourceId) : SameFor resourceId s s' := by
  rcases serveQuery_eq_ok h with ⟨entry, abandoned, hentry, -, rfl⟩ |
      ⟨w, start, crawl, page, hpaged, hpage, rfl⟩
  · exact ⟨rfl, rfl, by simp [Reading.push, hentry, hne.symm]⟩
  · have hw : resourceId ≠ w.resourceId := (lookup_eq_some hpaged.wallet).symm ▸ hne
    refine ⟨?_, ?_, ?_⟩
    · rw [Reading.crawls_paged, Function.update_of_ne hne]
    · show (s.observations ++ page.observations).filter _ = _
      rw [List.filter_append, filter_pageOf hpage, if_neg hw, List.append_nil]
    · simp [Reading.paged, Reading.serve, Page.entry, hne.symm]

/-- **What is not asked for stays as it is.** -/
lemma serveAll_same {queries : List ResourceQuery}
    (h : queries.foldlM (serveQuery debug a world) s = .ok s') {resourceId : String}
    (hne : resourceId ∉ queries.map ResourceQuery.resourceId) : SameFor resourceId s s' := by
  refine foldlM_invariant (P := SameFor resourceId s) (fun t q t' hq ht hstep => ?_)
    ⟨rfl, rfl, rfl⟩ h
  have hother : resourceId ≠ q.resourceId := by
    rintro rfl
    exact hne (List.mem_map_of_mem hq)
  have hone := serveQuery_same hstep hother
  exact ⟨hone.crawls.trans ht.crawls, hone.observations.trans ht.observations,
    hone.statuses.trans ht.statuses⟩

/-- **One entry for every query**, in the order of the request. -/
lemma serveAll_resourceIds {queries : List ResourceQuery}
    (h : queries.foldlM (serveQuery debug a world) s = .ok s') :
    s'.statuses.map StatusEntry.resourceId =
      s.statuses.map StatusEntry.resourceId ++ queries.map ResourceQuery.resourceId := by
  induction queries generalizing s with
  | nil =>
    cases h
    exact (List.append_nil _).symm
  | cons q queries ih =>
    obtain ⟨mid, hmid, h⟩ := foldlM_cons_eq_ok.mp h
    have hone : mid.statuses.map StatusEntry.resourceId =
        s.statuses.map StatusEntry.resourceId ++ [q.resourceId] := by
      rcases serveQuery_eq_ok hmid with ⟨entry, abandoned, hentry, -, rfl⟩ |
          ⟨w, start, crawl, page, -, -, rfl⟩
      · simp [Reading.push, hentry]
      · simp [Reading.paged, Reading.serve, Page.entry]
    rw [ih h, hone, List.append_assoc]
    rfl

end Queries

end Sumer.Bitcoin
