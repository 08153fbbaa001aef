import Sumer.Lib.Orbit
import Sumer.Bitcoin.Wallet

set_option relaxedAutoImplicit false
set_option autoImplicit false

/-!
# Where Esplora JSON comes from

The requests of one address (`adapters/bitcoin/src/source.rs`). A provider is a function from
request paths to answers, together with the decoding of a body, which is `serde_json`'s. The
confirmed listing is crawled page by page, each page naming the next request; a crawl is run with a
number of turns and says nothing when they are used up.

## Main definitions

* `Sumer.Bitcoin.Provider`: what is answered to each path.
* `Sumer.Bitcoin.Provider.addressChain`: the crawl of a confirmed listing.
* `Sumer.Bitcoin.continuation`: the txid that a page sends the crawl on to.

## Main results

* `Sumer.Bitcoin.address_chain_returns_iff`: when the crawl returns.
-/

namespace Sumer.Bitcoin

open Sumer.Wire

/-- Esplora returns at most this many confirmed transactions a page. -/
def CHAIN_PAGE : ℕ := 25

/-- A 200 body, or the provider stating that the resource is not there. -/
inductive Fetched where
  | body (text : String)
  | notFound

/-- `FetchError::unavailable`. -/
def FetchError.ofCode (code message : String) (raw : Json) : FetchError :=
  .unavailable ⟨code, message, raw⟩

/-- A provider: the answer to each request path, and how a body is decoded, or why not. -/
structure Provider where
  get : String → Except FetchError Fetched
  parseTxs : String → Except String (List Tx)
  parseStats : String → Except String AddressStats

/-- `Source::get_json`. -/
def Provider.getJson {T : Type} (p : Provider) (parse : String → Except String T) (path : String) :
    Except FetchError T :=
  match p.get path with
  | .error e => .error e
  | .ok .notFound =>
    .error (.ofCode "http_404" (path ++ ": not found, where a body was required") .null)
  | .ok (.body text) =>
    match parse text with
    | .ok value => .ok value
    | .error e =>
      .error (.ofCode "unparseable_body" (path ++ ": " ++ e)
        (.str (String.ofList (text.toList.take 512))))

/-! ### Request paths -/

/-- The counters of an address. -/
def statsPath (address : String) : String := "/address/" ++ address

/-- The unconfirmed transactions of an address. -/
def mempoolPath (address : String) : String := "/address/" ++ address ++ "/txs/mempool"

/-- The confirmed transactions of an address, after the last one seen. -/
def chainPath (address : String) : Option String → String
  | none => "/address/" ++ address ++ "/txs/chain"
  | some txid => "/address/" ++ address ++ "/txs/chain/" ++ txid

/-- `Source::address_stats`. -/
def Provider.addressStats (p : Provider) (address : String) : Except FetchError AddressStats :=
  p.getJson p.parseStats (statsPath address)

/-- `Source::address_mempool`. -/
def Provider.addressMempool (p : Provider) (address : String) : Except FetchError (List Tx) :=
  p.getJson p.parseTxs (mempoolPath address)

/-! ### The crawl of a listing -/

/-- The variables of the crawl. -/
structure Listing where
  out : List Tx
  lastSeen : Option String

/-- One turn of the crawl: it goes on, or it returns. -/
def Provider.chainTurn (p : Provider) (address : String) (s : Listing) :
    Listing ⊕ Except FetchError (List Tx) :=
  let path := chainPath address s.lastSeen
  match p.getJson p.parseTxs path with
  | .error e => .inr (.error e)
  | .ok page =>
    match page.getLast? with
    | none => .inr (.ok s.out)
    | some last =>
      if page.length < CHAIN_PAGE then .inr (.ok (s.out ++ page))
      else if s.lastSeen = some last.txid then
        -- the provider is not advancing
        .inr (.error (.ofCode "pagination_stalled"
          (path ++ ": the listing did not advance past " ++ last.txid) .null))
      else .inl ⟨s.out ++ page, some last.txid⟩

/-- `Source::address_chain`, when it returns within a number of turns. -/
def Provider.chainFrom (p : Provider) (address : String) :
    ℕ → Listing → Option (Except FetchError (List Tx))
  | 0, _ => none
  | turns + 1, s =>
    match p.chainTurn address s with
    | .inr result => some result
    | .inl s => p.chainFrom address turns s

/-- The crawl of a listing from its start. -/
def Provider.addressChain (p : Provider) (address : String) (turns : ℕ) :
    Option (Except FetchError (List Tx)) :=
  p.chainFrom address turns ⟨[], none⟩

/-- The txid that the page after a txid sends the crawl on to: the last one of a full page, unless
it is the one asked after. -/
def continuation (p : Provider) (address : String) (asked : Option String) :
    Option (Option String) :=
  match p.getJson p.parseTxs (chainPath address asked) with
  | .error _ => none
  | .ok page =>
    match page.getLast? with
    | none => none
    | some last =>
      if page.length < CHAIN_PAGE ∨ asked = some last.txid then none else some (some last.txid)

section Crawl

variable {p : Provider} {address : String} {s : Listing}

/-- A body that was sent and can be decoded is what the request returns. -/
lemma getJson_body {T : Type} {p : Provider} {parse : String → Except String T}
    {path text : String} {value : T} (hget : p.get path = .ok (.body text))
    (hparse : parse text = .ok value) :
    p.getJson parse path = .ok value := by
  simp only [Provider.getJson, hget, hparse]

/-- A turn of the listing goes on to the txid that its page sends it on to, or ends where the page
sends it nowhere. -/
lemma chainTurn_lastSeen (p : Provider) (address : String) (s : Listing) :
    (∃ s', p.chainTurn address s = .inl s' ∧
      continuation p address s.lastSeen = some s'.lastSeen) ∨
    ∃ result, p.chainTurn address s = .inr result ∧
      continuation p address s.lastSeen = none := by
  unfold Provider.chainTurn continuation
  dsimp only
  cases p.getJson p.parseTxs (chainPath address s.lastSeen) with
  | error e => exact .inr ⟨_, rfl, rfl⟩
  | ok page =>
    cases hlast : page.getLast? with
    | none => exact .inr ⟨.ok s.out, by simp [hlast], by simp [hlast]⟩
    | some last =>
      simp only [hlast]
      by_cases hshort : page.length < CHAIN_PAGE
      · exact .inr ⟨_, if_pos hshort, if_pos (.inl hshort)⟩
      by_cases hstalled : s.lastSeen = some last.txid
      · exact .inr ⟨_, (if_neg hshort).trans (if_pos hstalled), if_pos (.inr hstalled)⟩
      · exact .inl ⟨_, (if_neg hshort).trans (if_neg hstalled),
          if_neg (not_or.mpr ⟨hshort, hstalled⟩)⟩

/-- The crawl returns when its points come to an end.

**Proof sketch.** Both directions go along the points that the listing is sent on to: by induction
on the turns it may take in one, on the number of points in the other. -/
lemma exists_chainFrom_iff :
    (∃ turns result, p.chainFrom address turns s = some result) ↔
      ∃ n, orbit (continuation p address) s.lastSeen n = none := by
  constructor
  · rintro ⟨turns, result, h⟩
    induction turns generalizing s with
    | zero => cases h
    | succ turns ih =>
      rcases chainTurn_lastSeen p address s with
        ⟨s', hturn, hnext⟩ | ⟨r, hturn, hnext⟩
      · rw [Provider.chainFrom, hturn] at h
        obtain ⟨n, hn⟩ := ih h
        exact ⟨n + 1, (orbit_succ' hnext n).trans hn⟩
      · exact ⟨1, hnext⟩
  · rintro ⟨n, hn⟩
    induction n generalizing s with
    | zero => cases hn
    | succ n ih =>
      rcases chainTurn_lastSeen p address s with
        ⟨s', hturn, hnext⟩ | ⟨r, hturn, hnext⟩
      · rw [orbit_succ' hnext] at hn
        obtain ⟨turns, result, h⟩ := ih hn
        exact ⟨turns + 1, result, by rw [Provider.chainFrom, hturn]; exact h⟩
      · exact ⟨1, r, by rw [Provider.chainFrom, hturn]⟩

/-- A continuation names a transaction of the page. -/
lemma continuation_eq_some {asked t : Option String} (h : continuation p address asked = some t) :
    ∃ page tx, p.getJson p.parseTxs (chainPath address asked) = .ok page ∧ tx ∈ page ∧
      t = some tx.txid := by
  unfold continuation at h
  split at h
  · cases h
  rename_i page hpage
  split at h
  · cases h
  rename_i last hlast
  split_ifs at h
  cases h
  exact ⟨page, last, hpage, List.mem_of_getLast? hlast, rfl⟩

end Crawl

/-- **When the crawl of an address returns**: for a provider whose answers are fixed and name
finitely many txids, when no txid that a page sends it on to was one before. -/
theorem address_chain_returns_iff (p : Provider) (address : String) (txids : Finset String)
    (hfinite : ∀ path page, p.getJson p.parseTxs path = .ok page → ∀ tx ∈ page, tx.txid ∈ txids) :
    (∃ turns result, p.addressChain address turns = some result) ↔
      ∀ i j t, i < j → orbit (continuation p address) none i = some t →
        orbit (continuation p address) none j ≠ some t := by
  refine (exists_chainFrom_iff (s := ⟨[], none⟩)).trans
    (orbit_stops_iff (insert none (txids.map ⟨some, Option.some_injective _⟩)) fun n x hx => ?_)
  cases n with
  | zero =>
    cases hx
    exact Finset.mem_insert_self _ _
  | succ n =>
    obtain ⟨asked, -, hasked⟩ := Option.bind_eq_some_iff.mp hx
    obtain ⟨page, tx, hpage, htx, rfl⟩ := continuation_eq_some hasked
    exact Finset.mem_insert_of_mem (Finset.mem_map_of_mem _ (hfinite _ _ hpage tx htx))

/-- A confirmed transaction that a listing names. -/
def listedTx (txid : String) : Tx where
  txid := txid
  fee := 0
  status := ⟨true, none, none, none⟩
  vin := []
  vout := []
  vin_lt := length_nil_lt
  vout_lt := length_nil_lt

/-- A full page of a listing. -/
def fullPage (txid : String) : List Tx := List.replicate CHAIN_PAGE (listedTx txid)

/-- A listing, as it is serialized. -/
def listingJson (page : List Tx) : Json :=
  .arr (page.map fun tx =>
    .obj [("txid", .str tx.txid), ("status", .obj [("confirmed", .bool tx.status.confirmed)])])

/-- The body of a listing. -/
@[irreducible]
def listingBody (page : List Tx) : String := (listingJson page).text

/-- Two txids. -/
def txidA : String := String.ofList (List.replicate 64 'a')

/-- The other one. -/
def txidB : String := String.ofList (List.replicate 64 'b')

/-- A provider that answers every path with a body, and how the bodies it sends are read. -/
def listingProvider (body : String → List Tx) : Provider where
  get path := .ok (.body (listingBody (body path)))
  parseTxs text :=
    if text = listingBody [] then .ok []
    else if text = listingBody (fullPage txidA) then .ok (fullPage txidA)
    else if text = listingBody (fullPage txidB) then .ok (fullPage txidB)
    else .error "expected value at line 1 column 1"
  parseStats _ := .error "missing field at line 1 column 1"

/-- A provider of listings answers every path with the document of its listing. -/
lemma get_listingProvider (body : String → List Tx) (path : String) :
    (listingProvider body).get path = .ok (.body (listingBody (body path))) := rfl

/-- The bodies of such a provider name two txids at most, whichever path is asked.

**Proof sketch.** The document of a listing is read as the empty page or one of two full pages, and
all the transactions of a full page have its txid. -/
lemma txid_of_listingProvider {body : String → List Tx} {path : String} {page : List Tx} {tx : Tx}
    (hpage : (listingProvider body).getJson (listingProvider body).parseTxs path = .ok page)
    (htx : tx ∈ page) : tx.txid = txidA ∨ tx.txid = txidB := by
  have hread (text : String) (h : (listingProvider body).parseTxs text = .ok page) :
      page = [] ∨ page = fullPage txidA ∨ page = fullPage txidB := by
    simp only [listingProvider] at h
    split_ifs at h <;> cases h
    · exact Or.inl rfl
    · exact Or.inr (Or.inl rfl)
    · exact Or.inr (Or.inr rfl)
  have hone : page = [] ∨ page = fullPage txidA ∨ page = fullPage txidB := by
    simp only [Provider.getJson, get_listingProvider] at hpage
    split at hpage
    · rename_i value hvalue
      cases hpage
      exact hread _ hvalue
    · cases hpage
  rcases hone with rfl | rfl | rfl
  · exact absurd htx List.not_mem_nil
  · exact Or.inl (congrArg Tx.txid (List.eq_of_mem_replicate htx))
  · exact Or.inr (congrArg Tx.txid (List.eq_of_mem_replicate htx))

/-- A provider with a cycle of two pages. -/
def cyclicProvider : Provider :=
  listingProvider fun path =>
    if path = chainPath "bc1qexample0" (some txidA) then fullPage txidB else fullPage txidA

/-- When the crawl of the cycle returns: its pages are full, and name two txids. -/
theorem address_chain_returns_iff_cyclic :
    (∃ turns result, cyclicProvider.addressChain "bc1qexample0" turns = some result) ↔
      ∀ i j t, i < j → orbit (continuation cyclicProvider "bc1qexample0") none i = some t →
        orbit (continuation cyclicProvider "bc1qexample0") none j ≠ some t :=
  address_chain_returns_iff _ _ {txidA, txidB} fun _ _ hpage _ htx => by
    rw [Finset.mem_insert, Finset.mem_singleton]
    exact txid_of_listingProvider hpage htx

/-- Two listings whose documents differ within some first characters have different bodies. -/
lemma listingBody_ne {page page' : List Tx} (n : ℕ)
    (h : (listingJson page).chars.take n ≠ (listingJson page').chars.take n) :
    listingBody page ≠ listingBody page' := by
  intro heq
  unfold listingBody Json.text at heq
  exact h (by rw [String.ofList_injective heq])

/-- What the pages of the cycle are read as. -/
lemma parse_cyclic :
    cyclicProvider.parseTxs (listingBody (fullPage txidA)) = .ok (fullPage txidA) ∧
      cyclicProvider.parseTxs (listingBody (fullPage txidB)) = .ok (fullPage txidB) := by
  have hA : listingBody (fullPage txidA) ≠ listingBody [] := listingBody_ne 2 (by decide +kernel)
  have hB : listingBody (fullPage txidB) ≠ listingBody [] := listingBody_ne 2 (by decide +kernel)
  have hBA : listingBody (fullPage txidB) ≠ listingBody (fullPage txidA) :=
    listingBody_ne 12 (by decide +kernel)
  exact ⟨(if_neg hA).trans (if_pos rfl), (if_neg hB).trans ((if_neg hBA).trans (if_pos rfl))⟩

/-- Where a full page sends the crawl on to. -/
lemma continuation_full {p : Provider} {address txid : String} {asked : Option String}
    (h : p.getJson p.parseTxs (chainPath address asked) = .ok (fullPage txid))
    (hne : asked ≠ some txid) : continuation p address asked = some (some txid) := by
  have hlast : (fullPage txid).getLast? = some (listedTx txid) := rfl
  unfold continuation
  simp only [h, hlast]
  refine if_neg (not_or.mpr ⟨?_, hne⟩)
  rw [fullPage, List.length_replicate]
  exact lt_irrefl _

/-- The two txids of the example differ in their first character. -/
lemma txidB_ne : txidB ≠ txidA := fun h => absurd (String.ofList_injective h) (by decide)

/-- A request path tells after which txid it asks. -/
lemma chainPath_inj {address txid txid' : String}
    (h : chainPath address (some txid) = chainPath address (some txid')) : txid = txid' := by
  simpa [chainPath, ← String.toList_inj, String.toList_append] using h

/-- The first request of a crawl asks after no txid. -/
lemma chainPath_none_ne {address txid : String} :
    chainPath address none ≠ chainPath address (some txid) := by
  intro h
  have hlist := congrArg (fun s => s.toList.length) h
  simp [chainPath, String.toList_append] at hlist

/-- Every page of the cycle but the second sends the crawl on to the second. -/
lemma continuation_cyclic {asked : Option String}
    (hpath : chainPath "bc1qexample0" asked ≠ chainPath "bc1qexample0" (some txidA))
    (hne : asked ≠ some txidA) :
    continuation cyclicProvider "bc1qexample0" asked = some (some txidA) := by
  refine continuation_full (getJson_body ?_ parse_cyclic.1) hne
  rw [cyclicProvider, get_listingProvider, if_neg hpath]

/-- **A crawl that never returns**: two full pages that end in each other's txid. -/
theorem address_chain_diverges :
    ¬ ∃ turns result, cyclicProvider.addressChain "bc1qexample0" turns = some result := by
  intro hreturns
  obtain ⟨n, hn⟩ := (exists_chainFrom_iff (s := ⟨[], none⟩)).mp hreturns
  have hback : continuation cyclicProvider "bc1qexample0" (some txidA) = some (some txidB) := by
    refine continuation_full (getJson_body ?_ parse_cyclic.2)
      fun h => txidB_ne (Option.some.inj h).symm
    rw [cyclicProvider, get_listingProvider, if_pos rfl]
  have hfirst : orbit (continuation cyclicProvider "bc1qexample0") none 1 = some (some txidA) :=
    orbit_one.trans (continuation_cyclic chainPath_none_ne (by simp))
  have hthird : orbit (continuation cyclicProvider "bc1qexample0") none 3 = some (some txidA) := by
    rw [orbit_add hfirst 2, orbit_succ' hback, orbit_one]
    exact continuation_cyclic (fun h => txidB_ne (chainPath_inj h))
      fun h => txidB_ne (Option.some.inj h)
  obtain ⟨t, ht⟩ := orbit_ne_none (by decide) hfirst hthird n
  rw [hn] at ht
  cases ht

end Sumer.Bitcoin
