import Sumer.Bitcoin.Paging

set_option relaxedAutoImplicit false
set_option autoImplicit false

/-!
# Watch-only wallets

What one sync of a wallet gathers before anything is planned, and the two balances
(`adapters/bitcoin/src/wallet.rs`). What the provider answers is a parameter: for each address a
listing or a failure (`adapters/bitcoin/src/source.rs`), whatever the responses were.

## Main definitions

* `Sumer.Bitcoin.Wallet`: a wallet, as the wallet file is validated.
* `Sumer.Bitcoin.TxMap`: transactions by txid.
* `Sumer.Bitcoin.sync`, `Sumer.Bitcoin.balances`: what is read of a wallet.
-/

namespace Sumer.Bitcoin

open Sumer.Wire

/-- Evidence from the provider, riding beside an outcome. -/
structure ProviderDetail where
  code : String
  message : String
  raw : Json

/-- A read that did not happen. -/
inductive FetchError where
  | rateLimited (retryAfterMs : U64) (detail : ProviderDetail)
  | unavailable (detail : ProviderDetail)

/-- What a `resource_id` must satisfy: it names a file. -/
def isResourceId (s : String) : Bool :=
  !s.isEmpty && (asBytes s).length ≤ 64 && s != "." && s != ".." &&
    s.toList.all fun ch =>
      ch.isDigit || ('a' ≤ ch && ch ≤ 'z') || ('A' ≤ ch && ch ≤ 'Z') || "._-".toList.contains ch

/-- One watch-only wallet: a set of addresses, in order. -/
structure Wallet where
  resourceId : String
  addresses : List String
  addressHash : String
  valid : isResourceId resourceId = true

/-- The name of the example wallet is accepted as the name of a resource. -/
lemma isResourceId_savings : isResourceId "savings" = true := by decide

/-- The addresses a wallet owns. -/
def Wallet.owned (w : Wallet) : List String := w.addresses

/-- What the provider answers about the addresses of one wallet, and what the clock says when it is
asked. -/
structure Responses where
  addressChain : String → Except FetchError (List Tx)
  addressMempool : String → Except FetchError (List Tx)
  addressStats : String → Except FetchError AddressStats
  now : ℤ

/-! ### The transactions of a sync -/

/-- Transactions by txid, in txid order. -/
structure TxMap where
  txs : List Tx
  sorted : txs.Pairwise (fun a b => a.txid < b.txid)
  txids : ∀ tx ∈ txs, isTxid tx.txid = true

/-- The map without a transaction. -/
def TxMap.empty : TxMap := ⟨[], .nil, by simp⟩

/-- Puts a transaction in its place, or in that of the one with its txid. -/
def insertTx (tx : Tx) : List Tx → List Tx
  | [] => [tx]
  | other :: rest =>
    if tx.txid < other.txid then tx :: other :: rest
    else if tx.txid = other.txid then tx :: rest
    else other :: insertTx tx rest

/-- What an insertion leaves in a map. -/
lemma mem_insertTx {tx x : Tx} {txs : List Tx} (h : x ∈ insertTx tx txs) : x = tx ∨ x ∈ txs := by
  induction txs with
  | nil => exact Or.inl (List.mem_singleton.mp h)
  | cons other rest ih =>
    rw [insertTx] at h
    split_ifs at h
    · exact List.mem_cons.mp h
    · rcases List.mem_cons.mp h with h | h
      · exact Or.inl h
      · exact Or.inr (List.mem_cons_of_mem _ h)
    · rcases List.mem_cons.mp h with h | h
      · exact Or.inr (h ▸ List.mem_cons_self)
      · exact (ih h).imp id (List.mem_cons_of_mem _)

/-- An insertion keeps the transactions of a map strictly sorted by their txids. -/
lemma pairwise_insertTx {tx : Tx} {txs : List Tx} (h : txs.Pairwise fun a b => a.txid < b.txid) :
    (insertTx tx txs).Pairwise fun a b => a.txid < b.txid := by
  induction txs with
  | nil => exact List.pairwise_singleton _ _
  | cons other rest ih =>
    obtain ⟨hother, hrest⟩ := List.pairwise_cons.mp h
    rw [insertTx]
    split_ifs with hlt heq
    · refine List.pairwise_cons.mpr ⟨fun x hx => ?_, h⟩
      rcases List.mem_cons.mp hx with rfl | hx
      · exact hlt
      · exact hlt.trans (hother x hx)
    · exact List.pairwise_cons.mpr ⟨fun x hx => heq ▸ hother x hx, hrest⟩
    · refine List.pairwise_cons.mpr ⟨fun x hx => ?_, ih hrest⟩
      rcases mem_insertTx hx with rfl | hx
      · exact lt_of_le_of_ne (not_lt.mp hlt) (Ne.symm heq)
      · exact hother x hx

/-- `BTreeMap::insert`. -/
def TxMap.insert (m : TxMap) (tx : Tx) (h : isTxid tx.txid = true) : TxMap where
  txs := insertTx tx m.txs
  sorted := pairwise_insertTx m.sorted
  txids x hx := by
    rcases mem_insertTx hx with rfl | hx
    · exact h
    · exact m.txids x hx

/-- A listing with a txid that is none. -/
def malformedTxid (address : String) (tx : Tx) : FetchError :=
  .unavailable {
    code := "malformed_txid"
    message := address ++ ": listing carried a txid that is not 64 hex characters"
    raw := .str (String.ofList (tx.txid.toList.take 128)) }

/-- Takes in the listings of one address: a confirmed copy of a transaction wins. -/
def gather (address : String) : TxMap → List Tx → Except FetchError TxMap
  | m, [] => .ok m
  | m, tx :: rest =>
    if h : isTxid tx.txid = true then
      gather address
        (if tx.height.isSome || !m.txs.any (·.txid == tx.txid) then m.insert tx h else m) rest
    else .error (malformedTxid address tx)

/-- Takes in the listings of some addresses. -/
def gatherAll (r : Responses) : TxMap → List String → Except FetchError TxMap
  | m, [] => .ok m
  | m, address :: rest => do
    let confirmed ← r.addressChain address
    let pending ← r.addressMempool address
    let m ← gather address m (confirmed ++ pending)
    gatherAll r m rest

/-- The snapshot of some transactions. -/
def TxMap.snapshot (m : TxMap) : Snapshot where
  txs := m.txs
  mempool := (m.txs.filter fun tx => tx.height.isNone).map Tx.txid
  sorted := m.sorted
  txids := m.txids
  mempool_eq := rfl

/-- Fetches one wallet's whole current state. Any failure anywhere fails it. -/
def sync (r : Responses) (w : Wallet) : Except FetchError Snapshot :=
  (gatherAll r TxMap.empty w.addresses).map TxMap.snapshot

/-- Adds up the counters of some addresses. -/
def sumStats (r : Responses) : ℤ × ℤ → List String → Except FetchError (ℤ × ℤ)
  | sums, [] => .ok sums
  | (confirmed, unconfirmed), address :: rest => do
    let stats ← r.addressStats address
    sumStats r (confirmed + stats.chainStats.net, unconfirmed + stats.mempoolStats.net) rest

/-- The wallet's two balances, in satoshis. -/
def balances (r : Responses) (w : Wallet) : Except FetchError (ℤ × ℤ) :=
  sumStats r (0, 0) w.addresses

end Sumer.Bitcoin
