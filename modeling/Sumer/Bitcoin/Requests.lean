import Sumer.Bitcoin.Load
import Sumer.Bitcoin.Source

set_option relaxedAutoImplicit false
set_option autoImplicit false

/-!
# The request paths of a wallet

What is asked of a provider while a wallet is read. A history read takes its addresses in turn,
each with the pages of its confirmed listing and then its mempool, and goes on while nothing fails;
a balance read asks for the counters of its addresses in turn; a status read for those of the first.
The txid that continues a listing is the provider's, and becomes part of the next path before
anything has looked at it.

## Main definitions

* `Sumer.Bitcoin.Requested`: the paths that a read of a wallet passes to the provider.
* `Sumer.Bitcoin.Permitted`: the paths that a read of a wallet may ask for.

## Main results

* `Sumer.Bitcoin.paths_permitted_iff`: when every path is one of them.
-/

namespace Sumer.Bitcoin

open Sumer.Wire

/-- Where the crawl of an address stands that began at a request: which request is next, and with
what. -/
inductive Crawling (p : ℕ → Provider) (address : String) (start : ℕ) : ℕ → Listing → Prop where
  | start : Crawling p address start start ⟨[], none⟩
  | next {n : ℕ} {s s' : Listing} : Crawling p address start n s →
      (p n).chainTurn address s = .inl s' → Crawling p address start (n + 1) s'

/-- Where a sync of a wallet stands between two addresses: which request is next, the transactions
it has taken in, and the addresses that are left. It goes on while every listing succeeds and every
txid is one. -/
inductive SyncAt (p : ℕ → Provider) (w : Wallet) : ℕ → TxMap → List String → Prop where
  | start : SyncAt p w 0 TxMap.empty w.addresses
  | next {n k : ℕ} {m m' : TxMap} {address : String} {rest : List String} {s : Listing}
      {confirmed pending : List Tx} : SyncAt p w n m (address :: rest) →
      Crawling p address n k s → (p k).chainTurn address s = .inr (.ok confirmed) →
      (p (k + 1)).addressMempool address = .ok pending →
      gather address m (confirmed ++ pending) = .ok m' → SyncAt p w (k + 2) m' rest

/-- Which addresses of a wallet a balance read has left, after as many requests. -/
inductive BalancesAt (p : ℕ → Provider) (w : Wallet) : ℕ → List String → Prop where
  | start : BalancesAt p w 0 w.addresses
  | next {n : ℕ} {address : String} {rest : List String} {stats : AddressStats} :
      BalancesAt p w n (address :: rest) → (p n).addressStats address = .ok stats →
      BalancesAt p w (n + 1) rest

/-- The paths that a history read, a balance read or a status read of a wallet passes to the
provider, which may answer each request as it likes. -/
inductive Requested (p : ℕ → Provider) (w : Wallet) : String → Prop where
  | chain {n k : ℕ} {m : TxMap} {address : String} {rest : List String} {s : Listing} :
      SyncAt p w n m (address :: rest) → Crawling p address n k s →
      Requested p w (chainPath address s.lastSeen)
  | mempool {n k : ℕ} {m : TxMap} {address : String} {rest : List String} {s : Listing}
      {confirmed : List Tx} : SyncAt p w n m (address :: rest) → Crawling p address n k s →
      (p k).chainTurn address s = .inr (.ok confirmed) → Requested p w (mempoolPath address)
  | balances {n : ℕ} {address : String} {rest : List String} :
      BalancesAt p w n (address :: rest) → Requested p w (statsPath address)
  | status {address : String} : w.addresses.head? = some address →
      Requested p w (statsPath address)

/-- The paths that a read of a wallet may ask for. -/
def Permitted (w : Wallet) (path : String) : Prop :=
  ∃ address ∈ w.addresses, path = statsPath address ∨ path = mempoolPath address ∨
    path = chainPath address none ∨
      ∃ txid, isTxid txid = true ∧ path = chainPath address (some txid)

section Requests

variable {p : ℕ → Provider} {w : Wallet}

/-- What a sync has left is part of the wallet. -/
lemma SyncAt.subset {n : ℕ} {m : TxMap} {rest : List String} (h : SyncAt p w n m rest) :
    ∀ a ∈ rest, a ∈ w.addresses := by
  induction h with
  | start => exact fun a ha => ha
  | next _ _ _ _ _ ih => exact fun a ha => ih a (List.mem_cons_of_mem _ ha)

/-- What a balance read has left is part of the wallet. -/
lemma BalancesAt.subset {n : ℕ} {rest : List String} (h : BalancesAt p w n rest) :
    ∀ a ∈ rest, a ∈ w.addresses := by
  induction h with
  | start => exact fun a ha => ha
  | next _ _ ih => exact fun a ha => ih a (List.mem_cons_of_mem _ ha)

/-- An accepted address has no slash, so it is one segment of a path. -/
lemma slash_notMem {address : String} (h : isAddress address = true) : '/' ∉ address.toList := by
  intro hmem
  rw [isAddress, Bool.and_eq_true, List.all_eq_true] at h
  exact absurd (h.2 '/' hmem) (by decide)

/-- Paths of addresses without a slash: what follows the address is a rest that is empty or starts
with a slash. -/
lemma append_inj_of_slash {address address' rest rest' : List Char} (h : '/' ∉ address)
    (h' : '/' ∉ address') (heq : address ++ '/' :: rest = address' ++ '/' :: rest') :
    address = address' ∧ rest = rest' := by
  have htake (text more : List Char) (hno : '/' ∉ text) :
      (text ++ '/' :: more).takeWhile (· != '/') = text := by
    rw [List.takeWhile_append_of_pos fun ch hch => by
      simpa using fun heq : ch = '/' => hno (heq ▸ hch)]
    simp
  have hsame : address = address' := by rw [← htake address rest h, heq, htake address' rest' h']
  subst hsame
  exact ⟨rfl, (List.cons.inj (List.append_cancel_left heq)).2⟩

/-- **A continued listing is permitted** only after a txid.

**Proof sketch.** The path is compared with each of the four kinds. All of them begin with an
address, and neither address has a slash in it, so the part behind it is the same in both: that of
the counters has none, that of the mempool and that of a first page are other words, and that of a
continued listing ends in a txid, which is then this one. -/
lemma isTxid_of_permitted {address txid : String} (haddress : isAddress address = true)
    (hall : ∀ a ∈ w.addresses, isAddress a = true)
    (h : Permitted w (chainPath address (some txid))) : isTxid txid = true := by
  obtain ⟨address', hmem, h⟩ := h
  have hslash := slash_notMem haddress
  have hslash' := slash_notMem (hall address' hmem)
  have hpath : (chainPath address (some txid)).toList =
      "/address/".toList ++ (address.toList ++ '/' :: ("txs/chain/".toList ++ txid.toList)) := by
    simp [chainPath, String.toList_append]
  have hsplit (rest : List Char) (heq : (chainPath address (some txid)).toList =
      "/address/".toList ++ (address'.toList ++ '/' :: rest)) :
      "txs/chain/".toList ++ txid.toList = rest := by
    rw [hpath] at heq
    exact (append_inj_of_slash hslash hslash' (List.append_cancel_left heq)).2
  rcases h with h | h | h | ⟨txid', htxid', h⟩
  · -- the counters of an address have no slash behind it
    have hlist := congrArg String.toList h
    rw [hpath, statsPath, String.toList_append] at hlist
    have hmem : '/' ∈ address'.toList := by
      rw [← List.append_cancel_left hlist]
      exact List.mem_append_right _ List.mem_cons_self
    exact absurd hmem hslash'
  · have hrest := hsplit "txs/mempool".toList
      (by rw [h]; simp [mempoolPath, String.toList_append])
    exact absurd (congrArg (·.take 5) hrest) (by simp)
  · have hrest := hsplit "txs/chain".toList
      (by rw [h]; simp [chainPath, String.toList_append])
    have hlength := congrArg List.length hrest
    simp at hlength
  · have hrest := hsplit ("txs/chain/".toList ++ txid'.toList)
      (by rw [h]; simp [chainPath, String.toList_append])
    have hsame : txid = txid' := String.toList_inj.mp (List.append_cancel_left hrest)
    exact hsame ▸ htxid'

end Requests

/-- **When every path is one of the four kinds**, for a wallet of an accepted file: when no full
page that a sync comes to sends the crawl on to anything but a txid.

**Proof sketch.** In one direction, a full page whose continuation is some txid makes the next
request one for the listing behind it, and such a path is permitted only after a txid
(`isTxid_of_permitted`). In the other, the kinds of requests are gone through: the addresses were
checked when the wallet was loaded, and a listing is continued only after the txid of a full
page. -/
theorem paths_permitted_iff (sha256Hex debug : String → String) (path : String)
    (files : List WalletFile) (wallets : List Wallet)
    (hload : load sha256Hex debug path files = .ok wallets) (p : ℕ → Provider) (w : Wallet)
    (hw : w ∈ wallets) :
    (∀ path, Requested p w path → Permitted w path) ↔
      ∀ n k m address rest s txid, SyncAt p w n m (address :: rest) → Crawling p address n k s →
        continuation (p k) address s.lastSeen = some (some txid) → isTxid txid = true := by
  have hloaded := load_spec hload w hw
  constructor
  · intro hpermitted n k m address rest s txid hsync hcrawl hnext
    have hmem := hsync.subset address List.mem_cons_self
    rcases chainTurn_lastSeen (p k) address s with
      ⟨s', hturn, hlast⟩ | ⟨result, -, hlast⟩
    · have hasked : s'.lastSeen = some txid := Option.some.inj (hlast.symm.trans hnext)
      have hpath := hpermitted _ (.chain hsync (.next hcrawl hturn))
      rw [hasked] at hpath
      exact isTxid_of_permitted (hloaded.address address hmem) hloaded.address hpath
    · cases hlast.symm.trans hnext
  · intro htxids path hrequested
    cases hrequested with
    | chain hsync hcrawl =>
      refine ⟨_, hsync.subset _ List.mem_cons_self, .inr (.inr ?_)⟩
      rename_i n k m address rest s
      cases hcrawl with
      | start => exact .inl rfl
      | next hbefore hturn =>
        rename_i k before
        rcases chainTurn_lastSeen (p k) address before with
          ⟨s', hturn', hlast⟩ | ⟨result, hturn', -⟩
        · cases hturn.symm.trans hturn'
          cases hasked : s.lastSeen with
          | none => exact .inl rfl
          | some txid =>
            exact .inr ⟨txid, htxids _ _ _ _ _ _ txid hsync hbefore (hasked ▸ hlast), rfl⟩
        · cases hturn.symm.trans hturn'
    | mempool hsync _ _ => exact ⟨_, hsync.subset _ List.mem_cons_self, .inr (.inl rfl)⟩
    | balances hat => exact ⟨_, hat.subset _ List.mem_cons_self, .inl rfl⟩
    | status hhead => exact ⟨_, List.mem_of_mem_head? hhead, .inl rfl⟩

/-- A wallet file with one address. -/
def exampleFile : List WalletFile := [⟨"savings", ["bc1qexample0"]⟩]

/-- The wallet that it configures, under a hash of the text's length. -/
def exampleWallet : Wallet where
  resourceId := "savings"
  addresses := ["bc1qexample0"]
  addressHash := "12"
  valid := isResourceId_savings

/-- The file of the example is accepted, and gives the one wallet that is in it. -/
lemma load_exampleFile :
    load (fun text => toString (asBytes text).length) id "wallets.json" exampleFile =
      .ok [exampleWallet] := by
  rfl

/-- The texts of the two pages of a cycle are txids. -/
lemma isTxid_cyclic : isTxid txidA = true ∧ isTxid txidB = true := by decide +kernel

/-- A full first page makes the sync ask for the page after its last txid. -/
lemma requested_of_continuation {p : Provider} {w : Wallet} {address txid : String}
    {rest : List String} (haddresses : w.addresses = address :: rest)
    (h : continuation p address none = some (some txid)) :
    Requested (fun _ => p) w (chainPath address (some txid)) := by
  rcases chainTurn_lastSeen p address ⟨[], none⟩ with ⟨s', hturn, hlast⟩ | ⟨result, -, hlast⟩
  · have hstart : SyncAt (fun _ => p) w 0 TxMap.empty (address :: rest) := haddresses ▸ .start
    rw [← Option.some.inj (hlast.symm.trans h)]
    exact .chain hstart (.next .start hturn)
  · cases hlast.symm.trans h

/-- A wallet whose listing is a cycle of full pages: a second page is asked for, and every path that
a sync asks for is one of the four kinds, however long the sync goes on. -/
theorem paths_permitted_iff_cyclic :
    Requested (fun _ => cyclicProvider) exampleWallet (chainPath "bc1qexample0" (some txidA)) ∧
      ∀ path, Requested (fun _ => cyclicProvider) exampleWallet path →
        Permitted exampleWallet path := by
  refine ⟨requested_of_continuation rfl (continuation_cyclic chainPath_none_ne (by simp)), ?_⟩
  refine (paths_permitted_iff _ _ _ _ _ load_exampleFile (fun _ => cyclicProvider) exampleWallet
    List.mem_cons_self).mpr ?_
  intro n k m address rest s txid _ _ hnext
  obtain ⟨page, tx, hpage, htx, heq⟩ := continuation_eq_some hnext
  obtain rfl := Option.some.inj heq
  rcases txid_of_listingProvider hpage htx with h | h
  · exact h ▸ isTxid_cyclic.1
  · exact h ▸ isTxid_cyclic.2

/-- A provider whose listings are full pages of a text that is not a txid. -/
def hostileProvider : Provider where
  get _ := .ok (.body (listingBody (fullPage "../../../fees")))
  parseTxs _ := .ok (fullPage "../../../fees")
  parseStats _ := .error "missing field at line 1 column 1"

/-- **A path of the provider's making**: the last text of a full page is asked after as it is, and
the sync refuses it only when the listing is complete. -/
theorem paths_permitted_hostile :
    load (fun text => toString (asBytes text).length) id "wallets.json" exampleFile =
      .ok [exampleWallet] ∧
    ∃ path, Requested (fun _ => hostileProvider) exampleWallet path ∧
      ¬ Permitted exampleWallet path := by
  refine ⟨load_exampleFile, chainPath "bc1qexample0" (some "../../../fees"), ?_, fun h => ?_⟩
  · exact requested_of_continuation rfl (continuation_full (getJson_body rfl rfl) nofun)
  · have htxid := isTxid_of_permitted (by decide) (by decide) h
    exact absurd htxid (by decide)

end Sumer.Bitcoin
