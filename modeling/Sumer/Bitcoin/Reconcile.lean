import Sumer.Bitcoin.Union

set_option relaxedAutoImplicit false
set_option autoImplicit false

/-!
# History against balances

The balances of a wallet are counters that the provider keeps of each address; its history nets
each transaction over all addresses of the wallet. When the provider's answers are those of one set
of transactions, the two come to the same figures: a sum over addresses of sums over transactions is
exchanged for one the other way round.

## Main definitions

* `Sumer.Bitcoin.Reports`: a provider whose answers are those of some transactions.
* `Sumer.Bitcoin.Plan.total`: the sum of the amounts of one section of a plan.

## Main results

* `Sumer.Bitcoin.netDelta_eq_sum`: a net figure is the sum of those of the addresses.
* `Sumer.Bitcoin.history_reconciles`: history and balances agree.
-/

namespace Sumer.Bitcoin

open Sumer.Wire

/-- The address of an output. -/
def Vout.isAt (o : Vout) (address : String) : Bool := o.scriptpubkeyAddress == some address

/-- What a transaction spends. -/
def Tx.prevouts (tx : Tx) : List Vout := tx.vin.filterMap Vin.prevout

/-- An output or the output of an input is at an address. -/
def Tx.touches (tx : Tx) (address : String) : Bool :=
  tx.vout.any (·.isAt address) || tx.prevouts.any (·.isAt address)

/-- The transactions of an address, confirmed or not. -/
def listedAt (world : List Tx) (confirmed : Bool) (address : String) : List Tx :=
  world.filter fun tx => tx.status.confirmed == confirmed && tx.touches address

/-- Counters of an address over some transactions. -/
structure Counts (s : Stats) (address : String) (txs : List Tx) : Prop where
  funded : (s.fundedTxoSum.val : ℤ) =
    (txs.map fun tx => sumOf (tx.vout.filter (·.isAt address))).sum
  spent : (s.spentTxoSum.val : ℤ) =
    (txs.map fun tx => sumOf (tx.prevouts.filter (·.isAt address))).sum

/-- **A provider whose answers are those of some transactions**, about the addresses of a wallet. -/
structure Reports (r : Responses) (w : Wallet) (world : List Tx) : Prop where
  nodup : world.Nodup
  copies : ∀ x ∈ world, ∀ y ∈ world, x.txid = y.txid → x = y
  heights : ∀ tx ∈ world, tx.status.confirmed = true → tx.height.isSome = true
  chain : ∀ address ∈ w.addresses, ∃ txs, r.addressChain address = .ok txs ∧
    ∀ tx, tx ∈ txs ↔ tx ∈ listedAt world true address
  mempool : ∀ address ∈ w.addresses, ∃ txs, r.addressMempool address = .ok txs ∧
    ∀ tx, tx ∈ txs ↔ tx ∈ listedAt world false address
  stats : ∀ address ∈ w.addresses, ∃ s, r.addressStats address = .ok s ∧
    Counts s.chainStats address (listedAt world true address) ∧
    Counts s.mempoolStats address (listedAt world false address)

/-- A key of the confirmed section. -/
def Key.isConfirmed : Key → Bool
  | .confirmed _ _ => true
  | .mempool _ => false

/-- The sum of the amounts of the items of one section. -/
def Plan.total (p : Plan) (confirmed : Bool) : ℤ :=
  ((p.items.filter fun i => i.1.isConfirmed == confirmed).map fun i => i.2.amount.units).sum

/-! ### Sums over the addresses -/

section Sums

variable {tx : Tx} {owned : List String} {address : String} {outputs : List Vout}

/-- A sum of sums, the other way round. -/
lemma sum_map_sum_map {α β : Type} (xs : List α) (ys : List β) (f : α → β → ℤ) :
    (xs.map fun x => (ys.map fun y => f x y).sum).sum =
      (ys.map fun y => (xs.map fun x => f x y).sum).sum := by
  simpa using Multiset.sum_map_sum_map (xs : Multiset α) (ys : Multiset β) (f := f)

/-- What does not count may be left out of a sum. -/
lemma sum_filter_map {α : Type} {xs : List α} (keep : α → Bool) {f : α → ℤ}
    (h : ∀ x ∈ xs, keep x = false → f x = 0) :
    ((xs.filter keep).map f).sum = (xs.map f).sum := by
  induction xs with
  | nil => rfl
  | cons x xs ih =>
    have ih := ih fun y hy => h y (List.mem_cons_of_mem _ hy)
    rw [List.filter_cons]
    cases hx : keep x with
    | true => simp [ih]
    | false => simp [ih, h x List.mem_cons_self hx]

/-- The outputs of a wallet, address by address.

**Proof sketch.** Induction on the outputs. An output of the wallet is at exactly one of its
addresses, since these are distinct, and counts there once. -/
lemma sumOf_filter_isOwned (howned : owned.Nodup) :
    sumOf (outputs.filter (·.isOwned owned)) =
      (owned.map fun address => sumOf (outputs.filter (·.isAt address))).sum := by
  induction outputs with
  | nil => simp [sumOf]
  | cons o outputs ih =>
    have hcons (keep : Vout → Bool) : sumOf ((o :: outputs).filter keep) =
        (if keep o then (o.value.val : ℤ) else 0) + sumOf (outputs.filter keep) := by
      rw [List.filter_cons]
      split_ifs <;> simp [sumOf]
    have hone : (owned.map fun address => if o.isAt address then (o.value.val : ℤ) else 0).sum =
        if o.isOwned owned then (o.value.val : ℤ) else 0 := by
      unfold Vout.isAt Vout.isOwned
      cases o.scriptpubkeyAddress with
      | none => simp
      | some a =>
        simp only [beq_iff_eq, Option.some.injEq, Option.any_some, List.contains_eq_mem,
          decide_eq_true_eq]
        simp only [eq_comm (a := a)]
        rw [List.sum_map_ite_eq owned (fun _ => (o.value.val : ℤ)) (fun _ => 0) a]
        split_ifs with hmem
        · simp [List.count_eq_one_of_mem howned hmem]
        · simp [List.count_eq_zero_of_not_mem hmem]
    simp only [hcons, List.sum_map_add, ih, hone]

/-- What an address gains from a transaction. -/
def Tx.netAt (tx : Tx) (address : String) : ℤ :=
  sumOf (tx.vout.filter (·.isAt address)) - sumOf (tx.prevouts.filter (·.isAt address))

/-- The sum of some differences is the difference of the two sums. -/
lemma sum_map_sub {α : Type} (xs : List α) (f g : α → ℤ) :
    (xs.map fun x => f x - g x).sum = (xs.map f).sum - (xs.map g).sum := by
  simpa using Multiset.sum_map_sub (m := (xs : Multiset α)) (f := f) (g := g)

/-- **A net figure is the sum of those of the addresses.** -/
lemma netDelta_eq_sum (howned : owned.Nodup) :
    netDelta tx owned = (owned.map tx.netAt).sum := by
  rw [netDelta, Tx.spent, sumOf_filter_isOwned howned, sumOf_filter_isOwned howned, ← sum_map_sub]
  rfl

/-- An address gains nothing from a transaction that does not touch it. -/
lemma netAt_eq_zero (h : tx.touches address = false) : tx.netAt address = 0 := by
  rw [Tx.touches, Bool.or_eq_false_iff, List.any_eq_false, List.any_eq_false] at h
  rw [Tx.netAt, List.filter_eq_nil_iff.mpr fun o ho => h.1 o ho,
    List.filter_eq_nil_iff.mpr fun o ho => h.2 o ho, sub_self]

/-- What the counters of an address come to. -/
lemma Counts.net_eq {s : Stats} {world : List Tx} {confirmed : Bool}
    (h : Counts s address (listedAt world confirmed address)) :
    s.net = ((world.filter fun tx => tx.status.confirmed == confirmed).map
      (·.netAt address)).sum := by
  have hsplit : listedAt world confirmed address =
      (world.filter fun tx => tx.status.confirmed == confirmed).filter (·.touches address) := by
    rw [List.filter_filter, listedAt]
    simp only [Bool.and_comm]
  rw [Stats.net, h.funded, h.spent, ← sum_map_sub, hsplit]
  exact sum_filter_map (fun tx : Tx => tx.touches address) fun tx _ htx => netAt_eq_zero htx

/-- A net figure is bounded by the inputs and outputs.

**Proof sketch.** What is received is a sum over some of the outputs, and what is spent one over
some of the inputs; each amount is a number of 64 bits. -/
lemma abs_netDelta_le (tx : Tx) (owned : List String) :
    |netDelta tx owned| ≤ ((tx.vin.length + tx.vout.length : ℕ) : ℤ) * 2 ^ 64 := by
  have hbound (outputs : List Vout) :
      0 ≤ sumOf outputs ∧ sumOf outputs ≤ (outputs.length : ℤ) * 2 ^ 64 := by
    induction outputs with
    | nil => simp [sumOf]
    | cons o rest ih =>
      have hvalue : (o.value.val : ℤ) < 2 ^ 64 := by exact_mod_cast o.value.isLt
      simp only [sumOf, List.map_cons, List.sum_cons, List.length_cons, Nat.cast_add,
        Nat.cast_one] at ih ⊢
      omega
  have hreceived := hbound (tx.vout.filter (·.isOwned owned))
  have hspent := hbound (tx.spent owned)
  have hvout : (tx.vout.filter (·.isOwned owned)).length ≤ tx.vout.length :=
    List.length_filter_le _ _
  have hvin : (tx.spent owned).length ≤ tx.vin.length :=
    (List.length_filter_le _ _).trans (List.length_filterMap_le _ _)
  rw [netDelta, abs_le]
  push_cast
  constructor <;> omega

/-- A sum of net figures is bounded by the inputs and outputs in all. -/
lemma abs_sum_netDelta_le (txs : List Tx) (owned : List String) :
    |(txs.map (netDelta · owned)).sum| ≤
      (((txs.map fun tx => tx.vin.length + tx.vout.length).sum : ℕ) : ℤ) * 2 ^ 64 := by
  induction txs with
  | nil => simp
  | cons tx txs ih =>
    have hone := abs_netDelta_le tx owned
    rw [List.map_cons, List.map_cons, List.sum_cons, List.sum_cons, Nat.cast_add, add_mul]
    exact (abs_add_le _ _).trans (add_le_add hone ih)

end Sums

/-! ### The two figures -/

section Reports

variable {r : Responses} {w : Wallet} {world : List Tx}

/-- The transactions of a kind. -/
def ofKind (world : List Tx) (confirmed : Bool) : List Tx :=
  world.filter fun tx => tx.status.confirmed == confirmed

/-- What some addresses gain from the transactions of a kind. -/
def gained (world : List Tx) (confirmed : Bool) (addresses : List String) : ℤ :=
  (addresses.map fun address => ((ofKind world confirmed).map (·.netAt address)).sum).sum

/-- **What some addresses gain** is the sum of the net figures of the transactions. -/
lemma gained_eq (world : List Tx) (confirmed : Bool) {addresses : List String}
    (h : addresses.Nodup) :
    gained world confirmed addresses =
      ((ofKind world confirmed).map (netDelta · addresses)).sum := by
  rw [gained, sum_map_sum_map]
  simp only [netDelta_eq_sum h]

/-- What the counters of some addresses add up to. -/
lemma Reports.sumStats_eq (h : Reports r w world) {addresses : List String}
    (hsub : ∀ address ∈ addresses, address ∈ w.addresses) (sums : ℤ × ℤ) :
    sumStats r sums addresses =
      .ok (sums.1 + gained world true addresses, sums.2 + gained world false addresses) := by
  induction addresses generalizing sums with
  | nil => simp [sumStats, gained]
  | cons address rest ih =>
    obtain ⟨s, hs, hchain, hmempool⟩ := h.stats address (hsub address List.mem_cons_self)
    have ih := ih (fun a ha => hsub a (List.mem_cons_of_mem _ ha))
      (sums.1 + s.chainStats.net, sums.2 + s.mempoolStats.net)
    rw [sumStats, hs]
    refine ih.trans ?_
    rw [hchain.net_eq, hmempool.net_eq]
    simp only [gained, List.map_cons, List.sum_cons, ofKind, add_assoc]

/-- What is listed is of the world.

**Proof sketch.** The listings of an address are, in some order, the transactions of the world that
touch it, confirmed and unconfirmed. So what is listed is of the world and touches an address, and
what does is in one of the two listings of that address. -/
lemma Reports.listed_iff (h : Reports r w world) (tx : Tx) :
    Listed r w tx ↔ tx ∈ world ∧ ∃ address ∈ w.addresses, tx.touches address = true := by
  have hlistedAt (confirmed : Bool) (address : String) : tx ∈ listedAt world confirmed address ↔
      tx ∈ world ∧ tx.status.confirmed = confirmed ∧ tx.touches address = true := by
    simp [listedAt, List.mem_filter]
  constructor
  · rintro ⟨address, haddress, ⟨txs, htxs, htx⟩ | ⟨txs, htxs, htx⟩⟩
    · obtain ⟨txs', htxs', hmem⟩ := h.chain address haddress
      cases htxs.symm.trans htxs'
      obtain ⟨hworld, -, htouches⟩ := (hlistedAt true address).mp ((hmem tx).mp htx)
      exact ⟨hworld, address, haddress, htouches⟩
    · obtain ⟨txs', htxs', hmem⟩ := h.mempool address haddress
      cases htxs.symm.trans htxs'
      obtain ⟨hworld, -, htouches⟩ := (hlistedAt false address).mp ((hmem tx).mp htx)
      exact ⟨hworld, address, haddress, htouches⟩
  · rintro ⟨hworld, address, haddress, htouches⟩
    refine ⟨address, haddress, ?_⟩
    cases hconfirmed : tx.status.confirmed with
    | true =>
      obtain ⟨txs, htxs, hmem⟩ := h.chain address haddress
      exact .inl ⟨txs, htxs, (hmem tx).mpr ((hlistedAt true address).mpr
        ⟨hworld, hconfirmed, htouches⟩)⟩
    | false =>
      obtain ⟨txs, htxs, hmem⟩ := h.mempool address haddress
      exact .inr ⟨txs, htxs, (hmem tx).mpr ((hlistedAt false address).mpr
        ⟨hworld, hconfirmed, htouches⟩)⟩

/-- **What a sync holds** of such a provider: the transactions that touch the wallet. -/
lemma Reports.perm_sync (h : Reports r w world) {s : Snapshot} (hs : sync r w = .ok s) :
    s.txs.Perm (world.filter fun tx => w.addresses.any tx.touches) := by
  have hsame {x y : Tx} (hx : Listed r w x) (hy : Listed r w y) (htxid : x.txid = y.txid) : x = y :=
    h.copies x ((h.listed_iff x).mp hx).1 y ((h.listed_iff y).mp hy).1 htxid
  have hconsistent : Consistent r w := fun x y hx hy htxid _ => hsame hx hy htxid
  refine (List.perm_ext_iff_of_nodup (s.sorted.imp fun hlt heq => (heq ▸ hlt).false)
    (h.nodup.filter _)).mpr fun tx => ?_
  rw [mem_sync hconsistent hs, Chosen, mem_listing, List.mem_filter, List.any_eq_true,
    ← h.listed_iff]
  refine and_iff_left_of_imp fun hlisted => ?_
  cases hheight : tx.height.isSome with
  | true => exact .inl rfl
  | false =>
    refine .inr fun y hy htxid => ?_
    rw [hsame (mem_listing.mp hy) hlisted htxid]
    simpa using hheight

/-- A transaction of the world is confirmed when it has a height. -/
lemma Reports.height_iff (h : Reports r w world) {tx : Tx} (htx : tx ∈ world) :
    tx.height.isSome = tx.status.confirmed := by
  cases hconfirmed : tx.status.confirmed with
  | true => exact h.heights tx htx hconfirmed
  | false =>
    rw [Tx.height, hconfirmed]
    rfl

/-- The net figures of what a sync holds, in one section.

**Proof sketch.** What a sync holds of a kind are the transactions of the world of that kind that
touch the wallet. The others have a net figure of zero, so the sum may be taken over the world, and
then address by address. -/
lemma Reports.sum_sync (h : Reports r w world) (hnodup : w.addresses.Nodup) {s : Snapshot}
    (hs : sync r w = .ok s) (confirmed : Bool) :
    ((s.txs.filter fun tx => tx.height.isSome == confirmed).map
      (netDelta · w.addresses)).sum = gained world confirmed w.addresses := by
  have hkind : (world.filter fun tx => tx.height.isSome == confirmed) = ofKind world confirmed :=
    List.filter_congr fun tx htx => by rw [h.height_iff htx]
  have hzero : ∀ tx ∈ ofKind world confirmed, w.addresses.any tx.touches = false →
      netDelta tx w.addresses = 0 := by
    intro tx _ htouches
    rw [netDelta_eq_sum hnodup]
    refine List.sum_eq_zero fun x hx => ?_
    obtain ⟨address, haddress, rfl⟩ := List.mem_map.mp hx
    refine netAt_eq_zero ?_
    simpa using List.any_eq_false.mp htouches address haddress
  calc ((s.txs.filter fun tx => tx.height.isSome == confirmed).map (netDelta · w.addresses)).sum
      = (((world.filter fun tx => w.addresses.any tx.touches).filter fun tx =>
          tx.height.isSome == confirmed).map (netDelta · w.addresses)).sum :=
        (((h.perm_sync hs).filter _).map _).sum_eq
    _ = (((ofKind world confirmed).filter fun tx => w.addresses.any tx.touches).map
          (netDelta · w.addresses)).sum := by
        rw [List.filter_comm, hkind]
    _ = ((ofKind world confirmed).map (netDelta · w.addresses)).sum :=
        sum_filter_map (fun tx : Tx => w.addresses.any tx.touches) hzero
    _ = gained world confirmed w.addresses := (gained_eq world confirmed hnodup).symm

end Reports

section Plan

variable {ctx : Ctx} {owned : List String} {tx : Tx} {o : ObservationWire}

/-- The amount of an observation is the net figure, in satoshis. -/
lemma active_amount (h : active ctx tx owned = .ok o) :
    o.amount.units = netDelta tx owned ∧ o.amount.scale = 0 ∧ o.amount.asset = satAsset := by
  have hdelta := sats_eq (digitCount_le (netDelta_lt tx owned))
  unfold active at h
  simp only [hdelta] at h
  split at h
  · cases h
  · split at h
    · cases h
    · cases h
      exact ⟨rfl, rfl, rfl⟩

/-- Nothing is below the start of the history. -/
lemma above_none (htxid : isTxid tx.txid = true) : above none tx.key = true := by
  unfold Tx.key
  cases tx.height with
  | none => rfl
  | some height =>
    have hne : tx.txid ≠ "" := fun h => by
      rw [h] at htxid
      exact absurd htxid (by decide)
    have hlt : bottom < toLex (height, tx.txid) := by
      refine lt_of_le_of_ne (bottom_le _) fun heq => hne ?_
      exact (congrArg (fun m : Mark => (ofLex m).2) heq).symm
    simp only [above, Option.elim, Bool.not_eq_true']
    exact decide_eq_false (not_le.mpr hlt)

/-- **The sections of a plan with no cursor** add up to the net figures of what the sync holds.

**Proof sketch.** The items of the plan are, up to their order, the items of the transactions of the
snapshot, since both are without repetition and have the same members (`plan_spec`). The sum of
their amounts is then taken transaction by transaction: each has an item, of the section of its
height, whose amount is the net figure. -/
lemma total_plan (snapshot : Snapshot) (hmapped : Mapped ctx owned snapshot.txs) {p : Plan}
    (hp : plan ctx snapshot.toChain owned none = .ok p) (confirmed : Bool) :
    p.total confirmed =
      ((snapshot.txs.filter fun tx => tx.height.isSome == confirmed).map
        (netDelta · owned)).sum := by
  obtain ⟨items, hitems, hincreasing, hmem⟩ := plan_spec ctx owned snapshot hmapped none
  cases hitems.symm.trans hp
  have hkey {tx : Tx} {i : Item} (h : itemOf ctx owned tx = some i) :
      i.1 = tx.key ∧ i.2.amount.units = netDelta tx owned := by
    obtain ⟨o, ho, rfl⟩ := Option.map_eq_some_iff.mp h
    cases hactive : active ctx tx owned with
    | error e =>
      rw [hactive] at ho
      cases ho
    | ok o' =>
      rw [hactive] at ho
      cases ho
      exact ⟨rfl, (active_amount hactive).1⟩
  have hperm : items.Perm (snapshot.txs.filterMap (itemOf ctx owned)) := by
    have hnodup : (snapshot.txs.filterMap (itemOf ctx owned)).Nodup := by
      refine List.pairwise_filterMap.mpr (snapshot.sorted.imp fun {x y} hlt i hi j hj heq => ?_)
      have htxid := congrArg Key.txid ((hkey hi).1.symm.trans (heq ▸ (hkey hj).1))
      rw [Tx.txid_key, Tx.txid_key] at htxid
      exact hlt.ne htxid
    refine (List.perm_ext_iff_of_nodup
      (hincreasing.imp fun hlt heq => (heq ▸ hlt).false) hnodup).mpr fun i => ?_
    rw [hmem, List.mem_filterMap]
    refine exists_congr fun tx => and_congr_right fun htx => and_iff_right ?_
    exact above_none (snapshot.txids tx htx)
  rw [Plan.total, ((hperm.filter _).map _).sum_eq]
  clear hperm hmem hincreasing hp hitems
  have hmapped := hmapped
  generalize snapshot.txs = txs at hmapped ⊢
  induction txs with
  | nil => rfl
  | cons tx txs ih =>
    have ih := ih fun tx htx => hmapped tx (List.mem_cons_of_mem _ htx)
    obtain ⟨o, ho⟩ := hmapped tx List.mem_cons_self
    have hitem : itemOf ctx owned tx = some (tx.key, o) := by
      rw [itemOf, ho]
      rfl
    have hconfirmed : tx.key.isConfirmed = tx.height.isSome := by
      unfold Tx.key
      cases tx.height <;> rfl
    rw [List.filterMap_cons_some hitem, List.filter_cons, List.filter_cons, hconfirmed]
    split_ifs
    · rw [List.map_cons, List.map_cons, List.sum_cons, List.sum_cons, ih, (active_amount ho).1]
    · exact ih

end Plan

/-- **History reconciles with balances**, for a provider whose answers are those of one set of
transactions, with block times that can be mapped, and fewer than `2 ^ 60` inputs and outputs in
all: the amounts of each section of the plan add up to the balance, and no sum on the way leaves
`i128`.

**Proof sketch.** The balance of an address is, over a consistent provider, what the transactions of
the world gained it, so the balances are two sums over the world (`sumStats_eq`); the plan adds up
to the same sums, since a sync holds each transaction of the world that touches the wallet once and
the others gain nothing (`total_plan`). The bounds hold because an amount is below 2 ^ 64 in size
and there are fewer than 2 ^ 60 of them, in any prefix of the addresses, of the outputs and of the
inputs. -/
theorem history_reconciles (r : Responses) (w : Wallet) (world : List Tx)
    (hnodup : w.addresses.Nodup) (hreports : Reports r w world)
    (htimes : ∀ tx ∈ world, ∀ t, tx.status.blockTime = some t → ∃ ts, rfc3339Utc t = .ok ts)
    (hcount : (world.map fun tx => tx.vin.length + tx.vout.length).sum < 2 ^ 60) :
    (∃ confirmed unconfirmed, balances r w = .ok (confirmed, unconfirmed)) ∧
    ((∀ tx ∈ world, isTxid tx.txid = true) → ∃ s, sync r w = .ok s) ∧
    (∀ s, sync r w = .ok s → ∀ ctx, ∃ p, plan ctx s.toChain w.owned none = .ok p ∧
      (∀ i ∈ p.items, i.2.amount.scale = 0 ∧ i.2.amount.asset = satAsset) ∧
      ∀ confirmed unconfirmed, balances r w = .ok (confirmed, unconfirmed) →
        p.total true = confirmed ∧ p.total false = unconfirmed) ∧
    (∀ addresses, addresses <+: w.addresses → ∀ confirmed unconfirmed,
      sumStats r (0, 0) addresses = .ok (confirmed, unconfirmed) →
        |confirmed| < 2 ^ 127 ∧ |unconfirmed| < 2 ^ 127) ∧
    ∀ tx : Tx, |netDelta tx w.owned| < 2 ^ 127 ∧
      (∀ outputs, outputs <+: tx.vout.filter (·.isOwned w.owned) → |sumOf outputs| < 2 ^ 127) ∧
      ∀ outputs, outputs <+: tx.spent w.owned → |sumOf outputs| < 2 ^ 127 := by
  have hbalances : balances r w =
      .ok (gained world true w.addresses, gained world false w.addresses) := by
    rw [balances, hreports.sumStats_eq (fun _ h => h), zero_add, zero_add]
  refine ⟨⟨_, _, hbalances⟩, fun htxids => ?_, fun s hs ctx => ?_, ?_, fun tx => ⟨?_, ?_, ?_⟩⟩
  · refine (exists_sync_iff r w).mpr ⟨fun address haddress => ?_, fun tx htx => ?_⟩
    · obtain ⟨txs, htxs, -⟩ := hreports.chain address haddress
      obtain ⟨txs', htxs', -⟩ := hreports.mempool address haddress
      exact ⟨⟨txs, htxs⟩, ⟨txs', htxs'⟩⟩
    · exact htxids tx ((hreports.listed_iff tx).mp htx).1
  · have hmapped : Mapped ctx w.owned s.txs := fun tx htx => by
      have hworld := (List.mem_filter.mp ((hreports.perm_sync hs).mem_iff.mp htx)).1
      exact active_isOk_iff.mpr (htimes tx hworld)
    obtain ⟨items, hp, -, -⟩ := plan_spec ctx w.owned s hmapped none
    refine ⟨_, hp, fun i hi => ?_, fun confirmed unconfirmed hok => ?_⟩
    · obtain ⟨tx, -, hactive, -⟩ := mem_plan hp hi
      exact (active_amount hactive).2
    · cases hbalances.symm.trans hok
      rw [total_plan s hmapped hp, total_plan s hmapped hp]
      exact ⟨hreports.sum_sync hnodup hs true, hreports.sum_sync hnodup hs false⟩
  · intro addresses hpre confirmed unconfirmed hok
    have hsum := hreports.sumStats_eq (fun a ha => hpre.subset ha) (0, 0)
    cases hsum.symm.trans hok
    have hbound (kind : Bool) : |gained world kind addresses| < 2 ^ 127 := by
      rw [gained_eq world kind (hpre.sublist.nodup hnodup)]
      have hle := abs_sum_netDelta_le (ofKind world kind) addresses
      have hsub : ((ofKind world kind).map fun tx => tx.vin.length + tx.vout.length).sum ≤
          (world.map fun tx => tx.vin.length + tx.vout.length).sum :=
        List.Sublist.sum_le_sum (List.filter_sublist.map _) fun _ _ => Nat.zero_le _
      have hcast := Int.ofNat_lt.mpr (hsub.trans_lt hcount)
      push_cast at hle hcast ⊢
      omega
    rw [zero_add, zero_add]
    exact ⟨hbound true, hbound false⟩
  · rw [Int.abs_eq_natAbs]
    exact_mod_cast netDelta_lt tx w.owned
  · intro outputs hpre
    have := sumOf_lt outputs
      (hpre.length_le.trans_lt ((List.length_filter_le _ _).trans_lt tx.vout_lt))
    exact abs_lt.mpr ⟨by omega, this.2⟩
  · intro outputs hpre
    have := sumOf_lt outputs (hpre.length_le.trans_lt
      (((List.length_filter_le _ _).trans (List.length_filterMap_le _ _)).trans_lt tx.vin_lt))
    exact abs_lt.mpr ⟨by omega, this.2⟩

/-- A wallet with two addresses. -/
def twoAddresses : Wallet :=
  ⟨"savings", ["bc1qexample0", "bc1qexample1"], "", isResourceId_savings⟩

/-- A payment of 5 satoshis to one address and of 7 to the other, in a block. -/
def paymentTx : Tx where
  txid := txidA
  fee := 1
  status := ⟨true, some 800000, none, some 1700000000⟩
  vin := [⟨none⟩]
  vout := [⟨some "bc1qexample0", 5⟩, ⟨some "bc1qexample1", 7⟩]
  vin_lt := by decide
  vout_lt := by decide

/-- A payment that waits to be mined: it spends the 5 satoshis, and 3 of them go to the other
address. -/
def changeTx : Tx where
  txid := txidB
  fee := 1
  status := ⟨false, none, none, none⟩
  vin := [⟨some ⟨some "bc1qexample0", 5⟩⟩]
  vout := [⟨some "bc1qexample1", 3⟩, ⟨none, 1⟩]
  vin_lt := by decide
  vout_lt := by decide

/-- What is answered about the two addresses: each of them is in both transactions. -/
def paidResponses : Responses where
  addressChain _ := .ok [paymentTx]
  addressMempool _ := .ok [changeTx]
  addressStats address :=
    .ok (if address = "bc1qexample0" then ⟨⟨5, 0⟩, ⟨0, 5⟩⟩ else ⟨⟨7, 0⟩, ⟨3, 0⟩⟩)
  now := 1700000000

/-- Two addresses that share both of their transactions: a transaction counts once in the history,
with what it changes for the wallet as a whole.

**Proof sketch.** Both addresses list the payment as confirmed and the change as waiting, and each
counts both. The provider is thus consistent with a world of two transactions, and the plan adds up
to the net figures of the two. -/
theorem history_reconciles_payment :
    ∃ s, sync paidResponses twoAddresses = .ok s ∧ ∀ ctx, ∃ p,
      plan ctx s.toChain twoAddresses.owned none = .ok p ∧ p.total true = 12 ∧
        p.total false = -2 := by
  have hlisted : ∀ address ∈ twoAddresses.addresses,
      listedAt [paymentTx, changeTx] true address = [paymentTx] ∧
        listedAt [paymentTx, changeTx] false address = [changeTx] := by decide
  have hcounts : ∀ address ∈ twoAddresses.addresses, ∃ s,
      paidResponses.addressStats address = .ok s ∧ Counts s.chainStats address [paymentTx] ∧
        Counts s.mempoolStats address [changeTx] :=
    List.forall_mem_cons.mpr ⟨⟨_, rfl, ⟨by decide, by decide⟩, ⟨by decide, by decide⟩⟩,
      List.forall_mem_singleton.mpr ⟨_, rfl, ⟨by decide, by decide⟩, ⟨by decide, by decide⟩⟩⟩
  have hreports : Reports paidResponses twoAddresses [paymentTx, changeTx] := by
    refine ⟨by decide, by decide, by decide, fun address h => ?_, fun address h => ?_,
      fun address h => ?_⟩
    · exact ⟨[paymentTx], rfl, fun tx => by rw [(hlisted address h).1]⟩
    · exact ⟨[changeTx], rfl, fun tx => by rw [(hlisted address h).2]⟩
    · rw [(hlisted address h).1, (hlisted address h).2]
      exact hcounts address h
  have htimes : ∀ tx ∈ [paymentTx, changeTx], ∀ t, tx.status.blockTime = some t →
      ∃ ts, rfc3339Utc t = .ok ts :=
    List.forall_mem_cons.mpr ⟨fun t ht => exists_eq_ok_iff.mpr (by cases ht; decide +kernel),
      List.forall_mem_singleton.mpr fun t ht => by cases ht⟩
  obtain ⟨s, hs⟩ := exists_eq_ok_iff.mpr
    (by decide +kernel : (sync paidResponses twoAddresses).toOption.isSome = true)
  refine ⟨s, hs, fun ctx => ?_⟩
  obtain ⟨-, -, hplan, -⟩ := history_reconciles paidResponses twoAddresses [paymentTx, changeTx]
    (by decide) hreports htimes (by decide)
  obtain ⟨p, hp, -, htotal⟩ := hplan s hs ctx
  exact ⟨p, hp, htotal 12 (-2) rfl⟩

end Sumer.Bitcoin
