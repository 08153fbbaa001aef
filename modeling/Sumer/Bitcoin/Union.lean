import Sumer.Bitcoin.Cursors
import Sumer.Bitcoin.Source

set_option relaxedAutoImplicit false
set_option autoImplicit false

/-!
# What a sync holds

A sync takes its listings in one after the other, and lets a confirmed copy of a transaction replace
the one it has. What it holds in the end is told without that order: of every txid the copy that the
listings agree on, a confirmed one if there is one.

## Main definitions

* `Sumer.Bitcoin.Listed`: what a listing of a wallet carries.
* `Sumer.Bitcoin.Consistent`: listings that agree on their transactions.
* `Sumer.Bitcoin.Chosen`: the copies that are kept.

## Main results

* `Sumer.Bitcoin.sync_union`: a sync is the union of its listings.
-/

namespace Sumer.Bitcoin

/-- Copies of one transaction that are both confirmed, or both not, are one. -/
def Agree (txs : List Tx) : Prop :=
  ∀ x ∈ txs, ∀ y ∈ txs, x.txid = y.txid → x.height.isSome = y.height.isSome → x = y

/-- The copy of a transaction that is kept: a confirmed one, or one while there is none. -/
def Chosen (txs : List Tx) (tx : Tx) : Prop :=
  tx ∈ txs ∧ (tx.height.isSome = true ∨ ∀ y ∈ txs, y.txid = tx.txid → y.height = none)

/-- A map holds what is chosen of some transactions. -/
def TxMap.Holds (m : TxMap) (txs : List Tx) : Prop := ∀ tx, tx ∈ m.txs ↔ Chosen txs tx

/-- A listing of a wallet carries a transaction. -/
def Listed (r : Responses) (w : Wallet) (tx : Tx) : Prop :=
  ∃ address ∈ w.addresses, (∃ txs, r.addressChain address = .ok txs ∧ tx ∈ txs) ∨
    ∃ txs, r.addressMempool address = .ok txs ∧ tx ∈ txs

/-- A provider whose listings are consistent. -/
def Consistent (r : Responses) (w : Wallet) : Prop :=
  ∀ x y, Listed r w x → Listed r w y → x.txid = y.txid → x.height.isSome = y.height.isSome → x = y

/-- A listing that is another one in some order. -/
def Reordered (x y : Except FetchError (List Tx)) : Prop :=
  ∀ txs, x = .ok txs → ∃ txs', y = .ok txs' ∧ txs'.Perm txs

section Gather

variable {m m' : TxMap} {txs more : List Tx} {tx x : Tx} {address : String}

/-- What a map holds after an insertion.

**Proof sketch.** Induction on the sorted list, by where the new txid stands: before the head, and
then it is none of those in the list; at the head, which it replaces; or behind it, where the
induction hypothesis applies. -/
lemma mem_insertTx_iff {txs : List Tx} (h : txs.Pairwise fun a b => a.txid < b.txid) {x : Tx} :
    x ∈ insertTx tx txs ↔ x = tx ∨ (x ∈ txs ∧ x.txid ≠ tx.txid) := by
  induction txs with
  | nil => simp [insertTx]
  | cons other rest ih =>
    obtain ⟨hother, hrest⟩ := List.pairwise_cons.mp h
    rw [insertTx]
    split_ifs with hlt heq
    · have hne : ∀ y ∈ other :: rest, y.txid ≠ tx.txid := fun y hy => by
        rcases List.mem_cons.mp hy with rfl | hy
        · exact hlt.ne'
        · exact (hlt.trans (hother y hy)).ne'
      rw [List.mem_cons]
      exact or_congr_right ⟨fun hx => ⟨hx, hne x hx⟩, And.left⟩
    · have hne : ∀ y ∈ rest, y.txid ≠ tx.txid := fun y hy => heq ▸ (hother y hy).ne'
      rw [List.mem_cons, List.mem_cons]
      refine or_congr_right ⟨fun hx => ⟨.inr hx, hne x hx⟩, ?_⟩
      rintro ⟨hx, hxne⟩
      exact hx.resolve_left fun hxother => hxne (hxother ▸ heq.symm)
    · have hne : other.txid ≠ tx.txid := fun h => heq h.symm
      rw [List.mem_cons, List.mem_cons, ih hrest]
      constructor
      · rintro (rfl | rfl | ⟨hx, hxne⟩)
        · exact .inr ⟨.inl rfl, hne⟩
        · exact .inl rfl
        · exact .inr ⟨.inr hx, hxne⟩
      · rintro (rfl | ⟨rfl | hx, hxne⟩)
        · exact .inr (.inl rfl)
        · exact .inl rfl
        · exact .inr (.inr ⟨hx, hxne⟩)

/-- Some copy of every transaction is held. -/
lemma TxMap.Holds.exists_copy (h : m.Holds txs) (htx : tx ∈ txs) :
    ∃ y ∈ m.txs, y.txid = tx.txid := by
  by_cases hconfirmed : ∃ y ∈ txs, y.txid = tx.txid ∧ y.height.isSome = true
  · obtain ⟨y, hy, htxid, hheight⟩ := hconfirmed
    exact ⟨y, (h y).mpr ⟨hy, .inl hheight⟩, htxid⟩
  · push Not at hconfirmed
    exact ⟨tx, (h tx).mpr ⟨htx, .inr fun y hy htxid => by simpa using hconfirmed y hy htxid⟩, rfl⟩

/-- A copy of a transaction is held just when the listings have one. -/
lemma TxMap.Holds.any_iff (h : m.Holds txs) :
    m.txs.any (·.txid == tx.txid) = true ↔ ∃ y ∈ txs, y.txid = tx.txid := by
  rw [List.any_eq_true]
  constructor
  · rintro ⟨y, hy, htxid⟩
    exact ⟨y, ((h y).mp hy).1, by simpa using htxid⟩
  · rintro ⟨y, hy, htxid⟩
    obtain ⟨z, hz, hzid⟩ := h.exists_copy hy
    exact ⟨z, hz, by simpa using hzid.trans htxid⟩

/-- Of the other transactions the copies that are chosen stay as they were. -/
lemma chosen_concat_of_ne (hxid : x.txid ≠ tx.txid) : Chosen (txs ++ [tx]) x ↔ Chosen txs x := by
  have hne : x ≠ tx := fun heq => hxid (congrArg Tx.txid heq)
  simp only [Chosen, List.mem_append, List.mem_singleton, hne, or_false]
  refine and_congr_right fun _ => or_congr_right ⟨fun hall y hy => hall y (.inl hy), ?_⟩
  rintro hall y (hy | rfl) hyid
  · exact hall y hy hyid
  · exact absurd hyid.symm hxid

/-- A confirmed copy that is taken in is the one that is chosen: another confirmed copy is the same
one, and a copy that is not confirmed gives way to it. -/
lemma chosen_concat_of_confirmed (hagree : Agree (txs ++ [tx])) (hxid : x.txid = tx.txid)
    (hheight : tx.height.isSome = true) : Chosen (txs ++ [tx]) x ↔ x = tx := by
  have hlast : tx ∈ txs ++ [tx] := List.mem_append_right _ List.mem_cons_self
  constructor
  · rintro ⟨hx, hx' | hnone⟩
    · exact hagree x hx tx hlast hxid (hx'.trans hheight.symm)
    · rw [hnone tx hlast hxid.symm] at hheight
      cases hheight
  · rintro rfl
    exact ⟨hlast, .inl hheight⟩

/-- A copy that is not confirmed changes nothing when there is another one: it is that one, or a
confirmed one is chosen before it. -/
lemma chosen_concat_of_copy (hagree : Agree (txs ++ [tx])) (hnone : tx.height = none)
    (hcopy : ∃ y ∈ txs, y.txid = tx.txid) :
    Chosen (txs ++ [tx]) x ↔ Chosen txs x := by
  have hlast : tx ∈ txs ++ [tx] := List.mem_append_right _ List.mem_cons_self
  constructor
  · rintro ⟨hx, hkept⟩
    refine ⟨?_, hkept.imp_right fun hall y hy => hall y (List.mem_append_left _ hy)⟩
    rcases List.mem_append.mp hx with hx | hx
    · exact hx
    · rw [List.mem_singleton.mp hx] at hkept ⊢
      obtain ⟨y, hy, hyid⟩ := hcopy
      have hyheight : y.height = none :=
        (hkept.resolve_left (by simp [hnone])) y (List.mem_append_left _ hy) hyid
      rwa [← hagree y (List.mem_append_left _ hy) tx hlast hyid (by rw [hyheight, hnone])]
  · rintro ⟨hx, hkept⟩
    refine ⟨List.mem_append_left _ hx, hkept.imp_right fun hall y hy hyid => ?_⟩
    rcases List.mem_append.mp hy with hy | hy
    · exact hall y hy hyid
    · rw [List.mem_singleton.mp hy, hnone]

/-- The first copy of a transaction is the one that is chosen, confirmed or not. -/
lemma chosen_concat_of_first (hxid : x.txid = tx.txid) (hnone : tx.height = none)
    (hcopy : ¬ ∃ y ∈ txs, y.txid = tx.txid) : Chosen (txs ++ [tx]) x ↔ x = tx := by
  have honly {y : Tx} (hy : y ∈ txs ++ [tx]) (hyid : y.txid = tx.txid) : y = tx := by
    rcases List.mem_append.mp hy with hy | hy
    · exact absurd ⟨y, hy, hyid⟩ hcopy
    · exact List.mem_singleton.mp hy
  constructor
  · rintro ⟨hx, -⟩
    exact honly hx hxid
  · rintro rfl
    exact ⟨List.mem_append_right _ List.mem_cons_self,
      .inr fun y hy hyid => by rw [honly hy hyid, hnone]⟩

/-- **One transaction is taken in**: what is chosen stays what is held.

**Proof sketch.** Of the other transactions neither the map nor the choice changes
(`chosen_concat_of_ne`). Of this one, a confirmed copy and a first copy are inserted, and each is
then the one that is chosen (`chosen_concat_of_confirmed`, `chosen_concat_of_first`); a copy that is
neither is left out, and was not to be chosen (`chosen_concat_of_copy`). -/
lemma TxMap.Holds.concat (h : m.Holds txs) (hagree : Agree (txs ++ [tx]))
    (htxid : isTxid tx.txid = true) :
    (if tx.height.isSome || !m.txs.any (·.txid == tx.txid) then m.insert tx htxid else m).Holds
      (txs ++ [tx]) := by
  intro x
  have hinsert : x ∈ (m.insert tx htxid).txs ↔ x = tx ∨ (x ∈ m.txs ∧ x.txid ≠ tx.txid) :=
    mem_insertTx_iff m.sorted
  by_cases hxid : x.txid = tx.txid
  · have hsame : x ∈ (m.insert tx htxid).txs ↔ x = tx := by
      simpa [hxid] using hinsert
    cases hheight : tx.height.isSome with
    | true =>
      rw [Bool.true_or, if_pos rfl, hsame, chosen_concat_of_confirmed hagree hxid hheight]
    | false =>
      have hnone : tx.height = none := by simpa using hheight
      rw [Bool.false_or]
      by_cases hcopy : ∃ y ∈ txs, y.txid = tx.txid
      · rw [if_neg (by simpa using h.any_iff.mpr hcopy), h x,
          chosen_concat_of_copy hagree hnone hcopy]
      · have hany : m.txs.any (·.txid == tx.txid) = false :=
          Bool.eq_false_iff.mpr fun h' => hcopy (h.any_iff.mp h')
        rw [if_pos (by rw [hany]; rfl), hsame, chosen_concat_of_first hxid hnone hcopy]
  · have hne : x ≠ tx := fun heq => hxid (congrArg Tx.txid heq)
    rw [chosen_concat_of_ne hxid, ← h x]
    split_ifs
    · rw [hinsert]
      simp [hne, hxid]
    · rfl

/-- A listing is taken in when its txids are txids. -/
lemma exists_gather_iff (address : String) (m : TxMap) :
    (∃ m', gather address m more = .ok m') ↔ ∀ tx ∈ more, isTxid tx.txid = true := by
  induction more generalizing m with
  | nil => exact ⟨fun _ tx htx => absurd htx List.not_mem_nil, fun _ => ⟨m, rfl⟩⟩
  | cons tx rest ih =>
    rw [gather]
    by_cases htxid : isTxid tx.txid = true
    · rw [dif_pos htxid, ih]
      exact ⟨fun h => List.forall_mem_cons.mpr ⟨htxid, h⟩, fun h => (List.forall_mem_cons.mp h).2⟩
    · rw [dif_neg htxid]
      exact iff_of_false (fun h => by obtain ⟨_, h⟩ := h; cases h)
        fun h => htxid (h tx List.mem_cons_self)

/-- After a listing is taken in, the map holds what it held together with the listing. -/
lemma TxMap.Holds.gather (h : m.Holds txs) (hagree : Agree (txs ++ more))
    (hgather : gather address m more = .ok m') : m'.Holds (txs ++ more) := by
  induction more generalizing m txs with
  | nil =>
    cases hgather
    rwa [List.append_nil]
  | cons tx rest ih =>
    rw [Bitcoin.gather] at hgather
    by_cases htxid : isTxid tx.txid = true
    swap
    · rw [dif_neg htxid] at hgather
      cases hgather
    rw [dif_pos htxid] at hgather
    have hsplit : txs ++ tx :: rest = txs ++ [tx] ++ rest := by simp
    rw [hsplit] at hagree ⊢
    have hone : Agree (txs ++ [tx]) := fun x hx y hy =>
      hagree x (List.mem_append_left _ hx) y (List.mem_append_left _ hy)
    exact ih (h.concat hone htxid) hagree hgather

end Gather

section Sync

variable {r r' : Responses} {w w' : Wallet} {m m' : TxMap} {addresses : List String} {txs : List Tx}

/-- What the listings of some addresses carry, one after the other. -/
def listing (r : Responses) (addresses : List String) : List Tx :=
  addresses.flatMap fun address =>
    (r.addressChain address).toOption.getD [] ++ (r.addressMempool address).toOption.getD []

/-- What is listed for the addresses of a wallet is what the provider lists for one of them. -/
lemma mem_listing {tx : Tx} : tx ∈ listing r w.addresses ↔ Listed r w tx := by
  have hone (x : Except FetchError (List Tx)) :
      tx ∈ x.toOption.getD [] ↔ ∃ txs, x = .ok txs ∧ tx ∈ txs := by
    cases x <;> simp [Except.toOption]
  simp only [listing, List.mem_flatMap, List.mem_append, hone, Listed]

/-- One address after the other: both listings of the first are taken in, the confirmed one first,
and the rest goes on from there. -/
lemma gatherAll_cons_eq_ok {address : String} :
    gatherAll r m (address :: addresses) = .ok m' ↔
      ∃ confirmed pending mid, r.addressChain address = .ok confirmed ∧
        r.addressMempool address = .ok pending ∧
        gather address m (confirmed ++ pending) = .ok mid ∧ gatherAll r mid addresses = .ok m' := by
  rw [gatherAll, except_bind_eq_ok]
  constructor
  · rintro ⟨confirmed, hconfirmed, h⟩
    obtain ⟨pending, hpending, h⟩ := except_bind_eq_ok.mp h
    obtain ⟨mid, hmid, h⟩ := except_bind_eq_ok.mp h
    exact ⟨confirmed, pending, mid, hconfirmed, hpending, hmid, h⟩
  · rintro ⟨confirmed, pending, mid, hconfirmed, hpending, hmid, h⟩
    exact ⟨confirmed, hconfirmed, except_bind_eq_ok.mpr ⟨pending, hpending,
      except_bind_eq_ok.mpr ⟨mid, hmid, h⟩⟩⟩

/-- The listings of some addresses, taken in. -/
lemma TxMap.Holds.gatherAll (h : m.Holds txs) (hagree : Agree (txs ++ listing r addresses))
    (hgather : gatherAll r m addresses = .ok m') : m'.Holds (txs ++ listing r addresses) := by
  induction addresses generalizing m txs with
  | nil =>
    cases hgather
    rwa [listing, List.flatMap_nil, List.append_nil]
  | cons address rest ih =>
    obtain ⟨confirmed, pending, mid, hconfirmed, hpending, hmid, hrest⟩ :=
      gatherAll_cons_eq_ok.mp hgather
    have hsplit : txs ++ listing r (address :: rest) =
        txs ++ (confirmed ++ pending) ++ listing r rest := by
      simp [listing, hconfirmed, hpending, Except.toOption]
    rw [hsplit] at hagree ⊢
    have hone : Agree (txs ++ (confirmed ++ pending)) := fun x hx y hy =>
      hagree x (List.mem_append_left _ hx) y (List.mem_append_left _ hy)
    exact ih (h.gather hone hmid) hagree hrest

/-- When the listings of some addresses are taken in.

**Proof sketch.** Induction on the addresses. The first one is taken in when both its listings
succeed and all their txids are txids, and the rest is then gathered into a larger map, for which
the induction hypothesis holds as well. -/
lemma exists_gatherAll_iff (r : Responses) (m : TxMap) (addresses : List String) :
    (∃ m', gatherAll r m addresses = .ok m') ↔
      (∀ address ∈ addresses, (∃ txs, r.addressChain address = .ok txs) ∧
        ∃ txs, r.addressMempool address = .ok txs) ∧
      ∀ tx ∈ listing r addresses, isTxid tx.txid = true := by
  induction addresses generalizing m with
  | nil => simp [Bitcoin.gatherAll, listing]
  | cons address rest ih =>
    rw [List.forall_mem_cons]
    have hlisting {confirmed pending : List Tx}
        (hconfirmed : r.addressChain address = .ok confirmed)
        (hpending : r.addressMempool address = .ok pending) :
        listing r (address :: rest) = confirmed ++ pending ++ listing r rest := by
      simp [listing, hconfirmed, hpending, Except.toOption]
    constructor
    · rintro ⟨m', h⟩
      obtain ⟨confirmed, pending, mid, hconfirmed, hpending, hmid, hrest⟩ :=
        gatherAll_cons_eq_ok.mp h
      obtain ⟨hok, htxids⟩ := (ih mid).mp ⟨m', hrest⟩
      refine ⟨⟨⟨⟨confirmed, hconfirmed⟩, ⟨pending, hpending⟩⟩, hok⟩, ?_⟩
      rw [hlisting hconfirmed hpending, List.forall_mem_append]
      exact ⟨(exists_gather_iff _ _).mp ⟨mid, hmid⟩, htxids⟩
    · rintro ⟨⟨⟨⟨confirmed, hconfirmed⟩, ⟨pending, hpending⟩⟩, hok⟩, htxids⟩
      rw [hlisting hconfirmed hpending, List.forall_mem_append] at htxids
      obtain ⟨mid, hmid⟩ := (exists_gather_iff address m).mpr htxids.1
      obtain ⟨m', hm'⟩ := (ih mid).mpr ⟨hok, htxids.2⟩
      exact ⟨m', gatherAll_cons_eq_ok.mpr
        ⟨confirmed, pending, mid, hconfirmed, hpending, hmid, hm'⟩⟩

/-- **What a sync holds**: what is chosen of its listings. -/
lemma mem_sync (hconsistent : Consistent r w) {s : Snapshot} (h : sync r w = .ok s) (tx : Tx) :
    tx ∈ s.txs ↔ Chosen (listing r w.addresses) tx := by
  have hempty : TxMap.empty.Holds [] := fun tx => by simp [TxMap.empty, Chosen]
  unfold sync at h
  cases hgather : gatherAll r TxMap.empty w.addresses with
  | error e =>
    rw [hgather] at h
    cases h
  | ok m =>
    rw [hgather] at h
    cases h
    have hagree : Agree ([] ++ listing r w.addresses) := fun x hx y hy =>
      hconsistent x y (mem_listing.mp hx) (mem_listing.mp hy)
    exact hempty.gatherAll hagree hgather tx

/-- A sync returns its data exactly when both listings of every address succeed and every txid that
is listed is one. -/
lemma exists_sync_iff (r : Responses) (w : Wallet) :
    (∃ s, sync r w = .ok s) ↔
      (∀ address ∈ w.addresses, (∃ txs, r.addressChain address = .ok txs) ∧
        ∃ txs, r.addressMempool address = .ok txs) ∧
      ∀ tx, Listed r w tx → isTxid tx.txid = true := by
  simp only [← mem_listing]
  rw [← exists_gatherAll_iff r TxMap.empty, sync]
  cases gatherAll r TxMap.empty w.addresses <;> simp [Except.map]

/-- Two snapshots of the same transactions are equal, since both are sorted by txid and each txid
comes once. -/
lemma Snapshot.eq_of_mem {s s' : Snapshot} (h : ∀ tx, tx ∈ s.txs ↔ tx ∈ s'.txs) : s = s' := by
  have htxs : s.txs = s'.txs := eq_of_increasing Tx.txid s.sorted s'.sorted h
  obtain ⟨⟨txs, mempool⟩, hsorted, htxids, hmempool⟩ := s
  obtain ⟨⟨txs', mempool'⟩, hsorted', htxids', hmempool'⟩ := s'
  dsimp only at htxs hmempool hmempool'
  subst htxs
  subst hmempool
  subst hmempool'
  rfl

/-- A sync of the same listings in another order.

**Proof sketch.** The transactions that are listed are the same, since the addresses are and each
listing has the same members. All listings succeed and all txids are txids, so the other sync
succeeds as well, and what it holds is chosen from the same transactions (`mem_sync`). Two snapshots
with the same members are equal, because they are sorted. -/
lemma sync_reordered (hconsistent : Consistent r w) {s : Snapshot} (h : sync r w = .ok s)
    (haddresses : w'.addresses.Perm w.addresses)
    (hlistings : ∀ address ∈ w.addresses,
      Reordered (r.addressChain address) (r'.addressChain address) ∧
        Reordered (r.addressMempool address) (r'.addressMempool address)) :
    sync r' w' = .ok s := by
  obtain ⟨hok, htxids⟩ := (exists_sync_iff r w).mp ⟨s, h⟩
  have hlisted (tx : Tx) : Listed r' w' tx ↔ Listed r w tx := by
    have hsame {x y : Except FetchError (List Tx)} (hx : ∃ txs, x = .ok txs) (h : Reordered x y) :
        (∃ txs, y = .ok txs ∧ tx ∈ txs) ↔ ∃ txs, x = .ok txs ∧ tx ∈ txs := by
      obtain ⟨txs, rfl⟩ := hx
      obtain ⟨txs', rfl, hperm⟩ := h txs rfl
      simpa using hperm.mem_iff
    unfold Listed
    refine exists_congr fun address => ?_
    rw [haddresses.mem_iff]
    refine and_congr_right fun haddress => ?_
    exact or_congr (hsame (hok address haddress).1 (hlistings address haddress).1)
      (hsame (hok address haddress).2 (hlistings address haddress).2)
  obtain ⟨s', hs'⟩ := (exists_sync_iff r' w').mpr ⟨fun address haddress => by
    have haddress := haddresses.mem_iff.mp haddress
    obtain ⟨⟨txs, htxs⟩, ⟨txs', htxs'⟩⟩ := hok address haddress
    obtain ⟨more, hmore, -⟩ := (hlistings address haddress).1 txs htxs
    obtain ⟨more', hmore', -⟩ := (hlistings address haddress).2 txs' htxs'
    exact ⟨⟨more, hmore⟩, ⟨more', hmore'⟩⟩, fun tx htx => htxids tx ((hlisted tx).mp htx)⟩
  have hconsistent' : Consistent r' w' := fun x y hx hy =>
    hconsistent x y ((hlisted x).mp hx) ((hlisted y).mp hy)
  refine hs'.trans (congrArg _ (Snapshot.eq_of_mem fun tx => ?_))
  rw [mem_sync hconsistent' hs', mem_sync hconsistent h]
  simp only [Chosen, mem_listing, hlisted]

end Sync

/-- **A sync is the union of its listings.** It returns its data when every listing succeeds and
every txid is one. It then holds every listed txid once, by a confirmed copy if any was listed; its
mempool is the txids without one; the order of the addresses and of the transactions in a listing
does not matter; and no transaction is planned in two places.

**Proof sketch.** What a sync holds is, by `mem_sync`, the chosen copies of what was listed: the
confirmed one, or the only one when none is confirmed. A chosen copy exists for every listed txid,
and the txids of a sync are strictly sorted, so each is held once. The mempool is the part of it
without a height, and those are the txids with no confirmed copy. Since what is chosen depends on
the set of listed transactions alone, another order of addresses or of listings gives the same
result (`sync_reordered`), and two items of a plan with one txid come from one transaction. -/
theorem sync_union (r : Responses) (w : Wallet) (hconsistent : Consistent r w) :
    ((∃ s, sync r w = .ok s) ↔
      (∀ address ∈ w.addresses, (∃ txs, r.addressChain address = .ok txs) ∧
        ∃ txs, r.addressMempool address = .ok txs) ∧
      ∀ tx, Listed r w tx → isTxid tx.txid = true) ∧
    ∀ s, sync r w = .ok s →
      (∀ tx ∈ s.txs, Listed r w tx) ∧
      (s.txs.map Tx.txid).Nodup ∧
      (∀ txid, txid ∈ s.txs.map Tx.txid ↔ ∃ tx, Listed r w tx ∧ tx.txid = txid) ∧
      (∀ tx ∈ s.txs, (∃ y, Listed r w y ∧ y.txid = tx.txid ∧ y.height.isSome = true) →
        tx.height.isSome = true) ∧
      (∀ txid, txid ∈ s.mempool ↔ (∃ tx, Listed r w tx ∧ tx.txid = txid) ∧
        ∀ tx, Listed r w tx → tx.txid = txid → tx.height = none) ∧
      (∀ (r' : Responses) (w' : Wallet), w'.addresses.Perm w.addresses →
        (∀ address ∈ w.addresses, Reordered (r.addressChain address) (r'.addressChain address) ∧
          Reordered (r.addressMempool address) (r'.addressMempool address)) →
        sync r' w' = .ok s) ∧
      ∀ ctx start p, plan ctx s.toChain w.owned start = .ok p →
        ∀ i ∈ p.items, ∀ j ∈ p.items, i.1.txid = j.1.txid → i.1 = j.1 := by
  refine ⟨exists_sync_iff r w, fun s hs => ?_⟩
  have hmem (tx : Tx) : tx ∈ s.txs ↔ Chosen (listing r w.addresses) tx := mem_sync hconsistent hs tx
  have hinj {x y : Tx} (hx : x ∈ s.txs) (hy : y ∈ s.txs) (htxid : x.txid = y.txid) : x = y := by
    have hfind := s.find?_txid hx
    rw [htxid, s.find?_txid hy] at hfind
    exact (Option.some.inj hfind).symm
  have hchosen {tx : Tx} (htx : Listed r w tx) : ∃ y ∈ s.txs, y.txid = tx.txid := by
    by_cases hconfirmed : ∃ y, Listed r w y ∧ y.txid = tx.txid ∧ y.height.isSome = true
    · obtain ⟨y, hy, htxid, hheight⟩ := hconfirmed
      exact ⟨y, (hmem y).mpr ⟨mem_listing.mpr hy, .inl hheight⟩, htxid⟩
    · push Not at hconfirmed
      refine ⟨tx, (hmem tx).mpr ⟨mem_listing.mpr htx, .inr fun y hy htxid => ?_⟩, rfl⟩
      simpa using hconfirmed y (mem_listing.mp hy) htxid
  have hlisted {tx : Tx} (htx : tx ∈ s.txs) : Listed r w tx := mem_listing.mp ((hmem tx).mp htx).1
  have hconfirmed {tx y : Tx} (htx : tx ∈ s.txs) (hy : Listed r w y) (htxid : y.txid = tx.txid)
      (hheight : y.height.isSome = true) : tx.height.isSome = true := by
    refine ((hmem tx).mp htx).2.resolve_right fun hnone => ?_
    rw [hnone y (mem_listing.mpr hy) htxid] at hheight
    cases hheight
  refine ⟨fun tx htx => hlisted htx, ?_, fun txid => ?_, ?_, fun txid => ?_, ?_, ?_⟩
  · exact List.pairwise_map.mpr (s.sorted.imp fun hlt => hlt.ne)
  · rw [List.mem_map]
    constructor
    · rintro ⟨tx, htx, rfl⟩
      exact ⟨tx, hlisted htx, rfl⟩
    · rintro ⟨tx, htx, rfl⟩
      exact hchosen htx
  · rintro tx htx ⟨y, hy, htxid, hheight⟩
    exact hconfirmed htx hy htxid hheight
  · rw [s.mempool_eq, List.mem_map]
    constructor
    · rintro ⟨tx, htx, rfl⟩
      obtain ⟨htx, hheight⟩ := List.mem_filter.mp htx
      refine ⟨⟨tx, hlisted htx, rfl⟩, fun y hy htxid => ?_⟩
      by_contra hsome
      have hsome := hconfirmed htx hy htxid (Option.isSome_iff_ne_none.mpr hsome)
      rw [Option.isNone_iff_eq_none.mp hheight] at hsome
      cases hsome
    · rintro ⟨⟨tx, htx, rfl⟩, hnone⟩
      obtain ⟨y, hy, htxid⟩ := hchosen htx
      exact ⟨y, List.mem_filter.mpr ⟨hy, by rw [hnone y (hlisted hy) htxid]; rfl⟩, htxid⟩
  · exact fun r' w' haddresses hlistings => sync_reordered hconsistent hs haddresses hlistings
  · intro ctx start p hp i hi j hj htxid
    obtain ⟨x, hx, -, hxkey⟩ := key_of_mem_plan hp hi
    obtain ⟨y, hy, -, hykey⟩ := key_of_mem_plan hp hj
    rw [hxkey, hykey, Tx.txid_key, Tx.txid_key] at htxid
    rw [hxkey, hykey, hinj hx hy htxid]

/-- A copy of a transaction, confirmed at a height or not. -/
def copyAt (height : Option U64) : Tx where
  txid := txidA
  fee := 0
  status := ⟨height.isSome, height, none, none⟩
  vin := []
  vout := []
  vin_lt := length_nil_lt
  vout_lt := length_nil_lt

/-- A wallet with one address. -/
def oneAddress : Wallet := ⟨"savings", ["bc1qexample0"], "", isResourceId_savings⟩

/-- What is answered while a transaction is being confirmed: one listing has it with a height, the
other without. -/
def confirming : Responses where
  addressChain _ := .ok [copyAt (some 800000)]
  addressMempool _ := .ok [copyAt none]
  addressStats _ := .error (.unavailable ⟨"transport", "connection refused", .null⟩)
  now := 1700000000

/-- A transaction that is confirmed between two listings is not in the mempool.

**Proof sketch.** The two listings have two copies of one transaction, of which one is confirmed, so
any two confirmed copies are one. The theorem then says what the mempool of the sync holds. -/
theorem sync_union_confirming :
    ∃ s, sync confirming oneAddress = .ok s ∧
      ∀ txid, txid ∈ s.mempool ↔ (∃ tx, Listed confirming oneAddress tx ∧ tx.txid = txid) ∧
        ∀ tx, Listed confirming oneAddress tx → tx.txid = txid → tx.height = none := by
  have hlisted {tx : Tx} (h : Listed confirming oneAddress tx) :
      tx = copyAt (some 800000) ∨ tx = copyAt none := by
    obtain ⟨address, -, ⟨txs, htxs, htx⟩ | ⟨txs, htxs, htx⟩⟩ := h
    · cases htxs
      exact .inl (List.mem_singleton.mp htx)
    · cases htxs
      exact .inr (List.mem_singleton.mp htx)
  have hconsistent : Consistent confirming oneAddress := by
    intro x y hx hy _ hheight
    rcases hlisted hx with rfl | rfl <;> rcases hlisted hy with rfl | rfl
    · rfl
    · exact absurd hheight (by decide)
    · exact absurd hheight (by decide)
    · rfl
  obtain ⟨s, hs⟩ := exists_eq_ok_iff.mpr
    (by decide +kernel : (sync confirming oneAddress).toOption.isSome = true)
  exact ⟨s, hs, ((sync_union confirming oneAddress hconsistent).2 s hs).2.2.2.2.1⟩

end Sumer.Bitcoin
