import Sumer.Lib.Fallible
import Sumer.Bitcoin.Paging

set_option relaxedAutoImplicit false
set_option autoImplicit false

/-!
# A crawl, page by page

Following the cursors of a crawl over one snapshot, each through its text. Resuming after an item
plans exactly the items after it, so that the pages of a crawl are the plan, cut.

## Main definitions

* `Sumer.Bitcoin.servePage`, `Sumer.Bitcoin.crawl`: one page of a crawl, and all of them.

## Main results

* `Sumer.Bitcoin.plan_resume`: what is planned from a cursor.
* `Sumer.Bitcoin.crawl_exactly_once`: the pages of a crawl deliver the plan, each item once.
-/

namespace Sumer.Bitcoin

open Sumer.Wire Sumer.Host

/-- Why a page was not served. -/
inductive PageError where
  | cursor (e : CursorError)
  | map (e : MapError)

/-- One page of a crawl: the cursor read, the snapshot planned from it, the plan cut. -/
def servePage (ctx : Ctx) (chain : Chain) (owned : List String) (start : Option String)
    (budget : ℕ) : Except PageError Page :=
  match start.mapM Cursor.parse with
  | .error e => .error (.cursor e)
  | .ok start =>
    match plan ctx chain owned start with
    | .error e => .error (.map e)
    | .ok p => .ok (cutPage p start budget)

/-- The pages of a crawl from a cursor on, each with the next budget, or `none` when the fuel runs
out before the crawl has drained. -/
def crawl (ctx : Ctx) (chain : Chain) (owned : List String) (budgets : ℕ → ℕ) :
    ℕ → ℕ → Option String → Except PageError (Option (List Page))
  | 0, _, _ => .ok none
  | fuel + 1, n, start =>
    match servePage ctx chain owned start (budgets n) with
    | .error e => .error e
    | .ok page =>
      match page.next with
      | none => .ok (some [page])
      | some c =>
        match crawl ctx chain owned budgets fuel (n + 1) (some c.encode) with
        | .error e => .error e
        | .ok pages => .ok (pages.map (page :: ·))

/-- The place of a transaction in the order of emission. -/
def Tx.key (tx : Tx) : Key :=
  match tx.height with
  | some height => .confirmed height tx.txid
  | none => .mempool tx.txid

/-- The item of a transaction, if it can be mapped. -/
def itemOf (ctx : Ctx) (owned : List String) (tx : Tx) : Option Item :=
  (active ctx tx owned).toOption.map fun o => (tx.key, o)

/-- What a cursor has not covered. -/
def above (start : Option Cursor) : Key → Bool
  | .confirmed height txid =>
    !decide (toLex (height, txid) ≤ start.elim bottom Cursor.confirmedMark)
  | .mempool txid => !(start.bind Cursor.mempool).any fun z => decide (txid ≤ z)

/-! ### The order of emission -/

section Order

variable {h h' : U64} {t t' : String}

/-- Two confirmed transactions stand by height, and at one height by their ids. -/
@[simp] lemma Key.confirmed_lt_confirmed :
    Key.confirmed h t < .confirmed h' t' ↔ toLex (h, t) < toLex (h', t') :=
  Sum.Lex.inl_lt_inl_iff

/-- Two transactions of the mempool stand by their ids: they have no height yet. -/
@[simp] lemma Key.mempool_lt_mempool : Key.mempool t < .mempool t' ↔ t < t' :=
  Sum.Lex.inr_lt_inr_iff

/-- Every confirmed transaction stands before every one of the mempool. -/
@[simp] lemma Key.confirmed_lt_mempool : Key.confirmed h t < .mempool t' :=
  Sum.Lex.inl_lt_inr _ _

/-- No transaction of the mempool stands before a confirmed one. -/
@[simp] lemma Key.not_mempool_lt_confirmed : ¬ Key.mempool t < .confirmed h t' :=
  Sum.Lex.not_inr_lt_inl

/-- The bottom, height zero with an empty txid, is the least of all marks. -/
lemma bottom_le (m : Mark) : bottom ≤ m := by
  obtain ⟨h, t⟩ := m
  refine Prod.Lex.toLex_le_toLex.mpr ?_
  rcases (Fin.zero_le h).eq_or_lt with hzero | hpos
  · exact Or.inr ⟨hzero, not_lt.mp fun hlt => List.not_lt_nil _ (String.lt_iff_toList_lt.mp hlt)⟩
  · exact Or.inl hpos

/-- Two lists in strictly increasing order of a key that have the same elements are equal. -/
lemma eq_of_increasing {α β : Type} [LinearOrder β] (key : α → β) {l l' : List α}
    (h : l.Pairwise fun a b => key a < key b) (h' : l'.Pairwise fun a b => key a < key b)
    (hmem : ∀ x, x ∈ l ↔ x ∈ l') : l = l' := by
  have hnodup {l : List α} (h : l.Pairwise fun a b => key a < key b) : l.Nodup :=
    h.imp fun hlt heq => (heq ▸ hlt).false
  exact ((List.perm_ext_iff_of_nodup (hnodup h) (hnodup h')).mpr hmem).eq_of_pairwise
    (fun a b _ _ hab hba => absurd hba hab.asymm) h h'

end Order

/-! ### What is planned -/

section Plan

variable {ctx : Ctx} {owned : List String} {txs : List Tx} {floor : Mark} {tx : Tx}

/-- The confirmed section, when every transaction can be mapped. -/
lemma planConfirmed_eq (h : ∀ tx ∈ txs, ∃ o, active ctx tx owned = .ok o) (start : Option Cursor) :
    planConfirmed ctx owned (start.elim bottom Cursor.confirmedMark) txs =
      .ok ((txs.filter fun tx => tx.height.isSome && above start tx.key).filterMap
        (itemOf ctx owned)) := by
  induction txs with
  | nil => rfl
  | cons tx txs ih =>
    have ih := ih fun tx htx => h tx (List.mem_cons_of_mem _ htx)
    obtain ⟨o, ho⟩ := h tx List.mem_cons_self
    rw [planConfirmed]
    cases hheight : tx.height with
    | none => simpa [hheight] using ih
    | some height =>
      dsimp only
      split_ifs with hle
      · simpa [hheight, Tx.key, above, hle] using ih
      · simp only [ho, ih, bind, Except.bind]
        simp [hheight, Tx.key, above, hle, itemOf, ho, Except.toOption]

/-- The mempool section, when every transaction can be mapped.

**Proof sketch.** Induction on the pending txids. One at or before the cursor is skipped by both
sides; of any other the transaction is found and mapped, and its item comes next. -/
lemma planMempool_eq (txs pending : List Tx)
    (h : ∀ tx ∈ pending, ∃ o, active ctx tx owned = .ok o)
    (hfind : ∀ tx ∈ pending, txs.find? (·.txid == tx.txid) = some tx)
    (hheight : ∀ tx ∈ pending, tx.height = none) (start : Option Cursor) :
    planMempool ctx owned txs (start.bind Cursor.mempool) (pending.map Tx.txid) =
      .ok ((pending.filter fun tx => above start tx.key).filterMap (itemOf ctx owned)) := by
  induction pending with
  | nil => rfl
  | cons tx pending ih =>
    have ih := ih (fun tx htx => h tx (List.mem_cons_of_mem _ htx))
      (fun tx htx => hfind tx (List.mem_cons_of_mem _ htx))
      fun tx htx => hheight tx (List.mem_cons_of_mem _ htx)
    obtain ⟨o, ho⟩ := h tx List.mem_cons_self
    have hkey : tx.key = .mempool tx.txid := by rw [Tx.key, hheight tx List.mem_cons_self]
    rw [List.map_cons, planMempool]
    split_ifs with hskip
    · have habove : above start tx.key = false := by rw [hkey, above, hskip, Bool.not_true]
      rw [List.filter_cons, if_neg (by simp [habove])]
      exact ih
    · have habove : above start tx.key = true := by
        rw [hkey, above, Bool.eq_false_iff.mpr hskip, Bool.not_false]
      have hitem : itemOf ctx owned tx = some (.mempool tx.txid, o) := by
        rw [itemOf, ho, hkey]
        rfl
      rw [List.filter_cons, if_pos habove, List.filterMap_cons, hitem]
      simp only [hfind tx List.mem_cons_self, ho, ih, bind, Except.bind]

/-- The mark a floor is raised to. -/
lemma highWater_eq (floor : Mark) (txs : List Tx) :
    highWater floor txs = max floor (highWater bottom txs) := by
  induction txs generalizing floor with
  | nil => exact (max_eq_left (bottom_le floor)).symm
  | cons tx txs ih =>
    rw [highWater, highWater, List.foldl_cons, List.foldl_cons]
    cases tx.height with
    | none => exact ih floor
    | some height =>
      have hfloor := ih (max floor (toLex (height, tx.txid)))
      have hbottom := ih (max bottom (toLex (height, tx.txid)))
      simp only [Option.map_some, Option.getD_some]
      exact hfloor.trans (by rw [max_assoc]; exact congrArg _ (by
        rw [max_eq_right (bottom_le _)] at hbottom ⊢
        exact hbottom.symm))

/-- Every confirmed transaction is at or below the high-water mark. -/
lemma le_highWater (floor : Mark) (htx : tx ∈ txs) {height : U64} (h : tx.height = some height) :
    toLex (height, tx.txid) ≤ highWater floor txs := by
  induction txs generalizing floor with
  | nil => exact absurd htx List.not_mem_nil
  | cons tx' txs ih =>
    rw [highWater, List.foldl_cons]
    rcases List.mem_cons.mp htx with rfl | htx
    · rw [h]
      simp only [Option.map_some, Option.getD_some]
      have hraised := highWater_eq (max floor (toLex (height, tx.txid))) txs
      exact (le_max_right floor _).trans ((le_max_left _ _).trans hraised.ge)
    · exact ih _ htx

end Plan

/-! ### Resuming -/

section Resume

variable {ctx : Ctx} {owned : List String} {snapshot : Snapshot}

/-- Every transaction of a snapshot can be mapped: its block time is a timestamp. -/
def Mapped (ctx : Ctx) (owned : List String) (txs : List Tx) : Prop :=
  ∀ tx ∈ txs, ∃ o, active ctx tx owned = .ok o

/-- A transaction of a snapshot is found by its txid. -/
lemma Snapshot.find?_txid (snapshot : Snapshot) {tx : Tx} (htx : tx ∈ snapshot.txs) :
    snapshot.txs.find? (·.txid == tx.txid) = some tx := by
  have hsorted := snapshot.sorted
  generalize snapshot.txs = txs at htx hsorted
  induction txs with
  | nil => exact absurd htx List.not_mem_nil
  | cons other txs ih =>
    obtain ⟨hother, hrest⟩ := List.pairwise_cons.mp hsorted
    rw [List.find?_cons]
    rcases List.mem_cons.mp htx with rfl | htx
    · simp
    · have hne : (other.txid == tx.txid) = false := by
        simpa using (hother tx htx).ne
      rw [hne]
      exact ih htx hrest

/-- The txid of a key. -/
def Key.txid : Key → String
  | .confirmed _ txid => txid
  | .mempool txid => txid

/-- The key of a transaction has the transaction's id, confirmed or not, so that two transactions of
different ids have different keys. -/
@[simp] lemma Tx.txid_key (tx : Tx) : tx.key.txid = tx.txid := by
  unfold Tx.key
  split <;> rfl

/-- **What is planned from a cursor**: the transactions that it has not covered, in strictly
increasing order of their keys.

**Proof sketch.** The plan is the confirmed section, sorted, followed by the mempool section in the
order of the snapshot. Every transaction maps to an item or to none, so an item of a section is the
item of a transaction of that section above the cursor; the two sections together are all of them.
The order is strict in each section because txids differ in a snapshot (sorting gives it for the
first, the snapshot has it for the second), and a confirmed key is below every mempool key. -/
lemma plan_spec (ctx : Ctx) (owned : List String) (snapshot : Snapshot)
    (hmapped : Mapped ctx owned snapshot.txs) (start : Option Cursor) :
    ∃ items, plan ctx snapshot.toChain owned start =
        .ok ⟨items, highWater (start.elim bottom Cursor.confirmedMark) snapshot.txs⟩ ∧
      items.Pairwise (fun i j => i.1 < j.1) ∧
      ∀ i, i ∈ items ↔
        ∃ tx ∈ snapshot.txs, above start tx.key = true ∧ itemOf ctx owned tx = some i := by
  set confirmed := (snapshot.txs.filter fun tx =>
    tx.height.isSome && above start tx.key).filterMap (itemOf ctx owned) with hconfirmed
  set pending := ((snapshot.txs.filter fun tx => tx.height.isNone).filter fun tx =>
    above start tx.key).filterMap (itemOf ctx owned) with hpending
  have hitem {tx : Tx} {i : Item} (h : itemOf ctx owned tx = some i) : i.1 = tx.key := by
    obtain ⟨o, -, rfl⟩ := Option.map_eq_some_iff.mp h
    rfl
  have hmemconf (i : Item) : i ∈ confirmed ↔ ∃ tx ∈ snapshot.txs, tx.height.isSome = true ∧
      above start tx.key = true ∧ itemOf ctx owned tx = some i := by
    simp [hconfirmed, List.mem_filterMap, and_assoc]
  have hmempend (i : Item) : i ∈ pending ↔ ∃ tx ∈ snapshot.txs, tx.height = none ∧
      above start tx.key = true ∧ itemOf ctx owned tx = some i := by
    simp only [hpending, List.mem_filterMap, List.mem_filter, and_assoc, Option.isNone_iff_eq_none]
  refine ⟨confirmed.insertionSort Item.le ++ pending, ?_, ?_, fun i => ?_⟩
  · have hmempool := planMempool_eq snapshot.txs
      (snapshot.txs.filter fun tx => tx.height.isNone)
      (fun tx htx => hmapped tx (List.mem_filter.mp htx).1)
      (fun tx htx => snapshot.find?_txid (List.mem_filter.mp htx).1)
      (fun tx htx => by simpa using (List.mem_filter.mp htx).2) start
    rw [plan, planConfirmed_eq hmapped start, snapshot.mempool_eq, hmempool]
    rfl
  · rw [List.pairwise_append]
    refine ⟨?_, ?_, fun i hi j hj => ?_⟩
    · -- the keys of the confirmed section differ, so that sorting makes them increase strictly
      have hne : confirmed.Pairwise fun i j => i.1 ≠ j.1 := by
        refine List.Pairwise.filterMap _ ?_ (snapshot.sorted.filter _)
        intro tx tx' hlt i hi j hj heq
        rw [hitem hi, hitem hj] at heq
        have htxid := congrArg Key.txid heq
        rw [Tx.txid_key, Tx.txid_key] at htxid
        exact (htxid ▸ hlt).false
      have hsorted : (confirmed.insertionSort Item.le).Pairwise Item.le := by
        have : Std.Total Item.le := ⟨fun a b => le_total a.1 b.1⟩
        have : IsTrans Item Item.le := ⟨fun a b c hab hbc => le_trans hab hbc⟩
        exact List.pairwise_insertionSort Item.le confirmed
      have hne' := (List.perm_insertionSort Item.le confirmed).symm.pairwise hne
        (fun hij => hij.symm)
      exact (hsorted.and hne').imp fun hij => lt_of_le_of_ne hij.1 hij.2
    · refine List.Pairwise.filterMap _ ?_
        (List.Pairwise.and_mem.mp ((snapshot.sorted.filter _).filter _))
      rintro tx tx' ⟨htx, htx', hlt⟩ i hi j hj
      have hheight {tx : Tx} (h : tx ∈ (snapshot.txs.filter fun tx => tx.height.isNone).filter
          fun tx => above start tx.key) : tx.key = .mempool tx.txid := by
        have hnone : tx.height = none := by
          simpa using (List.mem_filter.mp (List.mem_filter.mp h).1).2
        rw [Tx.key, hnone]
      rw [hitem hi, hitem hj, hheight htx, hheight htx']
      exact Key.mempool_lt_mempool.mpr hlt
    · obtain ⟨tx, -, hheight, -, htx⟩ := (hmemconf i).mp ((List.mem_insertionSort _).mp hi)
      obtain ⟨tx', -, hheight', -, htx'⟩ := (hmempend j).mp hj
      obtain ⟨height, hheight⟩ := Option.isSome_iff_exists.mp hheight
      rw [hitem htx, hitem htx', Tx.key, Tx.key, hheight, hheight']
      exact Key.confirmed_lt_mempool
  · rw [List.mem_append, List.mem_insertionSort, hmemconf, hmempend]
    constructor
    · rintro (⟨tx, htx, -, h⟩ | ⟨tx, htx, -, h⟩) <;> exact ⟨tx, htx, h⟩
    · rintro ⟨tx, htx, h⟩
      cases hheight : tx.height with
      | some height => exact Or.inl ⟨tx, htx, by simp [hheight], h⟩
      | none => exact Or.inr ⟨tx, htx, hheight, h⟩

end Resume

/-! ### Cursors and positions -/

section Position

variable {ctx : Ctx} {owned : List String} {snapshot : Snapshot}

/-- The mark that a sync of these transactions reaches. -/
def Snapshot.mark (snapshot : Snapshot) : Mark := highWater bottom snapshot.txs

/-- The cursor after an item, or none at the start. -/
def Snapshot.cursorAfter (snapshot : Snapshot) (after : Option Key) : Option Cursor :=
  after.map (Key.cursor snapshot.mark)

/-- A key at or before a position. -/
def Key.beyond (after : Option Key) (key : Key) : Bool := after.all fun k => decide (k < key)

/-- A position in a snapshot: its start, or the key of one of its transactions. -/
def Snapshot.Position (snapshot : Snapshot) (after : Option Key) : Prop :=
  ∀ k, after = some k → ∃ tx ∈ snapshot.txs, tx.key = k

/-- The start is a position of every snapshot. -/
lemma Snapshot.position_none : snapshot.Position none := nofun

/-- A confirmed key of a snapshot is at or below its mark. -/
lemma Snapshot.le_mark (height : U64) (txid : String) {tx : Tx} (htx : tx ∈ snapshot.txs)
    (h : tx.key = .confirmed height txid) : toLex (height, txid) ≤ snapshot.mark := by
  cases hheight : tx.height with
  | none => simp [Tx.key, hheight] at h
  | some height' =>
    simp only [Tx.key, hheight, Key.confirmed.injEq] at h
    obtain ⟨rfl, rfl⟩ := h
    exact le_highWater bottom htx hheight

/-- **A cursor covers what is at or before its item**, and nothing else.

**Proof sketch.** By the section of the item that the cursor names and that of the transaction. In
the confirmed section the cursor compares keys. A cursor into the mempool section has the mark of
the snapshot with it, which no confirmed transaction of the snapshot is beyond, and compares txids
in the mempool. -/
lemma above_cursorAfter (after : Option Key) (hafter : snapshot.Position after) {tx : Tx}
    (htx : tx ∈ snapshot.txs) :
    above (snapshot.cursorAfter after) tx.key = Key.beyond after tx.key := by
  cases after with
  | none =>
    unfold Tx.key
    split
    · rename_i height hheight
      have hpos : bottom < toLex (height, tx.txid) := by
        refine lt_of_le_of_ne (bottom_le _) fun heq => ?_
        have htxid := congrArg (fun m => (ofLex m).2) heq
        have hgood := snapshot.txids tx htx
        rw [← show "" = tx.txid from htxid] at hgood
        exact absurd hgood (by decide)
      show (!decide (toLex (height, tx.txid) ≤ bottom)) = true
      rw [decide_eq_false hpos.not_ge]
      rfl
    · simp [above, Snapshot.cursorAfter, Key.beyond]
  | some k =>
    obtain ⟨tx', htx', rfl⟩ := hafter k rfl
    have hmark {height : U64} {txid : String} := snapshot.le_mark height txid htx
    cases hkey' : tx'.key with
    | confirmed height' txid' =>
      cases hkey : tx.key with
      | confirmed height txid =>
        show (!decide (toLex (height, txid) ≤ toLex (height', txid'))) =
          decide (Key.confirmed height' txid' < .confirmed height txid)
        rw [← decide_not, decide_eq_decide, not_le, Key.confirmed_lt_confirmed]
      | mempool txid =>
        simp [above, Snapshot.cursorAfter, Key.beyond, Key.cursor]
    | mempool txid' =>
      cases hkey : tx.key with
      | confirmed height txid =>
        have hle := hmark hkey
        simpa [above, Snapshot.cursorAfter, Key.beyond, Key.cursor, Cursor.confirmedMark] using hle
      | mempool txid =>
        show (!decide (txid ≤ txid')) = decide (Key.mempool txid' < .mempool txid)
        rw [← decide_not, decide_eq_decide, not_le, Key.mempool_lt_mempool]

/-- The floor of a position is at or below the mark. -/
lemma highWater_cursorAfter {after : Option Key} (hafter : snapshot.Position after) :
    highWater ((snapshot.cursorAfter after).elim bottom Cursor.confirmedMark) snapshot.txs =
      snapshot.mark := by
  rw [highWater_eq]
  refine max_eq_right ?_
  cases after with
  | none => exact bottom_le _
  | some k =>
    obtain ⟨tx, htx, rfl⟩ := hafter k rfl
    cases hkey : tx.key with
    | confirmed height txid => exact snapshot.le_mark _ _ htx hkey
    | mempool txid => exact le_rfl

/-- **What is planned after an item** is what the whole plan has after it.

**Proof sketch.** Both plans list items in strictly increasing order of their keys, so it is enough
that they have the same items. An item is in the later plan when its transaction is above the
cursor, which is when its key is beyond the position (`above_cursorAfter`). -/
lemma plan_resume {items : List Item} (hmapped : Mapped ctx owned snapshot.txs)
    (hplan : plan ctx snapshot.toChain owned none = .ok ⟨items, snapshot.mark⟩)
    {after : Option Key} (hafter : snapshot.Position after) :
    plan ctx snapshot.toChain owned (snapshot.cursorAfter after) =
      .ok ⟨items.filter fun i => Key.beyond after i.1, snapshot.mark⟩ := by
  obtain ⟨all, hall, hsorted, hmem⟩ := plan_spec ctx owned snapshot hmapped none
  obtain ⟨later, hlater, hsorted', hmem'⟩ :=
    plan_spec ctx owned snapshot hmapped (snapshot.cursorAfter after)
  obtain rfl : all = items := congrArg Plan.items (Except.ok.inj (hall.symm.trans hplan))
  rw [hlater, highWater_cursorAfter hafter]
  congr 2
  refine eq_of_increasing Prod.fst hsorted' (hsorted.filter _) fun i => ?_
  rw [hmem', List.mem_filter, hmem]
  have hkey {tx : Tx} (h : itemOf ctx owned tx = some i) : i.1 = tx.key := by
    obtain ⟨o, -, rfl⟩ := Option.map_eq_some_iff.mp h
    rfl
  constructor
  · rintro ⟨tx, htx, habove, hitem⟩
    refine ⟨⟨tx, htx, ?_, hitem⟩, ?_⟩
    · exact above_cursorAfter none Snapshot.position_none htx
    · rw [hkey hitem, ← above_cursorAfter _ hafter htx]
      exact habove
  · rintro ⟨⟨tx, htx, -, hitem⟩, hbeyond⟩
    refine ⟨tx, htx, ?_, hitem⟩
    rw [above_cursorAfter _ hafter htx, ← hkey hitem]
    exact hbeyond

/-- The cursor of a later item is greater.

**Proof sketch.** By the sections of the two items. In the confirmed section cursors are compared as
their keys are; a cursor into the mempool section has the mark of the snapshot, which no confirmed
key exceeds, and is greater by its second part; in the mempool section the marks are equal and the
txids decide. A mempool item is never before a confirmed one. -/
lemma cursor_lt_cursor {tx tx' : Tx} (htx : tx ∈ snapshot.txs) (h : tx.key < tx'.key) :
    tx.key.cursor snapshot.mark < tx'.key.cursor snapshot.mark := by
  have hmark {height : U64} {txid : String} := snapshot.le_mark height txid htx
  show Cursor.rank _ < Cursor.rank _
  cases hkey : tx.key with
  | confirmed height txid =>
    cases hkey' : tx'.key with
    | confirmed height' txid' =>
      rw [hkey, hkey', Key.confirmed_lt_confirmed, Prod.Lex.toLex_lt_toLex] at h
      rw [Key.cursor, Key.cursor, Cursor.rank, Cursor.rank, Prod.Lex.toLex_lt_toLex]
      rcases h with h | ⟨h, ht⟩
      · exact Or.inl h
      · exact Or.inr ⟨h, Prod.Lex.toLex_lt_toLex.mpr (Or.inl ht)⟩
    | mempool txid' =>
      have hle := hmark hkey
      rw [← toLex_ofLex snapshot.mark, Prod.Lex.toLex_le_toLex'] at hle
      rw [Key.cursor, Key.cursor, Cursor.rank, Cursor.rank, Prod.Lex.toLex_lt_toLex]
      rcases hle.1.lt_or_eq with hlt | heq
      · exact Or.inl hlt
      · refine Or.inr ⟨heq, Prod.Lex.toLex_lt_toLex.mpr ?_⟩
        rcases (hle.2 heq).lt_or_eq with hlt | heq
        · exact Or.inl hlt
        · exact Or.inr ⟨heq, WithBot.bot_lt_coe _⟩
  | mempool txid =>
    cases hkey' : tx'.key with
    | confirmed height' txid' =>
      rw [hkey, hkey'] at h
      exact absurd h Key.not_mempool_lt_confirmed
    | mempool txid' =>
      rw [hkey, hkey', Key.mempool_lt_mempool] at h
      rw [Key.cursor, Key.cursor, Cursor.rank, Cursor.rank, Prod.Lex.toLex_lt_toLex]
      refine Or.inr ⟨rfl, Prod.Lex.toLex_lt_toLex.mpr (Or.inr ⟨rfl, ?_⟩)⟩
      exact WithBot.coe_lt_coe.mpr h

/-- A cursor that a crawl issues is read back.

**Proof sketch.** A cursor is read back when its txids are txids or empty (`Cursor.parse_encode`).
Those of a snapshot are, and the mark, being the greatest key of the snapshot or the bottom, has one
of them or none. -/
lemma parse_encode_cursor {tx : Tx} (htx : tx ∈ snapshot.txs) :
    Cursor.parse (tx.key.cursor snapshot.mark).encode = .ok (tx.key.cursor snapshot.mark) := by
  have hmark : (ofLex snapshot.mark).2 = "" ∨ isTxid (ofLex snapshot.mark).2 = true := by
    have hreached (floor : Mark) (txs : List Tx) (h : ∀ tx ∈ txs, isTxid tx.txid = true) :
        highWater floor txs = floor ∨ isTxid (ofLex (highWater floor txs)).2 = true := by
      induction txs generalizing floor with
      | nil => exact Or.inl rfl
      | cons tx txs ih =>
        have ih := fun floor => ih floor fun tx htx => h tx (List.mem_cons_of_mem _ htx)
        rw [highWater, List.foldl_cons]
        cases tx.height with
        | none => exact ih floor
        | some height =>
          simp only [Option.map_some, Option.getD_some]
          rcases ih (max floor (toLex (height, tx.txid))) with hsame | htxid
          · rw [highWater] at hsame
            rw [hsame]
            rcases max_choice floor (toLex (height, tx.txid)) with hmax | hmax
            · exact Or.inl hmax
            · rw [hmax]
              exact Or.inr (h tx List.mem_cons_self)
          · exact Or.inr htxid
    rcases hreached bottom snapshot.txs snapshot.txids with h | h
    · exact Or.inl (by rw [Snapshot.mark, h]; rfl)
    · exact Or.inr h
  have htxid := snapshot.txids tx htx
  refine Cursor.parse_encode ?_ ?_
  all_goals unfold Tx.key; split
  · exact Or.inr htxid
  · exact hmark
  · intro m hm
    cases hm
  · intro m hm
    exact Option.some.inj hm ▸ htxid

end Position

/-! ### All pages -/

section Pages

variable {ctx : Ctx} {owned : List String} {snapshot : Snapshot} {items : List Item}

/-- The items after a position, in a list of increasing keys. -/
lemma filter_beyond_split {before after : List Item} {i : Item}
    (h : (before ++ i :: after).Pairwise fun i j => i.1 < j.1) :
    (before ++ i :: after).filter (fun j => Key.beyond (some i.1) j.1) = after := by
  obtain ⟨-, hafter, hcross⟩ := List.pairwise_append.mp h
  have hnone : before.filter (fun j => Key.beyond (some i.1) j.1) = [] := by
    refine List.filter_eq_nil_iff.mpr fun j hj => ?_
    simpa [Key.beyond] using (hcross j hj i List.mem_cons_self).le
  have hall : after.filter (fun j => Key.beyond (some i.1) j.1) = after := by
    refine List.filter_eq_self.mpr fun j hj => ?_
    simpa [Key.beyond] using (List.pairwise_cons.mp hafter).1 j hj
  rw [List.filter_append, hnone, List.filter_cons, hall]
  simp [Key.beyond]

/-- What is after a later position is after it in what is after an earlier one. -/
lemma filter_beyond_filter {after : Option Key} {k : Key} (h : Key.beyond after k = true)
    (items : List Item) :
    (items.filter fun i => Key.beyond after i.1).filter (fun i => Key.beyond (some k) i.1) =
      items.filter fun i => Key.beyond (some k) i.1 := by
  rw [List.filter_filter]
  refine List.filter_congr fun i _ => ?_
  cases after with
  | none => simp [Key.beyond]
  | some k' =>
    simp only [Key.beyond, Option.all_some, decide_eq_true_eq] at h ⊢
    by_cases hlt : k < i.1
    · simp [hlt, h.trans hlt]
    · simp [hlt]

/-- What the pages from a position on deliver. -/
structure Delivers (budgets : ℕ → ℕ) (n : ℕ) (start : Option Cursor) (remaining : List Item)
    (pages : List Page) : Prop where
  observations : pages.flatMap Page.observations = remaining.filterMap kept
  degraded : ∀ i ∈ remaining, ∀ d, dropped i = some d → ∃ page ∈ pages, d ∈ page.degraded
  bytes : ∀ j page, pages[j]? = some page →
    page.bytes = (page.observations.map cost).sum ∧ page.bytes ≤ budgets (n + j)
  increasing : (start.toList ++ pages.filterMap Page.next).Pairwise (· < ·)

/-- What is after an item in a list of increasing keys is what comes after it in what is left of the
list from an earlier position on. -/
lemma filter_beyond_of_split {after : Option Key} {before rest : List Item} {j : Item}
    (hsorted : items.Pairwise fun i j => i.1 < j.1) (hbeyond : Key.beyond after j.1 = true)
    (h : (items.filter fun i => Key.beyond after i.1) = before ++ j :: rest) :
    items.filter (fun i => Key.beyond (some j.1) i.1) = rest := by
  rw [← filter_beyond_filter hbeyond, h]
  exact filter_beyond_split (h ▸ hsorted.filter _)

/-- The cursor that a crawl asks with at a position is read back as that position's. -/
lemma parse_cursorAfter {after : Option Key} (hafter : snapshot.Position after) :
    ((snapshot.cursorAfter after).map Cursor.encode).mapM Cursor.parse =
      .ok (snapshot.cursorAfter after) := by
  cases after with
  | none => rfl
  | some k =>
    obtain ⟨tx, htx, rfl⟩ := hafter k rfl
    have hround := parse_encode_cursor htx
    simp only [Snapshot.cursorAfter, Option.map_some, Option.mapM_some, hround]
    rfl

/-- The page that is served at a position is cut from what the plan has after it. -/
lemma servePage_cursorAfter (hmapped : Mapped ctx owned snapshot.txs)
    (hplan : plan ctx snapshot.toChain owned none = .ok ⟨items, snapshot.mark⟩)
    {after : Option Key} (hafter : snapshot.Position after) (budget : ℕ) :
    servePage ctx snapshot.toChain owned ((snapshot.cursorAfter after).map Cursor.encode) budget =
      .ok (cutPage ⟨items.filter fun i => Key.beyond after i.1, snapshot.mark⟩
        (snapshot.cursorAfter after) budget) := by
  rw [servePage, parse_cursorAfter hafter]
  simp only [plan_resume hmapped hplan hafter]

/-- The cursor that a page returns is greater than the one it was asked with, when the item it
stands for is after the position. -/
lemma lt_cursor_of_beyond {after : Option Key} (hafter : snapshot.Position after) {tx : Tx}
    (hbeyond : Key.beyond after tx.key = true) :
    ∀ c ∈ snapshot.cursorAfter after, c < tx.key.cursor snapshot.mark := by
  intro c hc
  cases after with
  | none => cases hc
  | some k =>
    obtain ⟨tx', htx', rfl⟩ := hafter k rfl
    obtain rfl : tx'.key.cursor snapshot.mark = c := Option.some.inj hc
    refine cursor_lt_cursor htx' ?_
    simpa [Key.beyond] using hbeyond

/-- A page that drains the crawl delivers what remains, alone. -/
lemma Delivers.last {budgets : ℕ → ℕ} {n : ℕ} {start : Option Cursor} {remaining : List Item}
    {page : Page} (hobs : page.observations = remaining.filterMap kept)
    (hdeg : page.degraded = remaining.filterMap dropped)
    (hbytes : page.bytes = (page.observations.map cost).sum ∧ page.bytes ≤ budgets n)
    (hnext : page.next = none) : Delivers budgets n start remaining [page] where
  observations := by simp [hobs]
  degraded := fun i hi d hd => by
    refine ⟨page, List.mem_singleton_self _, ?_⟩
    rw [hdeg]
    exact List.mem_filterMap.mpr ⟨i, hi, hd⟩
  bytes := fun j p hj => by
    obtain ⟨rfl, rfl⟩ : j = 0 ∧ p = page := by
      cases j with
      | zero => simpa using hj.symm
      | succ j => simp at hj
    exact hbytes
  increasing := by cases start <;> simp [hnext]

/-- A page that is cut delivers what it took, and the pages after it the rest, when what is taken
again after its last emitted item was not emitted.

**Proof sketch.** Field by field. The records of the page and those of the pages after it are the
records of the items in order, because the items between the last record and the cut have none. What
is degraded is named by this page or by a later one. The bytes of this page are by assumption and
those of the others by the tail; and the cursor of this page is greater than where it started and
smaller than the ones that follow. -/
lemma Delivers.cons {budgets : ℕ → ℕ} {n : ℕ} {start : Option Cursor} {c : Cursor}
    {before between rest : List Item} {page : Page} {pages : List Page}
    (hobs : page.observations = (before ++ between).filterMap kept)
    (hdeg : page.degraded = (before ++ between).filterMap dropped)
    (hbytes : page.bytes = (page.observations.map cost).sum ∧ page.bytes ≤ budgets n)
    (hnext : page.next = some c) (hstart : ∀ c' ∈ start, c' < c)
    (hbetween : ∀ i ∈ between, kept i = none)
    (h : Delivers budgets (n + 1) (some c) (between ++ rest) pages) :
    Delivers budgets n start (before ++ between ++ rest) (page :: pages) where
  observations := by
    have hnone : between.filterMap kept = [] := List.filterMap_eq_nil_iff.mpr hbetween
    have hlist := h.observations
    rw [List.filterMap_append, hnone, List.nil_append] at hlist
    rw [List.flatMap_cons, hlist, hobs, ← List.filterMap_append]
  degraded := fun i hi d hd => by
    rcases List.mem_append.mp hi with hi | hi
    · refine ⟨page, List.mem_cons_self, ?_⟩
      rw [hdeg]
      exact List.mem_filterMap.mpr ⟨i, hi, hd⟩
    · obtain ⟨p, hp, hmem⟩ := h.degraded i (List.mem_append_right _ hi) d hd
      exact ⟨p, List.mem_cons_of_mem _ hp, hmem⟩
  bytes := fun m p hp => by
    cases m with
    | zero =>
      obtain rfl : page = p := by simpa using hp
      exact hbytes
    | succ m =>
      have hlater := h.bytes m p (by simpa using hp)
      rwa [Nat.add_right_comm, Nat.add_assoc] at hlater
  increasing := by
    have htail := h.increasing
    rw [List.filterMap_cons, hnext]
    cases start with
    | none => exact htail
    | some c' =>
      have hfirst : c' < c := hstart c' rfl
      refine List.pairwise_cons.mpr ⟨fun x hx => ?_, htail⟩
      rcases List.mem_cons.mp hx with rfl | hx
      · exact hfirst
      · exact hfirst.trans ((List.pairwise_cons.mp htail).1 x hx)

/-- **The pages from a position on deliver what is after it**, when every budget admits an
observation: then a page that is cut has emitted something, and the next starts after it.

**Proof sketch.** Induction on the fuel, which exceeds the number of items after the position. The
page that is served there is cut from these items (`servePage_cursorAfter`, `cutPage_spec`). If it
takes them all, it is the last one (`Delivers.last`). Otherwise the budget did not admit one more
observation; since every budget admits one, the page has emitted some item, and its cursor stands
for the last of these. The items after that one are what the plan has after the next position
(`filter_beyond_of_split`): they are fewer, the induction hypothesis delivers them, and the page is
put before those pages (`Delivers.cons`). -/
lemma crawl_delivers (after : Option Key) (fuel : ℕ) (hmapped : Mapped ctx owned snapshot.txs)
    (hplan : plan ctx snapshot.toChain owned none = .ok ⟨items, snapshot.mark⟩)
    (hsorted : items.Pairwise fun i j => i.1 < j.1)
    (hkeys : ∀ i ∈ items, ∃ tx ∈ snapshot.txs, i.1 = tx.key)
    {budgets : ℕ → ℕ} (hbudgets : ∀ n, MAX_OBSERVATION_BYTES + 1 ≤ budgets n)
    (hafter : snapshot.Position after) (n : ℕ)
    (hfuel : (items.filter fun i => Key.beyond after i.1).length < fuel) :
    ∃ pages, crawl ctx snapshot.toChain owned budgets fuel n
        ((snapshot.cursorAfter after).map Cursor.encode) = .ok (some pages) ∧
      Delivers budgets n (snapshot.cursorAfter after)
        (items.filter fun i => Key.beyond after i.1) pages := by
  induction fuel generalizing after n with
  | zero => omega
  | succ fuel ih =>
    have hserve := servePage_cursorAfter hmapped hplan hafter (budgets n)
    set remaining := items.filter fun i => Key.beyond after i.1 with hremaining
    obtain ⟨taken, rest, hsplit, hobs, hdeg, hspent, hle, hnext⟩ :=
      cutPage_spec ⟨remaining, snapshot.mark⟩ (snapshot.cursorAfter after) (budgets n)
    set page := cutPage ⟨remaining, snapshot.mark⟩ (snapshot.cursorAfter after) (budgets n)
    have hbytes : page.bytes = (page.observations.map cost).sum ∧ page.bytes ≤ budgets n :=
      ⟨by rw [hspent, hobs, spent], hle⟩
    dsimp only at hsplit hnext
    rw [crawl, hserve]
    rcases hnext with ⟨hnext, rfl⟩ | ⟨hnext, i, o, more, rfl, hkept, hover⟩
    · -- the page drains the crawl
      rw [List.append_nil] at hsplit
      exact ⟨[page], by simp only [hnext],
        .last (hsplit ▸ hobs) (hsplit ▸ hdeg) hbytes hnext⟩
    · -- the page was cut after an item that it emitted
      have hemitted : 0 < spent taken := by
        have hsmall := bytes_le_of_kept hkept
        have := hbudgets n
        rw [hspent, cost] at hover
        omega
      obtain ⟨k, hlast⟩ := exists_getLast_emittedKeys hemitted
      obtain ⟨before, j, between, rfl, rfl, hbetween⟩ := exists_last_emitted hlast
      rw [hlast] at hnext
      have hrest : remaining = before ++ j :: (between ++ i :: more) := by
        rw [hsplit]
        simp
      have hj : j ∈ remaining := by rw [hrest]; simp
      obtain ⟨hjitems, hbeyond⟩ := List.mem_filter.mp hj
      obtain ⟨tx, htx, hkey⟩ := hkeys j hjitems
      have hposition : snapshot.Position (some j.1) := by
        intro k hk
        exact ⟨tx, htx, hkey.symm.trans (Option.some.inj hk)⟩
      have hlater := filter_beyond_of_split hsorted hbeyond (hremaining ▸ hrest)
      have hfewer : (items.filter fun i => Key.beyond (some j.1) i.1).length < fuel := by
        have hlen := congrArg List.length hrest
        rw [hlater]
        simp only [List.length_append, List.length_cons] at hlen ⊢
        omega
      obtain ⟨pages, hpages, hdelivers⟩ := ih _ hposition (n + 1) hfewer
      have hcursor : snapshot.cursorAfter (some j.1) = some (j.1.cursor snapshot.mark) := rfl
      rw [hcursor, hlater] at hdelivers
      rw [hcursor, Option.map_some] at hpages
      have hstart : ∀ c ∈ snapshot.cursorAfter after, c < j.1.cursor snapshot.mark := by
        rw [hkey] at hbeyond ⊢
        exact lt_cursor_of_beyond hafter hbeyond
      have htaken : before ++ j :: between = before ++ [j] ++ between := by simp
      rw [htaken] at hsplit hobs hdeg
      refine ⟨page :: pages, by simp only [hnext, hpages, Option.map_some], ?_⟩
      rw [hsplit]
      exact .cons hobs hdeg hbytes hnext hstart hbetween hdelivers

end Pages

/-- **A crawl delivers its plan exactly once.** With budgets that each admit an observation, and
block times that are timestamps, following the cursors of a snapshot ends; its pages are the items
of the plan in the order of their keys, one for each transaction, an oversized one without its
provider's evidence and one that is still too large named in the degraded list of some page. No
page spends more than its budget, and the cursors increase strictly.

Whatever the budget, a page spends no more than it; and one that emits nothing has drained the
plan, or returns the cursor it started from (the bottom, at the start of a crawl, from which the
same is planned).

**Proof sketch.** What is planned after an item is what the whole plan has after it
(`plan_resume`), and a page that is cut has emitted an item (`crawl_delivers`). -/
theorem crawl_exactly_once (ctx : Ctx) (snapshot : Snapshot) (owned : List String)
    (budgets : ℕ → ℕ) :
    ((∀ tx ∈ snapshot.txs, ∀ t, tx.status.blockTime = some t → ∃ ts, rfc3339Utc t = .ok ts) →
      (∀ n, MAX_OBSERVATION_BYTES + 1 ≤ budgets n) →
      ∃ items mark pages, plan ctx snapshot.toChain owned none = .ok ⟨items, mark⟩ ∧
        items.Pairwise (fun i j => i.1 < j.1) ∧
        (∀ i, i ∈ items ↔ ∃ tx ∈ snapshot.txs, i.1 = tx.key ∧ active ctx tx owned = .ok i.2) ∧
        crawl ctx snapshot.toChain owned budgets (snapshot.txs.length + 1) 0 none =
          .ok (some pages) ∧
        pages.flatMap Page.observations = items.filterMap kept ∧
        (∀ i ∈ items, ∀ o, kept i = some o → o =
          if MAX_OBSERVATION_BYTES < i.2.bytes then
            { i.2 with
              providerExtra := (truncated i.2).providerExtra
              provenance := { i.2.provenance with completeness := .partialRecord } }
          else i.2) ∧
        (∀ i ∈ items, kept i = none → MAX_OBSERVATION_BYTES < (truncated i.2).bytes ∧
          ∃ page ∈ pages, ∃ d ∈ page.degraded, d.localId = some i.2.localId) ∧
        (∀ n page, pages[n]? = some page →
          page.bytes = (page.observations.map cost).sum ∧ page.bytes ≤ budgets n) ∧
        (pages.filterMap Page.next).Pairwise (· < ·)) ∧
    ∀ (start : Option Cursor) (budget : ℕ) (p : Plan),
      plan ctx snapshot.toChain owned start = .ok p →
        (cutPage p start budget).bytes =
          ((cutPage p start budget).observations.map cost).sum ∧
        (cutPage p start budget).bytes ≤ budget ∧
        ((cutPage p start budget).observations = [] →
          (cutPage p start budget).next = none ∧ p.items.filterMap kept = [] ∨
          (cutPage p start budget).next = some (start.getD ⟨0, "", none⟩) ∧
            plan ctx snapshot.toChain owned (some (start.getD ⟨0, "", none⟩)) = .ok p) := by
  refine ⟨fun htimes hbudgets => ?_, fun start budget p hplan => ?_⟩
  · have hmapped : Mapped ctx owned snapshot.txs := fun tx htx =>
      active_isOk_iff.mpr (htimes tx htx)
    obtain ⟨items, hplan, hsorted, hmem⟩ := plan_spec ctx owned snapshot hmapped none
    have hitem (i : Item) : i ∈ items ↔
        ∃ tx ∈ snapshot.txs, i.1 = tx.key ∧ active ctx tx owned = .ok i.2 := by
      rw [hmem]
      refine exists_congr fun tx => and_congr_right fun htx => ?_
      obtain ⟨o, ho⟩ := hmapped tx htx
      have habove : above none tx.key = true := above_cursorAfter none Snapshot.position_none htx
      rw [itemOf, ho]
      simp only [habove, true_and, Except.toOption, Option.map_some, Option.some.injEq,
        Except.ok.injEq]
      refine ⟨fun h => h ▸ ⟨rfl, rfl⟩, ?_⟩
      rintro ⟨hkey, hobs⟩
      exact Prod.ext hkey.symm hobs
    have hlen : items.length ≤ snapshot.txs.length := by
      have hsub : items.map Prod.fst ⊆ snapshot.txs.map Tx.key := by
        intro k hk
        obtain ⟨i, hi, rfl⟩ := List.mem_map.mp hk
        obtain ⟨tx, htx, hkey, -⟩ := (hitem i).mp hi
        exact List.mem_map.mpr ⟨tx, htx, hkey.symm⟩
      have hnodup : (items.map Prod.fst).Nodup := by
        rw [List.Nodup, List.pairwise_map]
        exact hsorted.imp fun hlt => hlt.ne
      simpa using (hnodup.subperm hsub).length_le
    have hall : items.filter (fun i => Key.beyond none i.1) = items := by
      simp [Key.beyond]
    obtain ⟨pages, hpages, hdelivers⟩ :=
      crawl_delivers none (snapshot.txs.length + 1) hmapped hplan hsorted
      (fun i hi => by
        obtain ⟨tx, htx, hkey, -⟩ := (hitem i).mp hi
        exact ⟨tx, htx, hkey⟩)
      hbudgets Snapshot.position_none 0 (by rw [hall]; omega)
    rw [hall] at hdelivers
    refine ⟨items, _, pages, hplan, hsorted, hitem, hpages, hdelivers.observations, ?_, ?_, ?_,
      hdelivers.increasing⟩
    · intro i _ o ho
      have hok : degrade i.2 = .ok o := by
        unfold kept at ho
        cases hfit : degrade i.2 with
        | error d => simp [hfit, Except.toOption] at ho
        | ok o' => simpa [hfit, Except.toOption] using ho
      exact degrade_eq_ok hok
    · intro i hi hnone
      obtain ⟨d, hd⟩ := kept_eq_none_iff.mp hnone
      obtain ⟨page, hpage, hmemd⟩ := hdelivers.degraded i hi d hd
      obtain ⟨hbig, hlocal⟩ := dropped_eq_some hd
      exact ⟨hbig, page, hpage, d, hmemd, hlocal⟩
    · intro n page hpage
      simpa using hdelivers.bytes n page hpage
  · obtain ⟨taken, rest, hsplit, hobs, -, hbytes, hle, hnext⟩ := cutPage_spec p start budget
    refine ⟨by rw [hbytes, hobs, spent], hle, fun hempty => ?_⟩
    rcases hnext with ⟨hnext, rfl⟩ | ⟨hnext, -⟩
    · rw [List.append_nil] at hsplit
      exact Or.inl ⟨hnext, by rw [hsplit, ← hobs, hempty]⟩
    · have hnil : emittedKeys taken = [] := by
        rw [hobs, List.filterMap_eq_nil_iff] at hempty
        refine List.filterMap_eq_nil_iff.mpr fun i hi => ?_
        rw [hempty i hi]
        rfl
      rw [hnil] at hnext
      refine Or.inr ⟨hnext, ?_⟩
      cases start with
      | some c => exact hplan
      | none => exact hplan

/-- A transaction at a height, or in the mempool. -/
def crawledTx (letter : Char) (height : Option U64) : Tx where
  txid := String.ofList (List.replicate 64 letter)
  fee := 0
  status := ⟨height.isSome, height, none, height.map fun _ => 1700000000⟩
  vin := []
  vout := []
  vin_lt := length_nil_lt
  vout_lt := length_nil_lt

/-- A snapshot of two transactions with a block and one that waits, in the order of their txids. -/
def threeListed : Snapshot where
  txs := [crawledTx 'a' (some 800001), crawledTx 'b' none, crawledTx 'c' (some 800000)]
  mempool := [(crawledTx 'b' none).txid]
  sorted := by decide +kernel
  txids := by decide +kernel
  mempool_eq := by decide +kernel

/-- A crawl of three transactions, by pages that have room for one observation of the largest size:
it ends, and its pages have all three.

**Proof sketch.** The block times can be written, so the theorem gives the pages, with all that the
plan emits; the keys of the plan are evaluated. -/
theorem crawl_exactly_once_three :
    ∃ items mark pages,
      plan ⟨"savings", "sumer-bitcoin", "https://a.example", ⟨"2026-01-01T00:00:00Z", by decide⟩⟩
        threeListed.toChain [] none = .ok ⟨items, mark⟩ ∧
      crawl ⟨"savings", "sumer-bitcoin", "https://a.example", ⟨"2026-01-01T00:00:00Z", by decide⟩⟩
        threeListed.toChain [] (fun _ => MAX_OBSERVATION_BYTES + 1) 4 0 none = .ok (some pages) ∧
      pages.flatMap Page.observations = items.filterMap kept ∧
      items.map Prod.fst =
        [(crawledTx 'c' (some 800000)).key, (crawledTx 'a' (some 800001)).key,
          (crawledTx 'b' none).key] := by
  have htimes : ∀ tx ∈ threeListed.txs, ∀ t, tx.status.blockTime = some t →
      ∃ ts, rfc3339Utc t = .ok ts := by
    have hall : ∀ tx ∈ threeListed.txs, ∀ t ∈ tx.status.blockTime, t = 1700000000 := by
      decide +kernel
    intro tx htx t ht
    rw [hall tx htx t ht]
    exact exists_eq_ok_iff.mpr (by decide +kernel)
  obtain ⟨items, mark, pages, hplan, -, -, hcrawl, hall, -⟩ :=
    (crawl_exactly_once ⟨"savings", "sumer-bitcoin", "https://a.example",
      ⟨"2026-01-01T00:00:00Z", by decide⟩⟩ threeListed [] fun _ => MAX_OBSERVATION_BYTES + 1).1
      htimes fun _ => le_rfl
  have hkeys : ((plan ⟨"savings", "sumer-bitcoin", "https://a.example",
      ⟨"2026-01-01T00:00:00Z", by decide⟩⟩ threeListed.toChain [] none).toOption.map
        fun p => p.items.map Prod.fst) = some
      [(crawledTx 'c' (some 800000)).key, (crawledTx 'a' (some 800001)).key,
        (crawledTx 'b' none).key] := by decide +kernel
  rw [hplan] at hkeys
  exact ⟨items, mark, pages, hplan, hcrawl, hall, Option.some.inj hkeys⟩

end Sumer.Bitcoin
