import Mathlib.Data.Sum.Order
import Mathlib.Data.List.Sort
import Sumer.Bitcoin.Map
import Sumer.Host.Balances

set_option relaxedAutoImplicit false
set_option autoImplicit false

/-!
# Planning a sync and cutting a page

The compound cursor, the order of emission, the plan of one sync and the cut of one page
(`adapters/bitcoin/src/map.rs`). A page is cut by bytes; its cursor names the last item that was
emitted, and a mempool cursor carries the confirmed mark as well.

## Main definitions

* `Sumer.Bitcoin.Cursor`, `Sumer.Bitcoin.Key`: a resume point, and a place in a sync's order.
* `Sumer.Bitcoin.Snapshot`: the transactions of one sync.
* `Sumer.Bitcoin.plan`, `Sumer.Bitcoin.cutPage`: the emission list, and one page of it.

## Main results

* `Sumer.Bitcoin.Cursor.parse_encode`: a cursor that was issued is read back.
* `Sumer.Bitcoin.cutItems_spec`: what a page takes of a plan, and where it stops.
-/

namespace Sumer.Bitcoin

open Sumer.Wire Sumer.Host

/-! ### Cursors -/

/-- The first occurrence of a separator, and what stands on either side of it. -/
def splitOnce (sep : List Char) : List Char → Option (List Char × List Char)
  | [] => none
  | ch :: rest =>
    if sep.isPrefixOf (ch :: rest) then some ([], (ch :: rest).drop sep.length)
    else (splitOnce sep rest).map fun parts => (ch :: parts.1, parts.2)

/-- `str::parse::<u64>`: digits, with an optional plus sign before them. -/
def parseU64 (text : List Char) : Option U64 :=
  let digits := if text.head? = some '+' then text.tail else text
  if digits.isEmpty || !digits.all Char.isDigit then none
  else if h : Nat.ofDigitChars 10 digits 0 < 2 ^ 64 then some ⟨_, h⟩
  else none

/-- The compound cursor: the confirmed high-water mark, and the place in the mempool section. -/
structure Cursor where
  height : U64
  txid : String
  mempool : Option String
deriving DecidableEq

/-- A cursor string this adapter could not have issued. -/
structure CursorError where
  cursor : String

/-- A place in the confirmed section: a height, and a txid at that height. -/
abbrev Mark := U64 ×ₗ String

/-- The confirmed mark below every transaction. -/
def bottom : Mark := toLex (0, "")

/-- `Cursor::confirmed_mark`. -/
def Cursor.confirmedMark (c : Cursor) : Mark := toLex (c.height, c.txid)

/-- The derived order of a cursor: its fields one after the other, no mempool place below any. -/
def Cursor.rank (c : Cursor) : U64 ×ₗ String ×ₗ WithBot String :=
  toLex (c.height, toLex (c.txid, c.mempool))

/-- Two cursors of one rank are one cursor: the rank has everything that a cursor has. -/
lemma Cursor.rank_injective : Function.Injective Cursor.rank := by
  rintro ⟨h, t, m⟩ ⟨h', t', m'⟩ heq
  simp only [rank, toLex_inj, Prod.mk.injEq] at heq
  obtain ⟨rfl, rfl, rfl⟩ := heq
  rfl

/-- Cursors stand in the order of their ranks: the start of a crawl, then the blocks by height and
transaction id, then the mempool. -/
instance : LinearOrder Cursor := LinearOrder.lift' Cursor.rank Cursor.rank_injective

/-- `Cursor::parse`. -/
def Cursor.parse (s : String) : Except CursorError Cursor :=
  match splitOnce [':'] s.toList with
  | none => .error ⟨s⟩
  | some (height, rest) =>
    match parseU64 height with
    | none => .error ⟨s⟩
    | some height =>
      -- a txid is hex, so the first ":m:" is the mempool suffix
      let (txid, mempool) :=
        match splitOnce ":m:".toList rest with
        | some (txid, mempool) => (String.ofList txid, some (String.ofList mempool))
        | none => (String.ofList rest, none)
      if !txid.isEmpty && !isTxid txid then .error ⟨s⟩
      else if mempool.any fun m => !isTxid m then .error ⟨s⟩
      else .ok ⟨height, txid, mempool⟩

/-- `Cursor::encode`. -/
def Cursor.encode (c : Cursor) : String :=
  match c.mempool with
  | some m => toString c.height.val ++ ":" ++ c.txid ++ ":m:" ++ m
  | none => toString c.height.val ++ ":" ++ c.txid

/-- Where one observation sits in a sync's total order. -/
inductive Key where
  | confirmed (height : U64) (txid : String)
  | mempool (txid : String)
deriving DecidableEq

/-- The derived order of a key: confirmed transactions by height and txid, then the mempool. -/
def Key.rank : Key → Mark ⊕ₗ String
  | .confirmed height txid => toLex (.inl (toLex (height, txid)))
  | .mempool txid => toLex (.inr txid)

/-- Two keys of one rank are one key. -/
lemma Key.rank_injective : Function.Injective Key.rank := by
  intro k k' heq
  cases k <;> cases k' <;> simp_all [rank]

/-- Keys stand in the order of their ranks, which is the order in which a plan lists its
transactions. -/
instance : LinearOrder Key := LinearOrder.lift' Key.rank Key.rank_injective

/-- The cursor that resumes after this item. -/
def Key.cursor (highWater : Mark) : Key → Cursor
  | .confirmed height txid => ⟨height, txid, none⟩
  | .mempool txid => ⟨(ofLex highWater).1, (ofLex highWater).2, some txid⟩

/-! ### Planning a sync -/

/-- Everything one sync established about the chain: the transactions in txid order, which is the
order of the map they are kept in, and the txids reported as unconfirmed. -/
structure Chain where
  txs : List Tx
  mempool : List String

/-- What a sync builds: no two transactions with one txid, every txid of the right form, and in
the mempool the transactions without a height. -/
structure Snapshot extends Chain where
  sorted : txs.Pairwise (fun a b => a.txid < b.txid)
  txids : ∀ tx ∈ txs, isTxid tx.txid = true
  mempool_eq : mempool = (txs.filter fun tx => tx.height.isNone).map Tx.txid

/-- An item of a plan. -/
abbrev Item := Key × ObservationWire

/-- One sync's emission list, and the confirmed high-water mark it reached. -/
structure Plan where
  items : List Item
  highWater : Mark

/-- The confirmed section: every confirmed transaction strictly above a mark. -/
def planConfirmed (ctx : Ctx) (owned : List String) (floor : Mark) :
    List Tx → Except MapError (List Item)
  | [] => .ok []
  | tx :: rest =>
    match tx.height with
    | none => planConfirmed ctx owned floor rest
    | some height =>
      if toLex (height, tx.txid) ≤ floor then planConfirmed ctx owned floor rest
      else do
        let observation ← active ctx tx owned
        let items ← planConfirmed ctx owned floor rest
        .ok ((.confirmed height tx.txid, observation) :: items)

/-- The highest confirmed mark of some transactions and a floor. -/
def highWater (floor : Mark) (txs : List Tx) : Mark :=
  txs.foldl
    (fun highest tx =>
      (tx.height.map fun height => max highest (toLex (height, tx.txid))).getD highest) floor

/-- The mempool section: everything reported as unconfirmed after a txid. -/
def planMempool (ctx : Ctx) (owned : List String) (txs : List Tx) (resumeAfter : Option String) :
    List String → Except MapError (List Item)
  | [] => .ok []
  | txid :: rest =>
    if resumeAfter.any fun z => decide (txid ≤ z) then planMempool ctx owned txs resumeAfter rest
    else
      match txs.find? (·.txid == txid) with
      | none => planMempool ctx owned txs resumeAfter rest
      | some tx => do
        let observation ← active ctx tx owned
        let items ← planMempool ctx owned txs resumeAfter rest
        .ok ((.mempool txid, observation) :: items)

/-- The order items are sorted by. -/
def Item.le (a b : Item) : Prop := a.1 ≤ b.1

/-- Which of two items comes first is decided by their keys. -/
instance : DecidableRel Item.le := fun a b => inferInstanceAs (Decidable (a.1 ≤ b.1))

/-- Builds the ordered emission list for one sync. -/
def plan (ctx : Ctx) (chain : Chain) (owned : List String) (start : Option Cursor) :
    Except MapError Plan := do
  let floor := start.elim bottom Cursor.confirmedMark
  let confirmed ← planConfirmed ctx owned floor chain.txs
  let pending ← planMempool ctx owned chain.txs (start.bind Cursor.mempool) chain.mempool
  .ok ⟨confirmed.insertionSort Item.le ++ pending, highWater floor chain.txs⟩

/-! ### Cutting a page -/

/-- The result of cutting a plan into one reply-sized page. -/
structure Page where
  observations : List ObservationWire
  next : Option Cursor
  pageSizeReducedTo : Option ℕ
  degraded : List Degraded
  bytes : ℕ

/-- An observation without its provider's evidence, and marked partial. -/
def truncated (o : ObservationWire) : ObservationWire :=
  { o with
    providerExtra := [("_original_bytes", Json.nat (Json.obj o.providerExtra).size),
      ("_truncated", .bool true)]
    provenance := { o.provenance with completeness := .partialRecord } }

/-- The two-step degrade: an oversized observation is truncated and, failing that, omitted and
reported. -/
def degrade (o : ObservationWire) : Except Degraded ObservationWire :=
  let o := if MAX_OBSERVATION_BYTES < o.bytes then truncated o else o
  if MAX_OBSERVATION_BYTES < o.bytes then .error ⟨some o.localId, o.bytes⟩ else .ok o

/-- What one observation costs: its bytes, and the comma that joins it to the previous one. -/
def cost (o : ObservationWire) : ℕ := o.bytes + 1

/-- The state of a cut, and whether it stopped early. -/
structure Cutting where
  observations : List ObservationWire
  lastKey : Option Key
  degraded : List Degraded
  used : ℕ
  cut : Bool

/-- The cut of the rest of a plan. -/
def cutItems (budget : ℕ) : Cutting → List Item → Cutting
  | s, [] => s
  | s, (key, o) :: rest =>
    match degrade o with
    | .error d => cutItems budget { s with degraded := s.degraded ++ [d] } rest
    | .ok o =>
      if budget < s.used + cost o then { s with cut := true }
      else
        cutItems budget
          { s with
            observations := s.observations ++ [o]
            lastKey := some key
            used := s.used + cost o } rest

/-- Cuts a plan at a budget of serialized bytes. -/
def cutPage (p : Plan) (start : Option Cursor) (budget : ℕ) : Page :=
  let s := cutItems budget ⟨[], none, [], 0, false⟩ p.items
  { observations := s.observations
    next :=
      if s.cut then
        some (match s.lastKey with
          | none => start.getD ⟨0, "", none⟩
          | some key => key.cursor p.highWater)
      else none
    pageSizeReducedTo := if s.cut then some (min s.observations.length (2 ^ 32 - 1)) else none
    degraded := s.degraded
    bytes := s.used }

/-! ### The round trip of a cursor -/

section Cursor

/-- The first occurrence of a separator after a text without its first character. -/
lemma splitOnce_append {first : Char} (more : List Char) {before : List Char} (after : List Char)
    (h : first ∉ before) :
    splitOnce (first :: more) (before ++ (first :: more) ++ after) = some (before, after) := by
  induction before with
  | nil =>
    have hstart : (first :: more).isPrefixOf (first :: more ++ after) = true := by simp
    rw [List.nil_append, List.cons_append, splitOnce, ← List.cons_append, if_pos hstart]
    simp
  | cons ch before ih =>
    rw [List.mem_cons, not_or] at h
    have hno : (first :: more).isPrefixOf (ch :: (before ++ first :: more ++ after)) = false := by
      simp [List.isPrefixOf, h.1]
    rw [List.cons_append, List.cons_append, splitOnce, hno, ih h.2]
    rfl

/-- A text without the first character of a separator does not have the separator. -/
lemma splitOnce_eq_none {first : Char} (more : List Char) {text : List Char} (h : first ∉ text) :
    splitOnce (first :: more) text = none := by
  induction text with
  | nil => rfl
  | cons ch text ih =>
    rw [List.mem_cons, not_or] at h
    have hno : (first :: more).isPrefixOf (ch :: text) = false := by
      simp [List.isPrefixOf, h.1]
    rw [splitOnce, hno, ih h.2]
    rfl

/-- The digits of a number are read back. -/
lemma parseU64_toDigits (n : U64) : parseU64 (Nat.toDigits 10 n.val) = some n := by
  have hdigit : ∀ ch ∈ Nat.toDigits 10 n.val, ch.isDigit = true := fun ch hch =>
    Nat.isDigit_of_mem_toDigits (by decide) (by decide) hch
  have hplus : ¬ (Nat.toDigits 10 n.val).head? = some '+' := by
    intro h
    exact absurd (hdigit '+' (List.mem_of_mem_head? h)) (by decide)
  have hgood : ((Nat.toDigits 10 n.val).isEmpty || !(Nat.toDigits 10 n.val).all Char.isDigit) =
      false := by
    simpa using hdigit
  have hlt : Nat.ofDigitChars 10 (Nat.toDigits 10 n.val) 0 < 2 ^ 64 := by
    rw [Nat.ofDigitChars_ten_toDigits]
    exact n.isLt
  rw [parseU64, if_neg hplus]
  simp only [hgood, Bool.false_eq_true, if_false, dif_pos hlt]
  congr 1
  exact Fin.ext Nat.ofDigitChars_ten_toDigits

/-- Every character of a txid is a lowercase hexadecimal digit. -/
lemma isHexDigit_of_mem {txid : String} (h : isTxid txid = true) {ch : Char}
    (hch : ch ∈ txid.toList) : isHexDigit ch = true := by
  rw [isTxid, Bool.and_eq_true, List.all_eq_true] at h
  exact h.2 ch hch

/-- A txid has no colon, so it can stand between colons in a cursor. -/
lemma colon_notMem_of_isTxid {txid : String} (h : isTxid txid = true) : ':' ∉ txid.toList :=
  fun hmem => absurd (isHexDigit_of_mem h hmem) (by decide)

/-- **A cursor that was issued is read back.**

**Proof sketch.** None of the parts has a colon in it: a height is written in digits, and a txid is
empty or in hexadecimal. So the string is split where the encoder joined it, first at the first
colon and then at the mark of the mempool section, and each part is read back as itself. -/
lemma Cursor.parse_encode {c : Cursor} (htxid : c.txid = "" ∨ isTxid c.txid = true)
    (hmempool : ∀ m, c.mempool = some m → isTxid m = true) :
    Cursor.parse c.encode = .ok c := by
  obtain ⟨height, txid, mempool⟩ := c
  have hcolon : ':' ∉ txid.toList := by
    rcases htxid with rfl | htxid
    · exact List.not_mem_nil
    · exact colon_notMem_of_isTxid htxid
  have hheight : ':' ∉ Nat.toDigits 10 height.val := fun hmem =>
    absurd (Nat.isDigit_of_mem_toDigits (by decide) (by decide) hmem) (by decide)
  have htxid' : (!txid.isEmpty && !isTxid txid) = false := by
    rcases htxid with rfl | htxid
    · rfl
    · simp [show isTxid txid = true from htxid]
  have hsplit (rest : List Char) :
      splitOnce [':'] (Nat.toDigits 10 height.val ++ ':' :: rest) =
        some (Nat.toDigits 10 height.val, rest) := by
    simpa using splitOnce_append [] rest hheight
  cases mempool with
  | none =>
    have hlist : (encode ⟨height, txid, none⟩).toList =
        Nat.toDigits 10 height.val ++ ':' :: txid.toList := by
      simp [encode, String.toList_append]
    have hnone : splitOnce ":m:".toList txid.toList = none :=
      splitOnce_eq_none ['m', ':'] hcolon
    rw [parse, hlist, hsplit]
    simp only [parseU64_toDigits, hnone, String.ofList_toList, htxid']
    rfl
  | some m =>
    have hlist : (encode ⟨height, txid, some m⟩).toList =
        Nat.toDigits 10 height.val ++ ':' :: (txid.toList ++ ":m:".toList ++ m.toList) := by
      simp [encode, String.toList_append]
    have hsome : splitOnce ":m:".toList (txid.toList ++ ":m:".toList ++ m.toList) =
        some (txid.toList, m.toList) :=
      splitOnce_append ['m', ':'] m.toList hcolon
    rw [parse, hlist, hsplit]
    simp only [parseU64_toDigits, hsome, String.ofList_toList, htxid',
      Option.any_some, hmempool m rfl]
    rfl

end Cursor

/-! ### The cut -/

/-- What a page emits for an item, if it is not omitted. -/
def kept (i : Item) : Option ObservationWire := (degrade i.2).toOption

/-- What a page reports for an item that it omits. -/
def dropped (i : Item) : Option Degraded :=
  match degrade i.2 with
  | .error d => some d
  | .ok _ => none

/-- The keys of the items that are emitted. -/
def emittedKeys (items : List Item) : List Key :=
  items.filterMap fun i => (kept i).map fun _ => i.1

/-- The bytes that items spend of a budget. -/
def spent (items : List Item) : ℕ := ((items.filterMap kept).map cost).sum

section Cut

variable {budget : ℕ} {items : List Item} {i : Item}

/-- An emitted observation fits the observation limit. -/
lemma bytes_le_of_kept {o : ObservationWire} (h : kept i = some o) :
    o.bytes ≤ MAX_OBSERVATION_BYTES := by
  unfold kept degrade at h
  dsimp only at h
  split_ifs at h <;> simp_all [Except.toOption]

/-- **The degrade**: an observation that fits is emitted as it is; of one that does not, only the
provider's evidence and the completeness are replaced. -/
lemma degrade_eq_ok {o o' : ObservationWire} (h : degrade o = .ok o') :
    o' = if MAX_OBSERVATION_BYTES < o.bytes then truncated o else o := by
  unfold degrade at h
  dsimp only at h
  split_ifs at h <;> simp_all

/-- An item is either emitted or named as degraded, and never both. -/
lemma kept_eq_none_iff : kept i = none ↔ ∃ d, dropped i = some d := by
  unfold kept dropped
  cases degrade i.2 <;> simp [Except.toOption]

/-- What is reported is too large even without its provider's evidence. -/
lemma dropped_eq_some {d : Degraded} (h : dropped i = some d) :
    MAX_OBSERVATION_BYTES < (truncated i.2).bytes ∧ d.localId = some i.2.localId := by
  unfold dropped degrade at h
  dsimp only at h
  split_ifs at h with hbig hstill
  · simp only [Option.some.injEq] at h
    exact ⟨hstill, h ▸ rfl⟩

/-- **What a cut takes of a plan, and where it stops**: at the end, or before the first item that
no longer fits.

**Proof sketch.** Induction on the items. An item that is degraded is noted and costs nothing; one
that fits is taken, and the state after it is what the induction hypothesis is for; one that does
not fit ends the page, with nothing taken and the bound broken if it were. -/
lemma cutItems_spec (budget : ℕ) (s : Cutting) (items : List Item) :
    ∃ taken rest, items = taken ++ rest ∧
      (cutItems budget s items).observations = s.observations ++ taken.filterMap kept ∧
      (cutItems budget s items).degraded = s.degraded ++ taken.filterMap dropped ∧
      (cutItems budget s items).lastKey = (emittedKeys taken).getLast?.or s.lastKey ∧
      (cutItems budget s items).used = s.used + spent taken ∧
      (s.used ≤ budget → (cutItems budget s items).used ≤ budget) ∧
      ((cutItems budget s items).cut = s.cut ∧ rest = [] ∨
        (cutItems budget s items).cut = true ∧ ∃ i o more, rest = i :: more ∧ kept i = some o ∧
          budget < (cutItems budget s items).used + cost o) := by
  induction items generalizing s with
  | nil => exact ⟨[], [], rfl, by simp [cutItems, emittedKeys, spent]⟩
  | cons i items ih =>
    obtain ⟨key, obs⟩ := i
    rw [cutItems]
    cases hfit : degrade obs with
    | error d =>
      have hkept : kept (key, obs) = none := by simp [kept, hfit, Except.toOption]
      have hdropped : dropped (key, obs) = some d := by simp [dropped, hfit]
      obtain ⟨taken, rest, rfl, hobs, hdeg, hlast, hused, hle, hcut⟩ :=
        ih { s with degraded := s.degraded ++ [d] }
      refine ⟨(key, obs) :: taken, rest, rfl, ?_, ?_, ?_, ?_, hle, hcut⟩
      · simpa [hkept] using hobs
      · simpa [hdropped] using hdeg
      · simpa [emittedKeys, hkept] using hlast
      · simpa [spent, hkept] using hused
    | ok o =>
      have hkept : kept (key, obs) = some o := by simp [kept, hfit, Except.toOption]
      have hdropped : dropped (key, obs) = none := by simp [dropped, hfit]
      dsimp only
      split_ifs with hbudget
      · refine ⟨[], (key, obs) :: items, rfl, by simp, by simp, by simp [emittedKeys],
          by simp [spent], id, Or.inr ⟨rfl, (key, obs), o, items, rfl, hkept, hbudget⟩⟩
      · obtain ⟨taken, rest, rfl, hobs, hdeg, hlast, hused, hle, hcut⟩ := ih
          { s with
            observations := s.observations ++ [o]
            lastKey := some key
            used := s.used + cost o }
        refine ⟨(key, obs) :: taken, rest, rfl, ?_, ?_, ?_, ?_, fun _ => hle (by dsimp only; omega),
          hcut⟩
        · simpa [hkept] using hobs
        · simpa [hdropped] using hdeg
        · rw [hlast]
          simp only [emittedKeys, List.filterMap_cons, hkept, Option.map_some,
            List.getLast?_cons, Option.or_some]
          cases (taken.filterMap fun i => (kept i).map fun _ => i.1).getLast? <;> rfl
        · simp only [spent, List.filterMap_cons, hkept, List.map_cons, List.sum_cons] at hused ⊢
          omega

/-- **A page of a plan.** It takes a first part of the items, emits or names as degraded each of
them, and spends their bytes within the budget. It names a next cursor exactly when it left an item
that did not fit, and that cursor stands at the last item it emitted, or where it started. -/
lemma cutPage_spec (p : Plan) (start : Option Cursor) (budget : ℕ) :
    ∃ taken rest, p.items = taken ++ rest ∧
      (cutPage p start budget).observations = taken.filterMap kept ∧
      (cutPage p start budget).degraded = taken.filterMap dropped ∧
      (cutPage p start budget).bytes = spent taken ∧
      (cutPage p start budget).bytes ≤ budget ∧
      ((cutPage p start budget).next = none ∧ rest = [] ∨
        (cutPage p start budget).next = some (match (emittedKeys taken).getLast? with
          | none => start.getD ⟨0, "", none⟩
          | some key => key.cursor p.highWater) ∧
        ∃ i o more, rest = i :: more ∧ kept i = some o ∧
          budget < (cutPage p start budget).bytes + cost o) := by
  obtain ⟨taken, rest, hitems, hobs, hdeg, hlast, hused, hle, hcut⟩ :=
    cutItems_spec budget ⟨[], none, [], 0, false⟩ p.items
  rw [Option.or_none] at hlast
  refine ⟨taken, rest, hitems, by simpa [cutPage] using hobs, by simpa [cutPage] using hdeg,
    by simpa [cutPage] using hused, hle (Nat.zero_le _), ?_⟩
  rcases hcut with ⟨hcut, hrest⟩ | ⟨hcut, hstop⟩
  · exact Or.inl ⟨by simp [cutPage, hcut], hrest⟩
  · exact Or.inr ⟨by simp [cutPage, hcut, hlast], hstop⟩

/-- The last emitted item stands somewhere in the list, and no item behind it is emitted. -/
lemma exists_last_emitted {key : Key} (h : (emittedKeys items).getLast? = some key) :
    ∃ before i after, items = before ++ i :: after ∧ i.1 = key ∧ ∀ j ∈ after, kept j = none := by
  induction items using List.reverseRecOn with
  | nil => simp [emittedKeys] at h
  | append_singleton items i ih =>
    cases hkept : kept i with
    | some o =>
      refine ⟨items, i, [], rfl, ?_, by simp⟩
      simpa [emittedKeys, hkept] using h
    | none =>
      have hsame : emittedKeys (items ++ [i]) = emittedKeys items := by
        simp [emittedKeys, hkept]
      obtain ⟨before, j, after, rfl, hkey, hafter⟩ := ih (hsame ▸ h)
      refine ⟨before, j, after ++ [i], by simp, hkey, fun x hx => ?_⟩
      rcases List.mem_append.mp hx with hx | hx
      · exact hafter x hx
      · rw [List.mem_singleton.mp hx, hkept]

/-- A page that spent something emitted something. -/
lemma exists_getLast_emittedKeys (h : 0 < spent items) :
    ∃ key, (emittedKeys items).getLast? = some key := by
  cases hlast : (emittedKeys items).getLast? with
  | some key => exact ⟨key, rfl⟩
  | none =>
    have hnil : items.filterMap kept = [] := by
      have hkeys := List.getLast?_eq_none_iff.mp hlast
      rw [emittedKeys, List.filterMap_eq_nil_iff] at hkeys
      refine List.filterMap_eq_nil_iff.mpr fun i hi => ?_
      simpa using hkeys i hi
    simp [spent, hnil] at h

end Cut

end Sumer.Bitcoin
