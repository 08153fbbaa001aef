import Sumer.Lib.Fallible
import Sumer.Bitcoin.Crawl

set_option relaxedAutoImplicit false
set_option autoImplicit false

/-!
# The strings of a cursor

A cursor that a page names is read back from its string. The other way round, a string that is
accepted is that of its cursor unless the number before its first colon is spelled in another way
than the adapter spells it: `str::parse` takes an optional plus sign and leading zeros.

## Main definitions

* `Sumer.Bitcoin.CanonicalHeight`: the number before the first colon is spelled as it is printed.

## Main results

* `Sumer.Bitcoin.cursor_strings`: the cursors that are issued, and the strings that are accepted.
-/

namespace Sumer.Bitcoin

open Sumer.Wire

/-- The number before the first colon of a string is spelled without a plus sign and without a
leading zero. -/
def CanonicalHeight (s : String) : Prop :=
  ∀ height rest, s.toList = height ++ ':' :: rest → ':' ∉ height →
    height.head? ≠ some '+' ∧ (height.head? = some '0' → height = ['0'])

section Strings

variable {s : String} {c : Cursor}

/-- What stands on either side of the first occurrence of a separator. -/
lemma splitOnce_eq_some {first : Char} {more text before after : List Char}
    (h : splitOnce (first :: more) text = some (before, after)) :
    text = before ++ (first :: more) ++ after := by
  induction text generalizing before with
  | nil => cases h
  | cons ch text ih =>
    rw [splitOnce] at h
    split_ifs at h with hstart
    · cases h
      obtain ⟨rest, hrest⟩ := List.isPrefixOf_iff_prefix.mp hstart
      rw [← hrest, List.drop_left, List.nil_append]
    · obtain ⟨⟨before', after'⟩, hsplit, heq⟩ := Option.map_eq_some_iff.mp h
      cases heq
      rw [ih hsplit]
      rfl

/-- Before the first colon stands no colon. -/
lemma colon_notMem_of_splitOnce {text before after : List Char}
    (h : splitOnce [':'] text = some (before, after)) : ':' ∉ before := by
  induction text generalizing before with
  | nil => cases h
  | cons ch text ih =>
    rw [splitOnce] at h
    split_ifs at h with hstart
    · cases h
      exact List.not_mem_nil
    · obtain ⟨⟨before', after'⟩, hsplit, heq⟩ := Option.map_eq_some_iff.mp h
      cases heq
      rw [List.mem_cons, not_or]
      refine ⟨fun heq => hstart ?_, ih hsplit⟩
      rw [← heq]
      rfl

/-- A number that is read is spelled as it is printed when it has no plus sign and no leading
zero.

**Proof sketch.** A number is printed without a sign and without a superfluous zero. Conversely,
digits without a superfluous zero are printed again from their value. -/
lemma toDigits_eq_iff {text : List Char} {n : U64} (h : parseU64 text = some n) :
    Nat.toDigits 10 n.val = text ↔
      text.head? ≠ some '+' ∧ (text.head? = some '0' → text = ['0']) := by
  constructor
  · rintro rfl
    refine ⟨fun hplus => ?_, fun hzero => ?_⟩
    · have hdigit :=
        Nat.isDigit_of_mem_toDigits (by decide) (by decide) (List.mem_of_mem_head? hplus)
      exact absurd hdigit (by decide)
    · rw [Digits.eq_zero_of_head?_toDigits hzero]
      rfl
  · rintro ⟨hplus, hzero⟩
    unfold parseU64 at h
    rw [if_neg hplus] at h
    dsimp only at h
    split_ifs at h with hbad hlt
    cases h
    rw [Bool.or_eq_true, not_or, List.isEmpty_iff, Bool.not_eq_true', Bool.not_eq_false,
      List.all_eq_true] at hbad
    exact Digits.toDigits_ofDigitChars hbad.2 hbad.1 hzero

/-- **What an accepted string says**: the parts of its cursor, one after the other, and the number
in some spelling.

**Proof sketch.** The branches of the reader that accept are followed back: the string was split at
the first colon, the height was read, and the rest was split at the mark of the mempool section or
has none. What was split is joined again. -/
lemma parse_eq_ok (h : Cursor.parse s = .ok c) :
    ∃ height, ':' ∉ height ∧ parseU64 height = some c.height ∧
      s.toList = height ++ ':' :: (c.txid.toList ++
        (c.mempool.elim [] fun m => ":m:".toList ++ m.toList)) ∧
      (c.txid = "" ∨ isTxid c.txid = true) ∧ ∀ m, c.mempool = some m → isTxid m = true := by
  unfold Cursor.parse at h
  split at h
  · cases h
  rename_i height rest hsplit
  split at h
  · cases h
  rename_i n hn
  have hwhole := splitOnce_eq_some hsplit
  have hcolon := colon_notMem_of_splitOnce hsplit
  cases hsuffix : splitOnce ":m:".toList rest with
  | none =>
    rw [hsuffix] at h
    dsimp only at h
    split_ifs at h with htxid hmempool
    cases h
    refine ⟨height, hcolon, hn, ?_, ?_, fun m hm => by cases hm⟩
    · simpa using hwhole
    · simpa [or_iff_not_imp_left] using htxid
  | some parts =>
    obtain ⟨txid, mempool⟩ := parts
    have hrest : rest = txid ++ ":m:".toList ++ mempool := splitOnce_eq_some hsuffix
    rw [hsuffix] at h
    dsimp only at h
    split_ifs at h with htxid hmempool
    cases h
    refine ⟨height, hcolon, hn, ?_, ?_, fun m hm => ?_⟩
    · rw [hwhole, hrest]
      simp
    · simpa [or_iff_not_imp_left] using htxid
    · cases hm
      simpa using hmempool

/-- The string of a cursor, part by part. -/
lemma toList_encode (c : Cursor) : c.encode.toList = Nat.toDigits 10 c.height.val ++ ':' ::
    (c.txid.toList ++ (c.mempool.elim [] fun m => ":m:".toList ++ m.toList)) := by
  obtain ⟨height, txid, mempool⟩ := c
  cases mempool <;> simp [Cursor.encode, String.toList_append]

/-- A text is cut at its first colon in one way: two texts that agree, and whose first parts have no
colon, have the same first part. -/
lemma before_colon_inj {before before' after after' : List Char} (h : ':' ∉ before)
    (h' : ':' ∉ before') (heq : before ++ ':' :: after = before' ++ ':' :: after') :
    before = before' := by
  have htake (text rest : List Char) (hno : ':' ∉ text) :
      (text ++ ':' :: rest).takeWhile (· != ':') = text := by
    rw [List.takeWhile_append_of_pos fun ch hch => by
      simpa using fun heq : ch = ':' => hno (heq ▸ hch)]
    simp
  rw [← htake before after h, heq, htake before' after' h']

/-- **An accepted string is that of its cursor** when its number is spelled as it is printed. -/
lemma encode_eq_iff (h : Cursor.parse s = .ok c) : c.encode = s ↔ CanonicalHeight s := by
  obtain ⟨height, hcolon, hn, hs, -, -⟩ := parse_eq_ok h
  have hspelled := toDigits_eq_iff hn
  have hcanonical : CanonicalHeight s ↔ Nat.toDigits 10 c.height.val = height := by
    rw [hspelled]
    constructor
    · intro hall
      exact hall height _ hs hcolon
    · intro hone height' rest hs' hcolon'
      rwa [← before_colon_inj hcolon hcolon' (hs.symm.trans hs')]
  rw [hcanonical, ← String.toList_inj, toList_encode, hs]
  constructor
  · intro heq
    exact List.append_cancel_right heq
  · intro heq
    rw [heq]

/-- A cursor that was read is read back from its string. -/
lemma parse_encode_of_parse (h : Cursor.parse s = .ok c) : Cursor.parse c.encode = .ok c := by
  obtain ⟨-, -, -, -, htxid, hmempool⟩ := parse_eq_ok h
  exact Cursor.parse_encode htxid hmempool

end Strings

/-! ### The cursors of pages -/

section Issued

variable {ctx : Ctx} {owned : List String} {start : Option Cursor}

/-- The mark that a sync has reached is where it started or that of a transaction. -/
lemma highWater_cases (floor : Mark) (txs : List Tx) :
    highWater floor txs = floor ∨
      ∃ tx ∈ txs, ∃ height, highWater floor txs = toLex (height, tx.txid) := by
  induction txs generalizing floor with
  | nil => exact .inl rfl
  | cons tx txs ih =>
    have hcons : highWater floor (tx :: txs) = highWater
        ((tx.height.map fun height => max floor (toLex (height, tx.txid))).getD floor) txs := rfl
    rw [hcons]
    rcases ih ((tx.height.map fun height => max floor (toLex (height, tx.txid))).getD floor) with
      h | ⟨tx', htx', height, h⟩
    · rw [h]
      cases tx.height with
      | none => exact .inl rfl
      | some height =>
        rcases max_choice floor (toLex (height, tx.txid)) with hmax | hmax
        · exact .inl (by simpa using hmax)
        · exact .inr ⟨tx, List.mem_cons_self, height, by simpa using hmax⟩
    · exact .inr ⟨tx', List.mem_cons_of_mem _ htx', height, h⟩

/-- What an item of the confirmed section is.

**Proof sketch.** Induction on the transactions. One that is pending, or at or before the floor,
gives no item; any other gives its own, which has its key. -/
lemma mem_planConfirmed {floor : Mark} {txs : List Tx} {items : List Item} {i : Item}
    (h : planConfirmed ctx owned floor txs = .ok items) (hi : i ∈ items) :
    ∃ tx ∈ txs, active ctx tx owned = .ok i.2 ∧ i.1 = tx.key := by
  induction txs generalizing items with
  | nil =>
    cases h
    exact absurd hi List.not_mem_nil
  | cons tx txs ih =>
    rw [planConfirmed] at h
    cases hheight : tx.height with
    | none =>
      rw [hheight] at h
      obtain ⟨tx', htx', hactive⟩ := ih h hi
      exact ⟨tx', List.mem_cons_of_mem _ htx', hactive⟩
    | some height =>
      rw [hheight] at h
      dsimp only at h
      split_ifs at h
      · obtain ⟨tx', htx', hactive⟩ := ih h hi
        exact ⟨tx', List.mem_cons_of_mem _ htx', hactive⟩
      · obtain ⟨o, ho, h⟩ := except_bind_eq_ok.mp h
        obtain ⟨more, hmore, h⟩ := except_bind_eq_ok.mp h
        cases h
        rcases List.mem_cons.mp hi with rfl | hi
        · exact ⟨tx, List.mem_cons_self, ho, by rw [Tx.key, hheight]⟩
        · obtain ⟨tx', htx', hactive⟩ := ih hmore hi
          exact ⟨tx', List.mem_cons_of_mem _ htx', hactive⟩

/-- What an item of the mempool section is.

**Proof sketch.** Induction on the txids. One that is skipped leaves the rest; for any other the
transaction of that txid is looked up and mapped, and the item is its own or one of the rest. -/
lemma mem_planMempool {txs : List Tx} {resumeAfter : Option String} {pending : List String}
    {items : List Item} {i : Item} (h : planMempool ctx owned txs resumeAfter pending = .ok items)
    (hi : i ∈ items) :
    ∃ tx ∈ txs, active ctx tx owned = .ok i.2 ∧ i.1 = .mempool tx.txid ∧ tx.txid ∈ pending := by
  induction pending generalizing items with
  | nil =>
    cases h
    exact absurd hi List.not_mem_nil
  | cons txid pending ih =>
    have hlater {items : List Item} (h : planMempool ctx owned txs resumeAfter pending = .ok items)
        (hi : i ∈ items) : ∃ tx ∈ txs, active ctx tx owned = .ok i.2 ∧ i.1 = .mempool tx.txid ∧
          tx.txid ∈ txid :: pending := by
      obtain ⟨tx, htx, hactive, hkey, hmem⟩ := ih h hi
      exact ⟨tx, htx, hactive, hkey, List.mem_cons_of_mem _ hmem⟩
    rw [planMempool] at h
    split_ifs at h
    · exact hlater h hi
    · cases hfind : txs.find? (·.txid == txid) with
      | none =>
        rw [hfind] at h
        exact hlater h hi
      | some tx =>
        rw [hfind] at h
        obtain ⟨o, ho, h⟩ := except_bind_eq_ok.mp h
        obtain ⟨more, hmore, h⟩ := except_bind_eq_ok.mp h
        cases h
        rcases List.mem_cons.mp hi with rfl | hi
        · have htxid : tx.txid = txid := by simpa using List.find?_some hfind
          exact ⟨tx, List.mem_of_find?_eq_some hfind, ho, by rw [htxid],
            htxid ▸ List.mem_cons_self⟩
        · exact hlater hmore hi

/-- **What is planned**: what is put on the wire for transactions of the snapshot. -/
lemma mem_plan {chain : Chain} {p : Plan} {i : Item} (h : plan ctx chain owned start = .ok p)
    (hi : i ∈ p.items) : ∃ tx ∈ chain.txs, active ctx tx owned = .ok i.2 ∧ i.1.txid = tx.txid := by
  obtain ⟨confirmed, hconfirmed, h⟩ := except_bind_eq_ok.mp h
  obtain ⟨pending, hpending, h⟩ := except_bind_eq_ok.mp h
  cases h
  rcases List.mem_append.mp hi with hi | hi
  · obtain ⟨tx, htx, hactive, hkey⟩ :=
      mem_planConfirmed hconfirmed ((List.mem_insertionSort _).mp hi)
    exact ⟨tx, htx, hactive, hkey ▸ tx.txid_key⟩
  · obtain ⟨tx, htx, hactive, hkey, -⟩ := mem_planMempool hpending hi
    exact ⟨tx, htx, hactive, by rw [hkey]; rfl⟩

/-- **Under which key a transaction is planned**: its own. -/
lemma key_of_mem_plan {snapshot : Snapshot} {p : Plan} {i : Item}
    (h : plan ctx snapshot.toChain owned start = .ok p) (hi : i ∈ p.items) :
    ∃ tx ∈ snapshot.txs, active ctx tx owned = .ok i.2 ∧ i.1 = tx.key := by
  obtain ⟨confirmed, hconfirmed, h⟩ := except_bind_eq_ok.mp h
  obtain ⟨pending, hpending, h⟩ := except_bind_eq_ok.mp h
  cases h
  rcases List.mem_append.mp hi with hi | hi
  · exact mem_planConfirmed hconfirmed ((List.mem_insertionSort _).mp hi)
  · obtain ⟨tx, htx, hactive, hkey, hmem⟩ := mem_planMempool hpending hi
    rw [snapshot.mempool_eq] at hmem
    obtain ⟨tx', htx', htxid⟩ := List.mem_map.mp hmem
    obtain ⟨htx', hheight⟩ := List.mem_filter.mp htx'
    -- the transaction that is found is the one without a height
    have hsame : tx' = tx := by
      have hfind := snapshot.find?_txid htx'
      rw [htxid, snapshot.find?_txid htx] at hfind
      exact (Option.some.inj hfind).symm
    refine ⟨tx, htx, hactive, ?_⟩
    rw [hkey, Tx.key, ← hsame, Option.isNone_iff_eq_none.mp hheight]

/-- **A cursor that a page names** is read back from its string.

**Proof sketch.** A string is read as a cursor when each txid in it is one or is empty, so it is
enough to trace where the parts of the cursor come from. Its mark is the mark the page started from,
which was read off a cursor, or the key of a transaction of the snapshot, whose txids were checked.
Its place is that of the last emitted item, which is again a transaction of the snapshot, or, when
nothing was emitted, the place the page started from. Both kinds of cursor, with a place in the
mempool section or without, are put together from such parts. -/
lemma parse_encode_next {snapshot : Snapshot} {asked : Option String} {budget : ℕ} {page : Page}
    {c : Cursor} (h : servePage ctx snapshot.toChain owned asked budget = .ok page)
    (hnext : page.next = some c) : Cursor.parse c.encode = .ok c := by
  unfold servePage at h
  split at h
  · cases h
  rename_i start hstart
  split at h
  · cases h
  rename_i p hp
  cases h
  -- what was read is a cursor, or there was nothing to read
  have hstart' : ∀ c, start = some c → ∃ s, Cursor.parse s = .ok c := by
    rintro c rfl
    cases asked with
    | none => cases hstart
    | some s =>
      obtain ⟨c', hc', heq⟩ := except_bind_eq_ok.mp hstart
      cases heq
      exact ⟨s, hc'⟩
  have hfloor : (ofLex (start.elim bottom Cursor.confirmedMark)).2 = "" ∨
      isTxid (ofLex (start.elim bottom Cursor.confirmedMark)).2 = true := by
    cases start with
    | none => exact .inl rfl
    | some c =>
      obtain ⟨s, hs⟩ := hstart' c rfl
      obtain ⟨-, -, -, -, htxid, -⟩ := parse_eq_ok hs
      exact htxid
  have hmark : (ofLex p.highWater).2 = "" ∨ isTxid (ofLex p.highWater).2 = true := by
    obtain ⟨confirmed, -, hp⟩ := except_bind_eq_ok.mp hp
    obtain ⟨pending, -, hp⟩ := except_bind_eq_ok.mp hp
    cases hp
    rcases highWater_cases (start.elim bottom Cursor.confirmedMark) snapshot.txs with
      heq | ⟨tx, htx, height, heq⟩
    · show (ofLex (highWater _ _)).2 = "" ∨ _
      rw [heq]
      exact hfloor
    · refine .inr ?_
      show isTxid (ofLex (highWater _ _)).2 = true
      rw [heq]
      exact snapshot.txids tx htx
  obtain ⟨taken, rest, hitems, -, -, -, -, hcut⟩ := cutPage_spec p start budget
  rcases hcut with ⟨hnone, -⟩ | ⟨hsome, -⟩
  · rw [hnone] at hnext
    cases hnext
  rw [hsome] at hnext
  cases hlast : (emittedKeys taken).getLast? with
  | none =>
    rw [hlast] at hnext
    cases start with
    | none =>
      cases hnext
      exact Cursor.parse_encode (.inl rfl) fun m hm => by cases hm
    | some c' =>
      cases hnext
      obtain ⟨s, hs⟩ := hstart' c' rfl
      exact parse_encode_of_parse hs
  | some key =>
    rw [hlast] at hnext
    obtain ⟨before, i, after, htaken, rfl, -⟩ := exists_last_emitted hlast
    obtain ⟨tx, htx, -, htxid⟩ := mem_plan hp
      (hitems ▸ List.mem_append_left _ (htaken ▸ List.mem_append_right _ List.mem_cons_self))
    have hvalid : isTxid i.1.txid = true := htxid ▸ snapshot.txids tx htx
    cases hkey : i.1 with
    | confirmed height txid =>
      rw [hkey] at hnext hvalid
      cases hnext
      exact Cursor.parse_encode (.inr hvalid) fun m hm => by cases hm
    | mempool txid =>
      rw [hkey] at hnext hvalid
      cases hnext
      refine Cursor.parse_encode hmark fun m hm => ?_
      cases hm
      exact hvalid

end Issued

/-- **The cursors that are issued, and the strings that are accepted.** Every cursor that a page
names is read back from its string; a string that is accepted is the string of its cursor exactly
when its number has no plus sign and no leading zero. -/
theorem cursor_strings (s : String) (c : Cursor) :
    (∀ (ctx : Ctx) (snapshot : Snapshot) (owned : List String) (asked : Option String) (budget : ℕ)
      (page : Page), servePage ctx snapshot.toChain owned asked budget = .ok page →
      page.next = some c → Cursor.parse c.encode = .ok c) ∧
    (Cursor.parse s = .ok c → (c.encode = s ↔ CanonicalHeight s)) :=
  ⟨fun _ _ _ _ _ _ => parse_encode_next, encode_eq_iff⟩

/-- **More strings than one for a resume point**: a plus sign and leading zeros are accepted. -/
theorem cursor_strings_leniency :
    ¬ ∀ (s : String) (c : Cursor), Cursor.parse s = .ok c → c.encode = s := by
  intro h
  have hplus : (Cursor.parse "+7:").toOption = some ⟨7, "", none⟩ := by decide +kernel
  cases hparse : Cursor.parse "+7:" with
  | error e => simp [hparse, Except.toOption] at hplus
  | ok c =>
    rw [hparse] at hplus
    obtain rfl : c = ⟨7, "", none⟩ := Option.some.inj hplus
    exact absurd (h _ _ hparse) (by decide)

example : (Cursor.parse "007:").toOption = some ⟨7, "", none⟩ := by decide +kernel

end Sumer.Bitcoin
