import Sumer.Bitcoin.Crawl
import Sumer.Bitcoin.FrameFit
import Sumer.Bitcoin.Partial

set_option relaxedAutoImplicit false
set_option autoImplicit false

/-!
# A crawl across processes

A client follows the cursors of one crawl while the adapter's process is restarted under it, any
number of times. A new process has no snapshot in hand, so it fetches one at the first cursor it is
given; the provider has not moved, and what differs is the instant that the records are stamped
with. The cursors carry the rest: no record is lost at a restart, and none comes twice.

## Main definitions

* `Sumer.Bitcoin.serveProcesses`: the requests of processes that are started one after the other.
* `Sumer.Bitcoin.Reads`: a client that reads a resource's history, from its start.
* `Sumer.Bitcoin.dateless`: an observation without the instant of its crawl.

## Main results

* `Sumer.Bitcoin.textSize_stamp`: every instant takes the same bytes.
* `Sumer.Bitcoin.Snapshot.Resumes.delivers`: what one page delivers, and what is due after it.
* `Sumer.Bitcoin.crawl_across_restarts`: the pages of all processes deliver one crawl.
-/

namespace Sumer.Bitcoin

open Sumer.Wire Sumer.Host Sumer.Money
open Digits (zeroPadded isDigit_of_mem_zeroPadded)

/-! ### Instants -/

section Stamps

variable {now : ℤ} {t : Rfc3339}

/-- A text that is accepted as a timestamp is one. -/
lemma rfc3339New_eq_ok {s : String} (h : Rfc3339.new s = .ok t) :
    t.text = s ∧ validateRfc3339 s = .ok () := by
  unfold Rfc3339.new at h
  split at h
  · rename_i hvalid
    cases h
    exact ⟨rfl, hvalid⟩
  · cases h

/-- The bytes of a text that begins with ASCII characters. -/
lemma asBytes_ofList_append {before : List Char} (h : ∀ ch ∈ before, ch.toNat < 128)
    (after : List Char) : asBytes (String.ofList (before ++ after)) =
      before.map ascii ++ asBytes (String.ofList after) := by
  rw [← asBytes_ofList h]
  simp only [asBytes, String.toList_ofList, List.flatMap_append]

/-- **An instant that is written has a year of four digits.** Other years have a sign, or a digit
where the validator wants a dash.

**Proof sketch.** The text passed the check, so its first four bytes are digits and the fifth is a
dash. A negative year is written with a sign, which is no digit; one of more than four digits has a
digit where the dash should stand. -/
lemma year_of_rfc3339Utc (h : rfc3339Utc now = .ok t) :
    0 ≤ (civilFromDays (now / 86400)).1 ∧ (civilFromDays (now / 86400)).1 < 10000 := by
  generalize hdate : civilFromDays (now / 86400) = date at h ⊢
  obtain ⟨y, m, d⟩ := date
  simp only [rfc3339Utc, hdate, List.append_assoc] at h
  obtain ⟨-, hvalid⟩ := rfc3339New_eq_ok h
  obtain ⟨-, hdigits, hdash, -⟩ := validateRfc3339_eq_ok hvalid
  by_contra hyear
  rcases lt_or_ge y 0 with hneg | hpos
  · -- the first character is the sign
    obtain ⟨more, hmore⟩ : ∃ more, zeroPadded 4 y = ['-'] ++ more := by
      rw [zeroPadded, if_pos hneg]
      exact ⟨_, List.append_assoc _ _ _⟩
    have hsign : ∀ ch ∈ ['-'], ch.toNat < 128 := List.forall_mem_singleton.mpr (by decide)
    rw [hmore, List.append_assoc, asBytes_ofList_append hsign] at hdigits
    exact absurd (hdigits (ascii '-') List.mem_cons_self) (by decide)
  · -- the fifth character is a digit
    have hlong : 10000 ≤ y := by
      by_contra hlt
      exact hyear ⟨hpos, not_le.mp hlt⟩
    have hall := isDigit_of_mem_zeroPadded (w := 4) hpos
    have hlen : 4 < (zeroPadded 4 y).length := by
      have hcount : ¬ (Nat.toDigits 10 y.natAbs).length ≤ 4 := by
        rw [Nat.length_toDigits_le_iff (by decide) (by decide)]
        omega
      rw [zeroPadded, List.length_append]
      omega
    have hascii : ∀ ch ∈ zeroPadded 4 y, ch.toNat < 128 := fun ch hch => by
      have := Digits.isDigit_iff.mp (hall ch hch)
      omega
    rw [asBytes_ofList_append hascii,
      List.getElem?_append_left (by rwa [List.length_map]), List.getElem?_map,
      List.getElem?_eq_getElem hlen] at hdash
    have hfifth := isAsciiDigit_ascii (hall _ (List.getElem_mem hlen))
    rw [Option.some.inj hdash] at hfifth
    exact absurd hfifth (by decide)

/-- Digits are not escaped, so two of them take two bytes. -/
lemma escapedSize_twoChars {n : ℕ} (h : n < 100) : ∀ ch ∈ twoChars n, escapedSize ch = 1 :=
  fun ch hch => escapedSize_digit (isDigit_twoChars h ch hch)

/-- **Every instant takes the same bytes.**

**Proof sketch.** The year of a written instant has four digits, so every part of the text has its
fixed number of digits: twenty characters, none of which is escaped, between two quotes. -/
lemma textSize_stamp (h : rfc3339Utc now = .ok t) : textSize t.text = 22 := by
  have hyear := year_of_rfc3339Utc h
  have hvalid := isDate_civilFromDays (now / 86400)
  rw [← civilFromDays_eq_host] at hvalid
  generalize hdate : civilFromDays (now / 86400) = date at hyear hvalid
  obtain ⟨y, m, d⟩ := date
  obtain ⟨hmonth, hday⟩ := hvalid
  have hlength := Gregorian.monthLength_bounds y m
  dsimp only at hyear hmonth hday
  lift y to ℕ using hyear.1
  lift m to ℕ using (by omega)
  lift d to ℕ using (by omega)
  have hpart (n : ℤ) (h0 : 0 ≤ n) (h100 : n < 100) : ∃ k : ℕ, k < 100 ∧
      zeroPadded 2 n = twoChars k := by
    lift n to ℕ using h0
    exact ⟨n, by omega, Host.zeroPadded_two (by omega)⟩
  obtain ⟨month, hmonth_lt, hmonth_text⟩ := hpart m (by omega) (by omega)
  obtain ⟨day, hday_lt, hday_text⟩ := hpart d (by omega) (by omega)
  obtain ⟨hour, hhour_lt, hhour_text⟩ := hpart ((now % 86400).tdiv 3600)
    (by rw [Int.tdiv_eq_ediv_of_nonneg (by omega)]; omega)
    (by rw [Int.tdiv_eq_ediv_of_nonneg (by omega)]; omega)
  obtain ⟨minute, hminute_lt, hminute_text⟩ := hpart (((now % 86400).tmod 3600).tdiv 60)
    (by rw [Int.tmod_eq_emod_of_nonneg (by omega), Int.tdiv_eq_ediv_of_nonneg (by omega)]; omega)
    (by rw [Int.tmod_eq_emod_of_nonneg (by omega), Int.tdiv_eq_ediv_of_nonneg (by omega)]; omega)
  obtain ⟨second, hsecond_lt, hsecond_text⟩ := hpart ((now % 86400).tmod 60)
    (by rw [Int.tmod_eq_emod_of_nonneg (by omega)]; omega)
    (by rw [Int.tmod_eq_emod_of_nonneg (by omega)]; omega)
  have hfour : zeroPadded 4 (y : ℤ) = twoChars (y / 100) ++ twoChars (y % 100) :=
    Host.zeroPadded_four (by omega)
  simp only [rfc3339Utc, hdate, hfour, hmonth_text, hday_text, hhour_text, hminute_text,
    hsecond_text] at h
  obtain ⟨htext, -⟩ := rfc3339New_eq_ok h
  have hplain : ∀ ch ∈ t.text.toList, escapedSize ch = 1 := by
    rw [htext, String.toList_ofList]
    simp only [List.forall_mem_append, List.forall_mem_singleton]
    have htwo {n : ℕ} := @escapedSize_twoChars n
    exact ⟨⟨⟨⟨⟨⟨⟨⟨⟨⟨⟨⟨htwo (by omega), htwo (by omega)⟩, by decide⟩, htwo hmonth_lt⟩, by decide⟩,
      htwo hday_lt⟩, by decide⟩, htwo hhour_lt⟩, by decide⟩, htwo hminute_lt⟩, by decide⟩,
      htwo hsecond_lt⟩, by decide⟩
  rw [textSize_of_plain hplain, htext, String.toList_ofList]
  rfl

end Stamps

/-! ### Records at another instant -/

/-- An observation, as a crawl at another instant has it. -/
def stampedAt (t : Rfc3339) (o : ObservationWire) : ObservationWire :=
  { o with provenance := { o.provenance with observedAt := t } }

/-- An item, as a crawl at another instant has it. -/
def Item.stampedAt (t : Rfc3339) (i : Item) : Item := (i.1, Bitcoin.stampedAt t i.2)

/-- The records of a plan after a position. -/
def recordsAfter (after : Option Key) (items : List Item) : List ObservationWire :=
  (items.filter fun i => Key.beyond after i.1).filterMap kept

section Restamp

variable {a : Adapter} {w : Wallet} {snapshot : Snapshot} {t t' : Rfc3339}
  {o : ObservationWire} {i : Item} {items : List Item}

/-- An observation stamped with another instant takes the same bytes, if the two instants do. -/
lemma bytes_stampedAt (h : textSize t.text = textSize o.provenance.observedAt.text) :
    (stampedAt t o).bytes = o.bytes := by
  simp only [ObservationWire.bytes, stampedAt, ObservationWire.toJson, ProvenanceWire.toJson,
    timestampJson, Json.size, membersSize, membersSize_append, List.length_append,
    List.length_cons, h]

/-- What is emitted of a record does not depend on the instant. -/
lemma kept_stampedAt (h : textSize t.text = textSize i.2.provenance.observedAt.text) :
    kept (i.stampedAt t) = (kept i).map (stampedAt t) := by
  obtain ⟨key, o⟩ := i
  have htruncated : truncated (stampedAt t o) = stampedAt t (truncated o) := rfl
  have hwhole := bytes_stampedAt (t := t) (o := o) h
  have hpart := bytes_stampedAt (t := t) (o := truncated o) h
  by_cases hbig : MAX_OBSERVATION_BYTES < o.bytes
  · simp only [kept, degrade, Item.stampedAt, hwhole, if_pos hbig, htruncated, hpart]
    split_ifs <;> rfl
  · simp only [kept, degrade, Item.stampedAt, hwhole, if_neg hbig]
    rfl

/-- A transaction is mapped at another instant to the same observation, up to the instant it is
stamped with. -/
lemma active_stampedAt (a : Adapter) (w : Wallet) (t t' : Rfc3339) (tx : Tx) :
    active (a.ctx w t') tx w.owned = (active (a.ctx w t) tx w.owned).map (stampedAt t') := by
  unfold active
  dsimp only
  cases tx.status.blockTime.mapM rfc3339Utc with
  | error e => rfl
  | ok effectiveAt =>
    cases sats (netDelta tx w.owned) with
    | error e => rfl
    | ok amount =>
      dsimp only
      cases (if walletSpent tx w.owned = true then (sats tx.fee.val).map some else .ok none) with
      | error e => rfl
      | ok fees => rfl

/-- **One plan, at two instants.**

**Proof sketch.** The item of a transaction at the other instant is the item at this one, stamped
anew, and its key is the same. Both plans list the items of the same transactions in increasing
order of their keys, and there is one such list. -/
lemma plan_stampedAt (t' : Rfc3339) (hmapped : Mapped (a.ctx w t) w.owned snapshot.txs)
    (h : plan (a.ctx w t) snapshot.toChain w.owned none = .ok ⟨items, snapshot.mark⟩) :
    plan (a.ctx w t') snapshot.toChain w.owned none =
      .ok ⟨items.map (Item.stampedAt t'), snapshot.mark⟩ := by
  have hitem (tx : Tx) : itemOf (a.ctx w t') w.owned tx =
      (itemOf (a.ctx w t) w.owned tx).map (Item.stampedAt t') := by
    rw [itemOf, itemOf, active_stampedAt a w t t' tx]
    cases active (a.ctx w t) tx w.owned <;> rfl
  have hmapped' : Mapped (a.ctx w t') w.owned snapshot.txs := by
    intro tx htx
    obtain ⟨o, ho⟩ := hmapped tx htx
    exact ⟨_, by rw [active_stampedAt a w t t' tx, ho]; rfl⟩
  obtain ⟨all, hall, hsorted, hmem⟩ := plan_spec (a.ctx w t) w.owned snapshot hmapped none
  obtain ⟨all', hall', hsorted', hmem'⟩ := plan_spec (a.ctx w t') w.owned snapshot hmapped' none
  obtain rfl : all = items := congrArg Plan.items (Except.ok.inj (hall.symm.trans h))
  have hmark : highWater ((none : Option Cursor).elim bottom Cursor.confirmedMark) snapshot.txs =
      snapshot.mark := rfl
  rw [hall', hmark]
  congr 2
  refine eq_of_increasing Prod.fst hsorted' ?_ fun i => ?_
  · rw [List.pairwise_map]
    exact hsorted
  · rw [hmem', List.mem_map]
    constructor
    · rintro ⟨tx, htx, habove, hi⟩
      rw [hitem] at hi
      obtain ⟨j, hj, rfl⟩ := Option.map_eq_some_iff.mp hi
      exact ⟨j, (hmem j).mpr ⟨tx, htx, habove, hj⟩, rfl⟩
    · rintro ⟨j, hj, rfl⟩
      obtain ⟨tx, htx, habove, hi⟩ := (hmem j).mp hj
      exact ⟨tx, htx, habove, by rw [hitem, hi]; rfl⟩

/-- What is left after a position, at another instant of one length. -/
lemma recordsAfter_stampedAt (after : Option Key)
    (h : ∀ i ∈ items, textSize t.text = textSize i.2.provenance.observedAt.text) :
    recordsAfter after (items.map (Item.stampedAt t)) =
      (recordsAfter after items).map (stampedAt t) := by
  induction items with
  | nil => rfl
  | cons i items ih =>
    have hrest := ih fun j hj => h j (List.mem_cons_of_mem _ hj)
    have hkept := kept_stampedAt (h i List.mem_cons_self)
    have hkey : (i.stampedAt t).1 = i.1 := rfl
    rw [recordsAfter] at hrest ⊢
    rw [recordsAfter] at hrest ⊢
    rw [List.map_cons, List.filter_cons, List.filter_cons, hkey]
    split_ifs
    · rw [List.filterMap_cons, List.filterMap_cons, hkept, hrest]
      cases kept i <;> rfl
    · exact hrest

/-- What was planned at one instant, read back from what is planned at another.

**Proof sketch.** Stamping changes neither the keys nor the sizes, so the same items are behind the
position and the same are kept. What was stamped at one instant, then at another and then at the
first again is as it was. -/
lemma recordsAfter_restamped (t' : Rfc3339)
    (hplan : plan (a.ctx w t) snapshot.toChain w.owned none = .ok ⟨items, snapshot.mark⟩)
    (ht : textSize t.text = 22) (ht' : textSize t'.text = 22) (after : Option Key) :
    (recordsAfter after (items.map (Item.stampedAt t'))).map (stampedAt t) =
      recordsAfter after items := by
  have hinstant : ∀ i ∈ items, i.2.provenance.observedAt = t := by
    intro i hi
    obtain ⟨tx, -, hactive, -⟩ := key_of_mem_plan hplan hi
    exact (active_eq_ok hactive).2
  rw [recordsAfter_stampedAt after fun i hi => by rw [hinstant i hi, ht, ht'], List.map_map]
  refine (List.map_congr_left fun o ho => ?_).trans (List.map_id _)
  obtain ⟨i, hi, hkept⟩ := List.mem_filterMap.mp ho
  have hown : o.provenance.observedAt = t := by
    rw [← hinstant i (List.mem_filter.mp hi).1]
    unfold kept at hkept
    cases hdegrade : degrade i.2 with
    | error d => simp [hdegrade, Except.toOption] at hkept
    | ok o' =>
      rw [hdegrade] at hkept
      obtain rfl : o' = o := Option.some.inj hkept
      rw [degrade_eq_ok hdegrade]
      split_ifs <;> rfl
  subst hown
  rfl

end Restamp

/-! ### What is due -/

/-- A page request that resumes after a position. The start of history has two spellings: no
cursor, and the bottom, which a page that is cut before its first record returns. -/
inductive Snapshot.Resumes (snapshot : Snapshot) : Option PageRequest → Option Key → Prop
  | start : Resumes snapshot none none
  | bottom : Resumes snapshot (some (.cursor (Cursor.encode ⟨0, "", none⟩))) none
  | after (tx : Tx) (htx : tx ∈ snapshot.txs) :
      Resumes snapshot (some (.cursor (tx.key.cursor snapshot.mark).encode)) (some tx.key)

section Due

variable {debug : String → String} {a : Adapter} {w : Wallet} {snapshot : Snapshot}
  {asked : Option PageRequest} {after : Option Key} {start : Option Cursor} {items : List Item}
  {budget : ℕ} {page : Page}

/-- What resumes after a position is one of its transactions. -/
lemma Snapshot.Resumes.position (h : snapshot.Resumes asked after) : snapshot.Position after := by
  cases h with
  | start => exact Snapshot.position_none
  | bottom => exact Snapshot.position_none
  | after tx htx =>
    intro k hk
    exact ⟨tx, htx, Option.some.inj hk⟩

/-- The cursor at the very start of the history is read back from its string. -/
lemma parse_encode_bottom : Cursor.parse (Cursor.encode ⟨0, "", none⟩) = .ok ⟨0, "", none⟩ :=
  Cursor.parse_encode (Or.inl rfl) fun _ hm => absurd hm.symm (Option.some_ne_none _)

/-- What is planned for such a request, and where it stands when nothing was emitted. -/
lemma Snapshot.Resumes.planned (ctx : Ctx) (owned : List String) (h : snapshot.Resumes asked after)
    (hstart : startOf debug asked = .ok start) :
    plan ctx snapshot.toChain owned start =
        plan ctx snapshot.toChain owned (snapshot.cursorAfter after) ∧
      snapshot.Resumes (some (.cursor (start.getD ⟨0, "", none⟩).encode)) after := by
  cases h with
  | start =>
    cases hstart
    exact ⟨rfl, .bottom⟩
  | bottom =>
    rw [startOf, parse_encode_bottom] at hstart
    cases hstart
    exact ⟨rfl, .bottom⟩
  | after tx htx =>
    rw [startOf, parse_encode_cursor htx] at hstart
    cases hstart
    exact ⟨rfl, .after tx htx⟩

/-- **What one page delivers**: what is due, if it drains the crawl, and otherwise a first part of
it, with a cursor to the rest. A page that has room for a record delivers one.

**Proof sketch.** The plan from the cursor is the part of the whole plan behind the place it stands
at (`plan_resume`), and the page is a first part of that. If it is all of it, everything due is
delivered. Otherwise the next cursor stands at the last emitted item, or where the page started when
it emitted nothing; what lies behind it in the whole plan is exactly what the page left, because the
plan is strictly increasing, and items without a record in between deliver nothing. A budget that
has room for a record has taken one, since the item that did not fit is no larger than a record may
be. -/
lemma Snapshot.Resumes.delivers {t : Rfc3339} (h : snapshot.Resumes asked after)
    (hmapped : Mapped (a.ctx w t) w.owned snapshot.txs)
    (hplan : plan (a.ctx w t) snapshot.toChain w.owned none = .ok ⟨items, snapshot.mark⟩)
    (hstart : startOf debug asked = .ok start)
    (hpage : a.pageOf w ⟨t, snapshot⟩ start budget = .ok page) :
    (page.next = none ∧ recordsAfter after items = page.observations) ∨
      ∃ c after', page.next = some c ∧ snapshot.Resumes (some (.cursor c.encode)) after' ∧
        recordsAfter after items = page.observations ++ recordsAfter after' items ∧
        (MAX_OBSERVATION_BYTES + 1 ≤ budget → page.observations ≠ []) := by
  obtain ⟨hsame, hagain⟩ := h.planned (a.ctx w t) w.owned hstart
  rw [plan_resume hmapped hplan h.position] at hsame
  rw [Adapter.pageOf, hsame] at hpage
  obtain rfl := Except.ok.inj hpage
  set remaining := items.filter fun i => Key.beyond after i.1 with hremaining
  obtain ⟨taken, rest, hsplit, hobs, -, hbytes, -, hnext⟩ :=
    cutPage_spec ⟨remaining, snapshot.mark⟩ start budget
  have hdue : recordsAfter after items = taken.filterMap kept ++ rest.filterMap kept := by
    rw [recordsAfter, ← hremaining, ← List.filterMap_append, ← hsplit]
  rcases hnext with ⟨hnext, rfl⟩ | ⟨hnext, i, o, more, rfl, hkept, hover⟩
  · refine Or.inl ⟨hnext, ?_⟩
    rw [hdue, hobs, List.filterMap_nil, List.append_nil]
  have hroom (hbudget : MAX_OBSERVATION_BYTES + 1 ≤ budget) : taken.filterMap kept ≠ [] := by
    intro hnil
    have hsmall := bytes_le_of_kept hkept
    rw [hbytes, spent, hnil, cost] at hover
    simp only [List.map_nil, List.sum_nil, Nat.zero_add] at hover
    omega
  rw [← hobs] at hroom
  cases hlast : (emittedKeys taken).getLast? with
  | none =>
    -- nothing was emitted, so the page is cut where it started
    have hnone : taken.filterMap kept = [] := by
      have hkeys := List.getLast?_eq_none_iff.mp hlast
      rw [emittedKeys, List.filterMap_eq_nil_iff] at hkeys
      exact List.filterMap_eq_nil_iff.mpr fun j hj => by simpa using hkeys j hj
    rw [hlast] at hnext
    exact Or.inr ⟨_, after, hnext, hagain, by rw [hobs, hnone, List.nil_append], hroom⟩
  | some key =>
    obtain ⟨before, j, between, rfl, rfl, hbetween⟩ := exists_last_emitted hlast
    rw [hlast] at hnext
    have hrest : remaining = before ++ j :: (between ++ i :: more) := by
      simpa using hsplit
    have hj : j ∈ remaining := by
      rw [hrest]
      exact List.mem_append_right _ List.mem_cons_self
    obtain ⟨hjitems, hbeyond⟩ := List.mem_filter.mp hj
    obtain ⟨tx, htx, -, hkey⟩ := key_of_mem_plan hplan hjitems
    obtain ⟨all, hall, hsorted, -⟩ := plan_spec (a.ctx w t) w.owned snapshot hmapped none
    obtain rfl : all = items := congrArg Plan.items (Except.ok.inj (hall.symm.trans hplan))
    have hlater : all.filter (fun i => Key.beyond (some j.1) i.1) = between ++ i :: more := by
      rw [← filter_beyond_filter hbeyond, ← hremaining, hrest]
      exact filter_beyond_split (hrest ▸ hsorted.filter _)
    refine Or.inr ⟨_, some j.1, hnext, hkey ▸ .after tx htx, ?_, hroom⟩
    have hnothing : (between ++ i :: more).filterMap kept = (i :: more).filterMap kept := by
      rw [List.filterMap_append, List.filterMap_eq_nil_iff.mpr hbetween, List.nil_append]
    rw [hdue, hobs, recordsAfter, hlater, hnothing]

end Due

/-! ### The crawls in hand -/

/-- Whatever is in hand of a resource is the provider's unchanged history, at an instant of the
clock. -/
def Unmoved (resourceId : String) (snapshot : Snapshot) (crawls : Crawls) : Prop :=
  ∀ crawl, crawls resourceId = some crawl →
    crawl.chain = snapshot ∧ ∃ now, rfc3339Utc now = .ok crawl.observedAt

/-- Whenever a sync of a wallet succeeds, it finds the same history. -/
def Unchanging (w : Wallet) (snapshot : Snapshot) (world : String → Responses) : Prop :=
  ∀ chain, sync (world w.resourceId) w = .ok chain → chain = snapshot

section InHand

variable {a : Adapter} {w : Wallet} {snapshot : Snapshot} {world : String → Responses}
  {crawls : Crawls} {s : Reading}
  {start : Option Cursor} {crawl : Crawl}

/-- A process starts with nothing in hand. -/
lemma Unmoved.none (resourceId : String) (snapshot : Snapshot) :
    Unmoved resourceId snapshot fun _ => none :=
  fun _ h => absurd h.symm (Option.some_ne_none _)

/-- **The crawl that a page is cut from**, in hand or new.

**Proof sketch.** A crawl that is started anew lists the wallet, which the provider answers with the
snapshot, and is dated by the clock. One that is in hand is of the snapshot by assumption, and it is
used only with a cursor. -/
lemma Unmoved.crawlFor (h : Unmoved w.resourceId snapshot crawls)
    (hworld : Unchanging w snapshot world)
    (hfor : crawlFor (world w.resourceId) w (crawls w.resourceId) start = .ok (.ok crawl)) :
    crawl.chain = snapshot ∧ ∃ now, rfc3339Utc now = .ok crawl.observedAt := by
  have hnew (hnew : startCrawl (world w.resourceId) w = .ok (.ok crawl)) :
      crawl.chain = snapshot ∧ ∃ now, rfc3339Utc now = .ok crawl.observedAt := by
    have hnone : Bitcoin.crawlFor (world w.resourceId) w .none .none = .ok (.ok crawl) := hnew
    obtain ⟨hclock, hsync⟩ := crawlFor_none hnone
    refine ⟨hworld _ hsync, (world w.resourceId).now, ?_⟩
    rw [observedAt] at hclock
    cases hnow : rfc3339Utc (world w.resourceId).now with
    | error e =>
      rw [hnow] at hclock
      cases hclock
    | ok t =>
      rw [hnow] at hclock
      exact congrArg Except.ok (Except.ok.inj hclock)
  cases hin : crawls w.resourceId with
  | none =>
    rw [hin] at hfor
    cases start <;> exact hnew hfor
  | some crawl' =>
    cases start with
    | none =>
      rw [hin] at hfor
      exact hnew hfor
    | some c =>
      rw [hin] at hfor
      obtain rfl : crawl' = crawl := Except.ok.inj (Except.ok.inj hfor)
      exact h crawl' hin

/-- One turn of the loop, whatever comes of it.

**Proof sketch.** A turn for the resource itself leaves a crawl that `crawlsOf_serveQuery`
describes. A turn for another one leaves the crawl of this resource, whether it serves a page, an
entry without a page or an error, since it only writes its own place. -/
lemma Unmoved.serveQuery (debug : String → String) (q : ResourceQuery)
    (hwallet : a.lookup w.resourceId = some w) (hworld : Unchanging w snapshot world)
    (h : Unmoved w.resourceId snapshot s.crawls) :
    Unmoved w.resourceId snapshot (crawlsOf (serveQuery debug a world s q)) := by
  by_cases hq : w.resourceId = q.resourceId
  swap
  · intro crawl hcrawl
    rw [crawlsOf_serveQuery hq] at hcrawl
    exact h crawl hcrawl
  have hpaged {w' : Wallet} {start : Option Cursor} {crawl : Crawl}
      (hpaged : Paged debug a world s q w' start crawl) :
      crawl.chain = snapshot ∧ ∃ now, rfc3339Utc now = .ok crawl.observedAt := by
    have hfound := hpaged.wallet
    rw [← hq, hwallet] at hfound
    obtain rfl := Option.some.inj hfound
    have hfor := hpaged.crawl
    rw [← hq] at hfor
    exact h.crawlFor hworld hfor
  cases hserve : Bitcoin.serveQuery debug a world s q with
  | ok s' =>
    rcases serveQuery_eq_ok hserve with ⟨entry, abandoned, -, -, rfl⟩ |
        ⟨w', start, crawl', page, hserved, -, rfl⟩
    · exact h
    · intro crawl hcrawl
      change (s.paged q crawl' page).crawls w.resourceId = some crawl at hcrawl
      rw [Reading.crawls_paged, hq, Function.update_self] at hcrawl
      split_ifs at hcrawl
      exact Option.some.inj hcrawl ▸ hpaged hserved
  | error f =>
    rcases serveQuery_eq_error hserve with hsame | ⟨w', start, crawl', e, hserved, -, hcrawls⟩
    · change Unmoved w.resourceId snapshot f.crawls
      rw [hsame]
      exact h
    · intro crawl hcrawl
      change f.crawls w.resourceId = some crawl at hcrawl
      rw [hcrawls, hq, Function.update_self] at hcrawl
      exact Option.some.inj hcrawl ▸ hpaged hserved

/-- The whole loop over the queries leaves the crawl of the resource one of the snapshot, whatever
comes of each turn. -/
lemma Unmoved.serveAll (debug : String → String) (queries : List ResourceQuery)
    (hwallet : a.lookup w.resourceId = some w) (hworld : Unchanging w snapshot world)
    (h : Unmoved w.resourceId snapshot s.crawls) :
    Unmoved w.resourceId snapshot
      (crawlsOf (queries.foldlM (Bitcoin.serveQuery debug a world) s)) := by
  induction queries generalizing s with
  | nil => exact h
  | cons q queries ih =>
    have hone := h.serveQuery debug q hwallet hworld
    rw [List.foldlM_cons]
    cases hserve : Bitcoin.serveQuery debug a world s q with
    | error f =>
      rw [hserve] at hone
      exact hone
    | ok s' =>
      rw [hserve] at hone
      exact ih hone

/-- **A request leaves the history in hand as it is**, also one that is answered with `err`. -/
lemma Unmoved.answer (debug : String → String) {r : Round}
    (hwallet : a.lookup w.resourceId = some w) (hworld : Unchanging w snapshot r.world)
    (h : Unmoved w.resourceId snapshot crawls) :
    Unmoved w.resourceId snapshot (answer debug a crawls r).after := by
  by_cases hnodup : (r.queries.map ResourceQuery.resourceId).Nodup
  · rw [after_answer hnodup]
    exact Unmoved.serveAll debug r.queries hwallet hworld h
  · rw [(answer_of_repeats debug a crawls hnodup).2]
    exact h

/-- Along all the requests of one process, the crawl of the resource that is in hand stays one of
the snapshot. -/
lemma Unmoved.serveRounds (debug : String → String) {rounds : List Round}
    (hwallet : a.lookup w.resourceId = some w)
    (hworld : ∀ r ∈ rounds, Unchanging w snapshot r.world)
    (h : Unmoved w.resourceId snapshot crawls) :
    ∀ s ∈ serveRounds debug a crawls rounds, Unmoved w.resourceId snapshot s.before ∧
      Unchanging w snapshot s.round.world := by
  induction rounds generalizing crawls with
  | nil => exact fun s hs => absurd hs List.not_mem_nil
  | cons r rounds ih =>
    have hr := hworld r List.mem_cons_self
    intro s hs
    rcases List.mem_cons.mp hs with rfl | hs
    · exact ⟨h, hr⟩
    · exact ih (fun r' hr' => hworld r' (List.mem_cons_of_mem _ hr'))
        (h.answer debug hwallet hr) s hs

end InHand

/-! ### A client of several processes -/

/-- The requests of processes that are started one after the other, each with nothing in hand. -/
def serveProcesses (debug : String → String) (a : Adapter) (processes : List (List Round)) :
    List Served :=
  processes.flatMap (serveRounds debug a fun _ => none)

/-- A client reads the history of a resource from a page request on: it asks for the same until it
is served a page, and then for what the `next` of that page names. Last comes what it would ask for
next, or none once a page has drained the crawl. -/
inductive Reads (resourceId : String) :
    Option PageRequest → List Served → Option (Option PageRequest) → Prop
  | stop (asked : Option PageRequest) : Reads resourceId asked [] (some asked)
  | again {asked : Option PageRequest} {s : Served} {rest : List Served}
      {due : Option (Option PageRequest)}
      (hasked : ∀ q ∈ s.round.queries, q.resourceId = resourceId → q.page = asked)
      (hpage : pageFor s.reply resourceId = none) (h : Reads resourceId asked rest due) :
      Reads resourceId asked (s :: rest) due
  | page {asked : Option PageRequest} {s : Served} {p : PageReply} {next : PageRequest}
      {rest : List Served} {due : Option (Option PageRequest)}
      (hasked : ∀ q ∈ s.round.queries, q.resourceId = resourceId → q.page = asked)
      (hpage : pageFor s.reply resourceId = some p) (hnext : p.next = some next)
      (h : Reads resourceId (some next) rest due) : Reads resourceId asked (s :: rest) due
  | drained {asked : Option PageRequest} {s : Served} {p : PageReply}
      (hasked : ∀ q ∈ s.round.queries, q.resourceId = resourceId → q.page = asked)
      (hpage : pageFor s.reply resourceId = some p) (hnext : p.next = none) :
      Reads resourceId asked [s] none

/-- What a client is served of a resource, over all replies. -/
def receivedFor (resourceId : String) (served : List Served) : List ObservationWire :=
  served.flatMap fun s => observationsFor s.reply resourceId

/-- How many replies have a page of a resource. -/
def pagesFor (resourceId : String) (served : List Served) : ℕ :=
  served.countP fun s => (pageFor s.reply resourceId).isSome

section Client

variable {debug : String → String} {a : Adapter} {w : Wallet} {snapshot : Snapshot}
  {crawls : Crawls} {r : Round} {q : ResourceQuery}

/-- A reply without a page of a resource has no observation of it.

**Proof sketch.** An error has no observations. In a reply that went through, a resource that was
not asked for has none, since each turn adds those of its own; one that was asked for had a turn,
and a turn that served a page would have left a page. -/
lemma observationsFor_of_no_page {resourceId : String}
    (hnone : pageFor (answer debug a crawls r).reply resourceId = none) :
    observationsFor (answer debug a crawls r).reply resourceId = [] := by
  cases hreply : (answer debug a crawls r).reply with
  | error e => rfl
  | ok body =>
    rw [hreply] at hnone
    obtain ⟨hnodup, t, ht, rfl⟩ := reply_eq_ok hreply
    show t.observations.filter _ = []
    by_cases hnamed : ∃ q ∈ r.queries, q.resourceId = resourceId
    swap
    · refine (serveAll_same ht fun hmem => hnamed ?_).observations
      obtain ⟨q, hq, rfl⟩ := List.mem_map.mp hmem
      exact ⟨q, hq, rfl⟩
    obtain ⟨q, hq, rfl⟩ := hnamed
    obtain ⟨s, s', hserve, hbefore, hafter⟩ := exists_turn hq hnodup ht
    rw [hafter.observations]
    rcases serveQuery_eq_ok hserve with ⟨entry, abandoned, -, -, rfl⟩ |
        ⟨w, start, crawl, page, hpaged, hpage, rfl⟩
    · exact hbefore.observations
    · have hone : (t.statuses.filter fun e => e.resourceId == q.resourceId) =
          [page.entry q.resourceId] := by
        have hstatuses : (s.statuses.filter fun e => e.resourceId == q.resourceId) = [] :=
          hbefore.statuses
        rw [hafter.statuses]
        simp [Reading.paged, Reading.serve, hstatuses, Page.entry]
      rw [pageFor, find?_of_filter_eq hone] at hnone
      exact absurd hnone (by simp [Page.entry])

/-- The name of a wallet is a short text: it was checked to be a file name of at most 64 bytes. -/
lemma Wallet.textSize_resourceId (w : Wallet) : textSize w.resourceId ≤ 386 := by
  have hbytes : (asBytes w.resourceId).length ≤ 64 := by
    have hvalid := w.valid
    simp only [isResourceId, Bool.and_eq_true, decide_eq_true_eq] at hvalid
    exact hvalid.1.1.1.2
  have hlength : w.resourceId.length ≤ (asBytes w.resourceId).length := by
    have hone (n : ℕ) (hn : n ∈ w.resourceId.toList.map Char.utf8Size) : 1 ≤ n := by
      obtain ⟨ch, -, rfl⟩ := List.mem_map.mp hn
      exact ch.utf8Size_pos
    have hsum := List.card_nsmul_le_sum (w.resourceId.toList.map Char.utf8Size) 1 hone
    rw [length_asBytes, byteCount, ← String.length_toList]
    simpa using hsum
  have hsize := textSize_le w.resourceId
  omega

/-- What a single resource leaves for its page: its name is short, since it is a wallet's. -/
lemma budget_alone {w : Wallet} (hw : a.lookup q.resourceId = some w) (crawls : Crawls) :
    MAX_OBSERVATION_BYTES + 1 ≤ (Reading.start crawls [q]).pageBudget q := by
  have hname : textSize q.resourceId ≤ 386 := by
    rw [← lookup_eq_some hw]
    exact w.textSize_resourceId
  have hid : (status q.resourceId (.fetched true)).resourceId = q.resourceId := rfl
  have hreserved := left_reserve Budget.new [q.resourceId]
  simp only [List.map_cons, List.map_nil, List.sum_cons, List.sum_nil, statusBytes, size_fetched,
    PAGE_REPLY_BYTES, Budget.new, MAX_FRAME_BYTES, ENVELOPE_BYTES] at hreserved
  simp only [Reading.pageBudget, Reading.start, Budget.page, Budget.charge, Budget.spend,
    List.map_cons, List.map_nil, hid, statusBytes, size_fetched, PAGE_REPLY_BYTES, Budget.new,
    MAX_FRAME_BYTES, ENVELOPE_BYTES, hreserved, PAGE_BUDGET_BYTES, MAX_OBSERVATION_BYTES]
  omega

/-- **The reply to one query alone**, when it has a page: the page's entry, and its records. -/
lemma reply_alone (halone : r.queries = [q]) {body : HistoryReply}
    (hreply : (answer debug a crawls r).reply = .ok body) {p : PageReply}
    (hp : pageFor (.ok body) q.resourceId = some p) :
    ∃ w start crawl page,
      Paged debug a r.world (Reading.start crawls r.queries) q w start crawl ∧
      a.pageOf w crawl start ((Reading.start crawls r.queries).pageBudget q) = .ok page ∧
      page.reply = p ∧ body = ⟨page.observations, [page.entry q.resourceId]⟩ := by
  obtain ⟨-, t, ht, rfl⟩ := reply_eq_ok hreply
  rw [loopOf, halone] at ht
  rw [halone]
  obtain ⟨t', hserve, hlast⟩ := foldlM_cons_eq_ok.mp ht
  obtain rfl : t' = t := Except.ok.inj hlast
  rcases serveQuery_eq_ok hserve with ⟨entry, abandoned, hentry, hnopage, rfl⟩ |
      ⟨w, start, crawl, page, hpaged, hpage, rfl⟩
  · have hone : pageFor (.ok ⟨[], [entry]⟩) q.resourceId = some p := hp
    simp [pageFor, hentry, hnopage] at hone
  · have hone : pageFor (.ok ⟨page.observations, [page.entry q.resourceId]⟩) q.resourceId =
        some p := hp
    have hreplied : page.reply = p := by simpa [pageFor, Page.entry] using hone
    exact ⟨w, start, crawl, page, hpaged, hpage, hreplied, rfl⟩

/-- **A page that a request has**, with the budget it was cut to.

**Proof sketch.** A page is cut from a crawl of its query (`pageFor_answer`). Where the query is
alone, the reply is that page, and the budget is what a single resource leaves, which has room for a
record. -/
lemma pageFor_budget (hq : q ∈ r.queries) {p : PageReply}
    (hp : pageFor (answer debug a crawls r).reply q.resourceId = some p) :
    ∃ w start crawl budget page, a.lookup q.resourceId = some w ∧
      startOf debug q.page = .ok start ∧
      crawlFor (r.world q.resourceId) w (crawls q.resourceId) start = .ok (.ok crawl) ∧
      a.pageOf w crawl start budget = .ok page ∧ page.reply = p ∧
      observationsFor (answer debug a crawls r).reply q.resourceId = page.observations ∧
      (r.queries = [q] → MAX_OBSERVATION_BYTES + 1 ≤ budget) := by
  by_cases halone : r.queries = [q]
  swap
  · obtain ⟨w, start, crawl, budget, page, hw, hstart, hfor, hpage, hreply, hobs, -⟩ :=
      pageFor_answer hq hp
    exact ⟨w, start, crawl, budget, page, hw, hstart, hfor, hpage, hreply, hobs,
      fun h => absurd h halone⟩
  cases hreply : (answer debug a crawls r).reply with
  | error e =>
    rw [hreply] at hp
    cases hp
  | ok body =>
    rw [hreply] at hp
    obtain ⟨w, start, crawl, page, hpaged, hpage, hreplied, rfl⟩ := reply_alone halone hreply hp
    refine ⟨w, start, crawl, _, page, hpaged.wallet, hpaged.cursor, hpaged.crawl, hpage, hreplied,
      ?_, fun _ => halone ▸ budget_alone hpaged.wallet crawls⟩
    show page.observations.filter _ = _
    rw [filter_pageOf hpage, if_pos (lookup_eq_some hpaged.wallet).symm]

end Client

section Client

variable {a : Adapter} {w : Wallet} {snapshot : Snapshot} {crawls : Crawls} {r : Round}
  {asked : Option PageRequest} {served : List Served}
  {due : Option (Option PageRequest)} {after : Option Key} {items : List Item} {t : Rfc3339}

/-- Block times that can all be written. -/
def Timed (txs : List Tx) : Prop :=
  ∀ tx ∈ txs, ∀ t, tx.status.blockTime = some t → ∃ ts, rfc3339Utc t = .ok ts

/-- **What one reply with a page delivers**, whichever process it is from: the crawl in hand or the
new one has the same records at its own instant.

**Proof sketch.** The page is cut from the crawl of this query, which is of the snapshot, at an
instant of its own (`Unmoved.crawlFor`). What that page delivers is told at its own instant
(`Snapshot.Resumes.delivers`), over the plan stamped anew, and stamping commutes with taking the
records behind a position. A request for one resource alone leaves room for a record. -/
lemma answer_delivers (debug : String → String) (hwallet : a.lookup w.resourceId = some w)
    (htimes : Timed snapshot.txs) (hunmoved : Unmoved w.resourceId snapshot crawls)
    (hworld : Unchanging w snapshot r.world)
    (hplan : plan (a.ctx w t) snapshot.toChain w.owned none = .ok ⟨items, snapshot.mark⟩)
    (ht : textSize t.text = 22) (hresumes : snapshot.Resumes asked after)
    (hasked : ∀ q ∈ r.queries, q.resourceId = w.resourceId → q.page = asked) {p : PageReply}
    (hpage : pageFor (answer debug a crawls r).reply w.resourceId = some p) :
    (p.next = none ∧ recordsAfter after items =
        (observationsFor (answer debug a crawls r).reply w.resourceId).map (stampedAt t)) ∨
      ∃ next after', p.next = some next ∧ snapshot.Resumes (some next) after' ∧
        recordsAfter after items =
          (observationsFor (answer debug a crawls r).reply w.resourceId).map (stampedAt t) ++
            recordsAfter after' items ∧
        (r.queries.length = 1 →
          observationsFor (answer debug a crawls r).reply w.resourceId ≠ []) := by
  have hmapped (t : Rfc3339) : Mapped (a.ctx w t) w.owned snapshot.txs := fun tx htx =>
    active_isOk_iff.mpr (htimes tx htx)
  obtain ⟨q, hq, hid⟩ := exists_query hpage
  have hstarted := hasked q hq hid
  have hserved := pageFor_budget hq (hid.symm ▸ hpage)
  rw [hid, hstarted] at hserved
  obtain ⟨w', start, crawl, budget, page, hw', hstart, hfor, hcut, rfl, hobs, hbudget⟩ := hserved
  obtain rfl := Option.some.inj (hwallet.symm.trans hw')
  obtain ⟨rfl, now', hnow'⟩ := hunmoved.crawlFor hworld hfor
  have hrestamped (after : Option Key) := recordsAfter_restamped crawl.observedAt hplan ht
    (textSize_stamp hnow') after
  have hplan' := plan_stampedAt crawl.observedAt (hmapped t) hplan
  rw [hobs]
  rcases hresumes.delivers (hmapped crawl.observedAt) hplan' hstart hcut with
    ⟨hnext, hall⟩ | ⟨c, after', hnext, hlater, hsplit, hroom⟩
  · exact Or.inl ⟨by simp [Page.reply, hnext], by rw [← hall, hrestamped]⟩
  · refine Or.inr ⟨.cursor c.encode, after', by simp [Page.reply, hnext], hlater, ?_, ?_⟩
    · rw [← hrestamped after, hsplit, List.map_append, hrestamped after']
    · intro hone
      obtain ⟨q', hq'⟩ := List.length_eq_one_iff.mp hone
      obtain rfl : q = q' := by simpa [hq'] using hq
      exact hroom (hbudget hq')

/-- What a client is served from a position on is a first part of the plan from there, all of it
once the crawl has drained; and when it asks for one resource at a time, every page but the last
has a record. -/
structure Delivered (resourceId : String) (t : Rfc3339) (served : List Served)
    (due : Option (Option PageRequest)) (records : List ObservationWire) : Prop where
  prefixed : (receivedFor resourceId served).map (stampedAt t) <+: records
  drained : due = none → (receivedFor resourceId served).map (stampedAt t) = records
  progress : (∀ s ∈ served, s.round.queries.length = 1) →
    pagesFor resourceId served ≤ records.length + 1

/-- A reply without a page delivers nothing. -/
lemma Delivered.again {resourceId : String} {s : Served} {records : List ObservationWire}
    (h : Delivered resourceId t served due records)
    (hobs : observationsFor s.reply resourceId = [])
    (hpage : pageFor s.reply resourceId = none) :
    Delivered resourceId t (s :: served) due records := by
  have hreceived : receivedFor resourceId (s :: served) = receivedFor resourceId served := by
    rw [receivedFor, List.flatMap_cons, hobs, List.nil_append, receivedFor]
  have hpages : pagesFor resourceId (s :: served) = pagesFor resourceId served := by
    simp [pagesFor, hpage]
  constructor
  · exact hreceived ▸ h.prefixed
  · exact hreceived ▸ h.drained
  · intro hone
    rw [hpages]
    exact h.progress fun s hs => hone s (List.mem_cons_of_mem _ hs)

/-- A page that is not the last delivers a first part. -/
lemma Delivered.page {resourceId : String} {s : Served} {records : List ObservationWire}
    (h : Delivered resourceId t served due records) (hpage : (pageFor s.reply resourceId).isSome)
    (hprogress : s.round.queries.length = 1 → observationsFor s.reply resourceId ≠ []) :
    Delivered resourceId t (s :: served) due
      ((observationsFor s.reply resourceId).map (stampedAt t) ++ records) := by
  have hreceived : (receivedFor resourceId (s :: served)).map (stampedAt t) =
      (observationsFor s.reply resourceId).map (stampedAt t) ++
        (receivedFor resourceId served).map (stampedAt t) := by
    rw [receivedFor, List.flatMap_cons, List.map_append, receivedFor]
  have hpages : pagesFor resourceId (s :: served) = pagesFor resourceId served + 1 := by
    simp [pagesFor, hpage]
  constructor
  · rw [hreceived]
    exact (List.prefix_append_right_inj _).mpr h.prefixed
  · intro hdue
    rw [hreceived, h.drained hdue]
  · intro hone
    have hrest := h.progress fun s hs => hone s (List.mem_cons_of_mem _ hs)
    have hsome := List.length_pos_iff.mpr (hprogress (hone s List.mem_cons_self))
    rw [hpages, List.length_append, List.length_map]
    omega

/-- **The run of a client**, by induction on what it asks: the position that its cursor names is
all that is carried from one reply to the next.

**Proof sketch.** Induction on what the client asks. Where it stops, nothing was due. A reply
without a page delivers nothing, and the position stays. A page with a next cursor delivers a first
part of what is due, and what is due to that cursor is the rest, so the induction hypothesis applies
behind it; a last page delivers all that is left. The pages are counted along. -/
lemma Reads.delivered (debug : String → String) (h : Reads w.resourceId asked served due)
    (hwallet : a.lookup w.resourceId = some w) (htimes : Timed snapshot.txs)
    (hserved : ∀ s ∈ served, s = answer debug a s.before s.round ∧
      Unmoved w.resourceId snapshot s.before ∧ Unchanging w snapshot s.round.world)
    (hplan : plan (a.ctx w t) snapshot.toChain w.owned none = .ok ⟨items, snapshot.mark⟩)
    (ht : textSize t.text = 22) (hresumes : snapshot.Resumes asked after) :
    Delivered w.resourceId t served due (recordsAfter after items) := by
  induction h generalizing after with
  | stop asked =>
    exact ⟨List.nil_prefix, fun h => absurd h (Option.some_ne_none _), fun _ => Nat.zero_le _⟩
  | @again asked s rest due hasked hnone h ih =>
    obtain ⟨hanswer, -, -⟩ := hserved s List.mem_cons_self
    have hobs : observationsFor s.reply w.resourceId = [] := by
      rw [hanswer] at hnone ⊢
      exact observationsFor_of_no_page hnone
    exact (ih (fun s hs => hserved s (List.mem_cons_of_mem _ hs)) hresumes).again hobs hnone
  | @page asked s p next rest due hasked hpage hnext h ih =>
    obtain ⟨hanswer, hunmoved, hworld⟩ := hserved s List.mem_cons_self
    have hone := answer_delivers debug hwallet htimes hunmoved hworld hplan ht hresumes
      hasked (hanswer ▸ hpage)
    rw [← hanswer] at hone
    rcases hone with ⟨hlast, -⟩ | ⟨next', after', hnext', hlater, hsplit, hprogress⟩
    · exact absurd (hlast.symm.trans hnext) (Option.some_ne_none next).symm
    obtain rfl := Option.some.inj (hnext.symm.trans hnext')
    rw [hsplit]
    exact (ih (fun s hs => hserved s (List.mem_cons_of_mem _ hs)) hlater).page
      (Option.isSome_iff_exists.mpr ⟨p, hpage⟩) hprogress
  | @drained asked s p hasked hpage hnext =>
    obtain ⟨hanswer, hunmoved, hworld⟩ := hserved s List.mem_cons_self
    have hone := answer_delivers debug hwallet htimes hunmoved hworld hplan ht hresumes
      hasked (hanswer ▸ hpage)
    rw [← hanswer] at hone
    rcases hone with ⟨-, hall⟩ | ⟨next', after', hnext', -⟩
    swap
    · exact absurd (hnext.symm.trans hnext') (Option.some_ne_none next').symm
    have hreceived : (receivedFor w.resourceId [s]).map (stampedAt t) =
        recordsAfter after items := by
      rw [hall, receivedFor, List.flatMap_cons, List.flatMap_nil, List.append_nil]
    refine ⟨hreceived ▸ List.prefix_refl _, fun _ => hreceived, fun _ => ?_⟩
    have hcount : pagesFor w.resourceId [s] ≤ [s].length := List.countP_le_length
    exact hcount.trans (Nat.le_add_left _ _)

/-- **A client that reads from the start** is served a plan at any instant. -/
lemma Reads.delivered_plan (debug : String → String) (h : Reads w.resourceId none served due)
    (hwallet : a.lookup w.resourceId = some w) (htimes : Timed snapshot.txs)
    (hserved : ∀ s ∈ served, s = answer debug a s.before s.round ∧
      Unmoved w.resourceId snapshot s.before ∧ Unchanging w snapshot s.round.world)
    {now : ℤ} (ht : rfc3339Utc now = .ok t) :
    ∃ items, plan (a.ctx w t) snapshot.toChain w.owned none = .ok ⟨items, snapshot.mark⟩ ∧
      Delivered w.resourceId t served due (items.filterMap kept) := by
  have hmapped : Mapped (a.ctx w t) w.owned snapshot.txs := fun tx htx =>
    active_isOk_iff.mpr (htimes tx htx)
  obtain ⟨items, hplan, -⟩ := plan_spec (a.ctx w t) w.owned snapshot hmapped none
  have hplan : plan (a.ctx w t) snapshot.toChain w.owned none = .ok ⟨items, snapshot.mark⟩ := hplan
  have hall : recordsAfter none items = items.filterMap kept := by
    simp [recordsAfter, Key.beyond]
  exact ⟨items, hplan, hall ▸ h.delivered debug hwallet htimes hserved hplan (textSize_stamp ht)
    .start⟩

/-- Every reply of such processes is the adapter's, and a crawl that is in hand before it has the
unchanged history. -/
lemma of_mem_serveProcesses {debug : String → String} {processes : List (List Round)} {s : Served}
    (hwallet : a.lookup w.resourceId = some w)
    (hworld : ∀ rounds ∈ processes, ∀ r ∈ rounds, Unchanging w snapshot r.world)
    (hs : s ∈ serveProcesses debug a processes) :
    s = answer debug a s.before s.round ∧ Unmoved w.resourceId snapshot s.before ∧
      Unchanging w snapshot s.round.world := by
  obtain ⟨rounds, hrounds, hs⟩ := List.mem_flatMap.mp hs
  exact ⟨mem_serveRounds hs,
    (Unmoved.none w.resourceId snapshot).serveRounds debug hwallet (hworld rounds hrounds) s hs⟩

end Client

/-- **One crawl across processes.** The provider's history of a wallet does not change, and its
block times can be written. A client reads that history from its start, while the adapter's process
is restarted any number of times; other requests may fail and may name other wallets. Then what it
is served, over all processes, are the records that one plan at any instant emits, in that order,
from the first on, each with the instant of the crawl it was cut from; once a page has no `next`
they are all of them. When every request asks for this wallet alone, and the wallet's name is not
half a frame, no more pages are served than there are records, and one.

**Proof sketch.** A crawl in hand has the unchanged history (`Unmoved.answer`), so a page depends on
its process only through the instant, which takes the same bytes at any time (`textSize_stamp`); and
its cursor names the position that the next page goes on from (`Snapshot.Resumes.delivers`). -/
theorem crawl_across_restarts (debug : String → String) (a : Adapter) (w : Wallet)
    (snapshot : Snapshot) (processes : List (List Round)) (due : Option (Option PageRequest))
    (hwallet : a.lookup w.resourceId = some w) (htimes : Timed snapshot.txs)
    (hworld : ∀ rounds ∈ processes, ∀ r ∈ rounds, Unchanging w snapshot r.world)
    (hreads : Reads w.resourceId none (serveProcesses debug a processes) due) (now : ℤ)
    (t : Rfc3339) (ht : rfc3339Utc now = .ok t) :
    ∃ items, plan (a.ctx w t) snapshot.toChain w.owned none = .ok ⟨items, snapshot.mark⟩ ∧
      Delivered w.resourceId t (serveProcesses debug a processes) due (items.filterMap kept) := by
  exact hreads.delivered_plan debug hwallet htimes
    (fun s hs => of_mem_serveProcesses hwallet hworld hs) ht

/-- What a second process serves at the cursor of the first. -/
@[irreducible]
def resumedServed : Served := answer quotes savingsAdapter (fun _ => none) retriedRound

/-- The second process drains the crawl: its page for the wallet names no next one. -/
lemma resumed_served : ∃ p, pageFor resumedServed.reply "w" = some p ∧ p.next = none := by
  have heval : (pageFor resumedServed.reply "w").any (fun p => p.next.isNone) = true := by
    decide +kernel
  obtain ⟨p, hp, hnext⟩ := (Option.any_eq_true _ _).mp heval
  exact ⟨p, hp, Option.isNone_iff_eq_none.mp hnext⟩

/-- What a provider lists does not depend on the clock. -/
lemma sync_waiting (now : ℤ) : sync (waiting now) savings = sync (waiting 0) savings := rfl

/-- Whether a sync finds only transactions that wait in the mempool. -/
def AllWait : Except FetchError Snapshot → Bool
  | .ok chain => chain.txs.all fun tx => tx.status.blockTime.isNone
  | .error _ => false

/-- What is found of the wallet, at any time. -/
lemma waiting_snapshot : ∃ snapshot : Snapshot, sync (waiting 0) savings = .ok snapshot ∧
    Timed snapshot.txs ∧ ∀ now, Unchanging savings snapshot fun _ => waiting now := by
  have hsync : AllWait (sync (waiting 0) savings) = true := by decide +kernel
  cases hchain : sync (waiting 0) savings with
  | error e =>
    rw [hchain] at hsync
    cases hsync
  | ok snapshot =>
    rw [hchain, AllWait, List.all_eq_true] at hsync
    refine ⟨snapshot, rfl, ?_, ?_⟩
    · intro tx htx time htime
      have hnone := hsync tx htx
      simp [htime] at hnone
    · intro now chain h
      rw [sync_waiting, hchain] at h
      exact (Except.ok.inj h).symm

/-- A first process has no room for the one transaction there is, and a second one serves it.

**Proof sketch.** The first process has no room for the transaction and answers with a cursor; the
second one, started anew, is asked for that cursor and serves the last page. This is a client that
drained its crawl over two processes, and the theorem says what it received. -/
theorem crawl_across_restarts_waiting :
    ∃ snapshot t items, sync (waiting 0) savings = .ok snapshot ∧ rfc3339Utc 0 = .ok t ∧
      plan (savingsAdapter.ctx savings t) snapshot.toChain savings.owned none =
        .ok ⟨items, snapshot.mark⟩ ∧
      Delivered "w" t (serveProcesses quotes savingsAdapter [[firstRound], [retriedRound]]) none
        (items.filterMap kept) := by
  obtain ⟨snapshot, hchain, htimes, hunchanging⟩ := waiting_snapshot
  have hclock : (rfc3339Utc 0).toOption.isSome = true := by decide +kernel
  obtain ⟨t, ht⟩ := exists_eq_ok_iff.mpr hclock
  have hserved : serveProcesses quotes savingsAdapter [[firstRound], [retriedRound]] =
      [answer quotes savingsAdapter (fun _ => none) firstRound, resumedServed] := by
    unfold resumedServed
    rfl
  obtain ⟨p, hp, hnext, -⟩ := first_served
  obtain ⟨p', hp', hnext'⟩ := resumed_served
  have hfirst : ∀ q ∈ firstRound.queries, q.resourceId = "w" → q.page = none := by
    intro q hq _
    rcases List.mem_pair.mp hq with rfl | rfl <;> rfl
  have hsecond : ∀ q ∈ resumedServed.round.queries, q.resourceId = "w" →
      q.page = some (.cursor "0:") := by
    intro q hq _
    unfold resumedServed at hq
    rw [round_answer] at hq
    rw [List.mem_singleton.mp hq]
  have hreads : Reads "w" none
      (serveProcesses quotes savingsAdapter [[firstRound], [retriedRound]]) none := by
    rw [hserved]
    exact .page hfirst hp hnext (.drained hsecond hp' hnext')
  obtain ⟨items, hplan, hdelivered⟩ := crawl_across_restarts quotes savingsAdapter savings
    snapshot [[firstRound], [retriedRound]] none lookup_savings htimes (by
      intro rounds hrounds r hr
      rcases List.mem_pair.mp hrounds with rfl | rfl
      · obtain rfl := List.mem_singleton.mp hr
        exact hunchanging 0
      · obtain rfl := List.mem_singleton.mp hr
        exact hunchanging 2) hreads 0 t ht
  exact ⟨snapshot, t, items, hchain, ht, hplan, hdelivered⟩

end Sumer.Bitcoin
