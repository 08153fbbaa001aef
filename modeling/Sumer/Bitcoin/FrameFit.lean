import Sumer.Bitcoin.Snapshots

set_option relaxedAutoImplicit false
set_option autoImplicit false

/-!
# What fits a frame

The bytes of a `history.read` reply against the budget it was made with. Every status entry is
reserved in advance, and every page is cut to what is left; a provider's evidence is charged when
it comes, and the counter saturates. A reply fits its frame as long as that does not happen.

## Main definitions

* `Sumer.Bitcoin.evidence`: the entry of a turn whose crawl fails.
* `Sumer.Bitcoin.Covered`: a loop in which what is left covers every turn.
* `Sumer.Bitcoin.Reading.bytes`: what the loop has put into the reply.

## Main results

* `Sumer.Bitcoin.size_entry`: the entry of a page stays within its reservation.
* `Sumer.Bitcoin.serveAll_bytes`: what a covered loop puts into a reply.
* `Sumer.Bitcoin.history_fits`: a reply whose turns are covered fits a frame.
-/

namespace Sumer.Bitcoin

open Sumer.Wire

/-! ### Turns -/

/-- The entry of a resource whose crawl failed. -/
def FetchError.entry (resourceId : String) : FetchError → StatusEntry
  | .rateLimited ms detail => (status resourceId (.rateLimited ms.val)).withDetail detail
  | .unavailable detail => (status resourceId .unavailable).withDetail detail

section Turns

variable (debug : String → String) (a : Adapter) (world : String → Responses)

/-- The entry of a turn whose crawl fails, with the provider's evidence. -/
def evidence (s : Reading) (q : ResourceQuery) : Option StatusEntry :=
  match startOf debug q.page, a.lookup q.resourceId with
  | .ok start, some w =>
    if s.abandoned then none
    else
      match crawlFor (world q.resourceId) w (s.crawls q.resourceId) start with
      | .ok (.error e) => some (e.entry q.resourceId)
      | _ => none
  | _, _ => none

/-- Whether a turn's evidence leaves not one byte of its reservation. -/
def overruns (s : Reading) (q : ResourceQuery) : Bool :=
  (evidence debug a world s q).any fun e => decide (statusBytes q.resourceId ≤ e.toJson.size)

/-- What is left of the budget covers a turn: its evidence beyond the reservation. No record of its
crawl is omitted. -/
structure Covers (s : Reading) (q : ResourceQuery) : Prop where
  room : ∀ e, evidence debug a world s q = some e →
    e.toJson.size ≤ statusBytes q.resourceId + s.budget.left
  keeps : ∀ w start crawl p, Paged debug a world s q w start crawl →
    plan (a.ctx w crawl.observedAt) crawl.chain.toChain w.owned start = .ok p →
      ∀ i ∈ p.items, dropped i = none

/-- Every turn of the loop is covered when it comes. -/
def Covered : Reading → List ResourceQuery → Prop
  | _, [] => True
  | s, q :: queries => Covers debug a world s q ∧
    ∀ s', serveQuery debug a world s q = .ok s' → Covered s' queries

/-- How many turns of the loop leave not one byte of their reservation. -/
def overrunCount : Reading → List ResourceQuery → ℕ
  | _, [] => 0
  | s, q :: queries => (overruns debug a world s q).toNat +
    match serveQuery debug a world s q with
    | .ok s' => overrunCount s' queries
    | .error _ => 0

end Turns

/-- What the loop has put into the reply, with a comma for each element. -/
def Reading.bytes (s : Reading) : ℕ :=
  (s.observations.map cost).sum + (s.statuses.map fun e => e.toJson.size + 1).sum

/-! ### Sizes -/

section Sizes

variable {s : String} {c : Cursor}

/-- A printable character that JSON does not escape. -/
lemma escapedSize_eq_one {ch : Char} (hlow : 32 ≤ ch.toNat) (hhigh : ch.toNat < 128)
    (hquote : ch.toNat ≠ 34) (hslash : ch.toNat ≠ 92) : escapedSize ch = 1 := by
  have hone : ch.utf8Size = 1 := Char.utf8Size_eq_one_iff.mpr (by
    show ch.val.toNat ≤ 127
    exact Nat.le_of_lt_succ hhigh)
  have hplain : ¬ (ch = '"' ∨ ch = '\\') := by
    rintro (rfl | rfl)
    · exact hquote rfl
    · exact hslash rfl
  rw [escapedSize, if_neg hplain, if_neg (by omega), if_neg (by omega), hone]

/-- A text of such characters takes its length, and its quotes. -/
lemma textSize_of_plain (h : ∀ ch ∈ s.toList, escapedSize ch = 1) :
    textSize s = s.toList.length + 2 := by
  rw [textSize, List.map_congr_left h, List.map_const', List.sum_replicate, smul_eq_mul, mul_one]

/-- A decimal digit is not escaped, so it takes one byte of a text. -/
lemma escapedSize_digit {ch : Char} (h : ch.isDigit = true) : escapedSize ch = 1 := by
  have hrange := Digits.isDigit_iff.mp h
  exact escapedSize_eq_one (by omega) (by omega) (by omega) (by omega)

/-- Nor is a digit of a txid. -/
lemma escapedSize_hexDigit {ch : Char} (h : isHexDigit ch = true) : escapedSize ch = 1 := by
  rw [isHexDigit, Bool.or_eq_true, Bool.and_eq_true, decide_eq_true_iff, decide_eq_true_iff] at h
  rcases h with hdigit | ⟨hlow, hhigh⟩
  · exact escapedSize_digit hdigit
  · have hlow' : 97 ≤ ch.toNat := hlow
    have hhigh' : ch.toNat ≤ 102 := hhigh
    exact escapedSize_eq_one (by omega) (by omega) (by omega) (by omega)

/-- A text that is accepted as a txid has exactly 64 characters. -/
lemma length_of_isTxid (h : isTxid s = true) : s.toList.length = 64 := by
  rw [isTxid, Bool.and_eq_true, beq_iff_eq] at h
  exact h.1

/-- A number below a power of ten takes at most as many bytes. -/
lemma size_nat {n k : ℕ} (hk : 0 < k) (h : n < 10 ^ k) : (Json.nat n).size ≤ k := by
  have hplain : ∀ ch ∈ Nat.toDigits 10 n, ch.utf8Size = 1 := fun ch hch => by
    have hrange := Digits.isDigit_iff.mp (Nat.isDigit_of_mem_toDigits (by decide) le_rfl hch)
    refine Char.utf8Size_eq_one_iff.mpr ?_
    show ch.val.toNat ≤ 127
    exact hrange.2.trans (by decide)
  have hsize : (Json.nat n).size = (Nat.toDigits 10 n).length := by
    rw [Json.nat, Json.size, length_asBytes, byteCount]
    show ((Nat.repr n).toList.map Char.utf8Size).sum = _
    rw [Nat.toList_repr, List.map_congr_left hplain, List.map_const', List.sum_replicate,
      smul_eq_mul, mul_one]
  rw [hsize]
  exact (Nat.length_toDigits_le_iff (by decide) hk).mpr h

/-- **The string of a cursor** has at most 152 characters, none of them escaped.

**Proof sketch.** An accepted cursor has a height of at most twenty digits, a txid of 64 characters
or none, and possibly a second txid behind the mark of the mempool section. None of the characters
is escaped, so the sizes add up, with the two quotes. -/
lemma textSize_encode (h : Cursor.parse s = .ok c) : textSize c.encode ≤ 154 := by
  obtain ⟨-, -, -, -, htxid, hmempool⟩ := parse_eq_ok h
  have hheight : (Nat.toDigits 10 c.height.val).length ≤ 20 :=
    (Nat.length_toDigits_le_iff (by decide) (by decide)).mpr (c.height.isLt.trans (by decide))
  have hdigits : ∀ ch ∈ Nat.toDigits 10 c.height.val, escapedSize ch = 1 := fun ch hch =>
    escapedSize_digit (Nat.isDigit_of_mem_toDigits (by decide) le_rfl hch)
  have hid {txid : String} (hid : isTxid txid = true) : ∀ ch ∈ txid.toList, escapedSize ch = 1 :=
    fun ch hch => escapedSize_hexDigit (isHexDigit_of_mem hid hch)
  have hfirst : (∀ ch ∈ c.txid.toList, escapedSize ch = 1) ∧ c.txid.toList.length ≤ 64 := by
    rcases htxid with hempty | htxid
    · simp [hempty]
    · exact ⟨hid htxid, (length_of_isTxid htxid).le⟩
  have hcolon : escapedSize ':' = 1 ∧ escapedSize 'm' = 1 := by decide
  have hplain : ∀ ch ∈ c.encode.toList, escapedSize ch = 1 := by
    rw [toList_encode]
    refine List.forall_mem_append.mpr ⟨hdigits, List.forall_mem_cons.mpr ⟨hcolon.1,
      List.forall_mem_append.mpr ⟨hfirst.1, ?_⟩⟩⟩
    cases hm : c.mempool with
    | none => simp
    | some m =>
      refine List.forall_mem_append.mpr ⟨?_, hid (hmempool m hm)⟩
      simp [hcolon]
  have hlength : c.encode.toList.length ≤ 152 := by
    rw [toList_encode]
    cases hm : c.mempool with
    | none =>
      simp only [Option.elim_none, List.append_nil, List.length_append, List.length_cons]
      omega
    | some m =>
      have hlast := length_of_isTxid (hmempool m hm)
      have hsep : ":m:".toList.length = 3 := rfl
      simp only [Option.elim_some, List.length_append, List.length_cons, hsep, hlast]
      omega
  rw [textSize_of_plain hplain]
  omega

/-- What a page reply takes.

**Proof sketch.** Four cases, by whether there is a next cursor and whether the page size was
reduced. The keys and the spelling are fixed, the cursor is bounded by assumption, and a number of
32 bits has at most ten digits. -/
lemma size_reply {page : Page} (hnext : ∀ c, page.next = some c → textSize c.encode ≤ 154)
    (hreduced : ∀ n, page.pageSizeReducedTo = some n → n < 2 ^ 32) :
    page.reply.toJson.size ≤ 260 := by
  have hkeys : textSize "cursor_resumable" = 18 ∧ textSize "exact" = 7 ∧ textSize "next" = 6 ∧
      textSize "kind" = 6 ∧ textSize "cursor" = 8 ∧ textSize "page_size_reduced_to" = 22 := by
    decide
  have hn : ∀ n, page.pageSizeReducedTo = some n → (Json.nat n).size ≤ 10 := fun n hsome =>
    size_nat (by decide) ((hreduced n hsome).trans (by decide))
  have hspelling : resumableSpelling page.reply.cursorResumable = "exact" := rfl
  have hreply : page.reply.next = page.next.map fun c => PageRequest.cursor c.encode := rfl
  have hsame : page.reply.pageSizeReducedTo = page.pageSizeReducedTo := rfl
  rw [PageReply.toJson, Json.size, membersSize_append, membersSize_append, hspelling, hreply, hsame]
  cases hnext' : page.next with
  | none =>
    cases hreduced' : page.pageSizeReducedTo with
    | none =>
      simp only [Wire.optional, Option.map_none, membersSize, Json.size, hkeys, List.length_append,
        List.length_cons, List.length_nil]
      omega
    | some n =>
      have := hn n hreduced'
      simp only [Wire.optional, Option.map_none, membersSize, Json.size, hkeys, List.length_append,
        List.length_cons, List.length_nil]
      omega
  | some c =>
    have hc := hnext c hnext'
    cases hreduced' : page.pageSizeReducedTo with
    | none =>
      simp only [Wire.optional, Option.map_some, pageRequestJson, membersSize, Json.size, hkeys,
        List.length_append, List.length_cons, List.length_nil]
      omega
    | some n =>
      have := hn n hreduced'
      simp only [Wire.optional, Option.map_some, pageRequestJson, membersSize, Json.size, hkeys,
        List.length_append, List.length_cons, List.length_nil]
      omega

/-- **The entry of a page** leaves a byte of its reservation, when no record was omitted. -/
lemma size_entry {page : Page} (resourceId : String) (hdegraded : page.degraded = [])
    (hnext : ∀ c, page.next = some c → textSize c.encode ≤ 154)
    (hreduced : ∀ n, page.pageSizeReducedTo = some n → n < 2 ^ 32) :
    (page.entry resourceId).toJson.size + 1 ≤ statusBytes resourceId := by
  have hkeys : textSize "resource_id" = 13 ∧ textSize "outcome" = 9 ∧ textSize "page" = 6 := by
    decide
  have houtcome : (outcomeJson (.fetched page.observations.isEmpty)).size ≤ 32 := by
    cases page.observations.isEmpty <;> decide
  have hreply := size_reply hnext hreduced
  rw [statusBytes, size_fetched, PAGE_REPLY_BYTES]
  simp only [Page.entry, StatusEntry.toJson, degradedMember, hdegraded, List.isEmpty_nil, if_true,
    Wire.optional, List.append_nil, Json.size, membersSize, List.cons_append, List.nil_append,
    List.length_cons, List.length_nil, hkeys]
  omega

/-- What an entry that was not fetched takes. -/
lemma size_notFetched (resourceId : String) :
    (status resourceId .notFetched).toJson.size = textSize resourceId + 40 := by
  have hkeys : textSize "resource_id" = 13 ∧ textSize "outcome" = 9 ∧
      (outcomeJson .notFetched).size = 13 := by decide
  simp [status, StatusEntry.toJson, degradedMember, Wire.optional, Json.size, membersSize, hkeys]
  omega

/-- The bytes of a reply are at most those of its envelope, with the largest id, and those of its
records and entries, each with a comma. -/
lemma size_replyJson_le (requestId : U64) (observations : List ObservationWire)
    (statuses : List StatusEntry) :
    (replyJson requestId (.ok ⟨observations, statuses⟩)).size ≤ 66 +
      ((observations.map cost).sum + (statuses.map fun e => e.toJson.size + 1).sum) := by
  have hkeys : textSize "id" = 4 ∧ textSize "ok" = 4 ∧ textSize "observations" = 14 ∧
      textSize "statuses" = 10 := by decide
  have hid : (Json.nat requestId.val).size ≤ 20 :=
    size_nat (by decide) (requestId.isLt.trans (by decide))
  have hcost : (observations.map cost).sum =
      (observations.map fun o => o.toJson.size).sum + observations.length :=
    sum_map_add_one (fun o => o.toJson.size) observations
  have hentries : (statuses.map fun e => e.toJson.size + 1).sum =
      (statuses.map fun e => e.toJson.size).sum + statuses.length :=
    sum_map_add_one (fun e => e.toJson.size) statuses
  simp only [replyJson, HistoryReply.toJson, Json.size, membersSize, itemsSize_map, hkeys,
    List.length_cons, List.length_nil, List.length_map, hcost, hentries]
  omega

end Sizes

/-! ### The loop -/

section Loop

variable {debug : String → String} {a : Adapter} {world : String → Responses} {s s' : Reading}
  {q : ResourceQuery} {queries : List ResourceQuery}

/-- A cursor that a page names is short.

**Proof sketch.** The page is served from a cursor or from none, and the cursor it names is read
back from its string (`parse_encode_next`); a string that is read has a bounded size. -/
lemma textSize_next {w : Wallet} {start : Option Cursor} {crawl : Crawl} {budget : ℕ} {page : Page}
    {asked : Option PageRequest} (hstart : startOf debug asked = .ok start)
    (hpage : a.pageOf w crawl start budget = .ok page) {c : Cursor} (hnext : page.next = some c) :
    textSize c.encode ≤ 154 := by
  unfold Adapter.pageOf at hpage
  split at hpage
  · cases hpage
  rename_i p hp
  cases hpage
  have hserve : ∃ asked, servePage (a.ctx w crawl.observedAt) crawl.chain.toChain w.owned asked
      budget = .ok (cutPage p start budget) := by
    cases asked with
    | none =>
      cases hstart
      exact ⟨none, by simp only [servePage, Option.mapM_none, pure, Except.pure, hp]⟩
    | some request =>
      cases request with
      | window resourceId asset from' to' => cases hstart
      | cursor text =>
        simp only [startOf] at hstart
        cases hparse : Cursor.parse text with
        | error e =>
          rw [hparse] at hstart
          cases hstart
        | ok c =>
          rw [hparse] at hstart
          cases hstart
          refine ⟨some text, ?_⟩
          simp only [servePage, Option.mapM_some, hparse, Functor.map, Except.map, hp]
  obtain ⟨text, hserve⟩ := hserve
  exact textSize_encode (parse_encode_next hserve hnext)

/-- Charging an entry that what is left covers. -/
lemma Reading.bytes_push (s : Reading) (e : StatusEntry)
    (hroom : e.toJson.size ≤ statusBytes e.resourceId + s.budget.left) :
    (s.push e).bytes + (s.push e).budget.left ≤ s.bytes + s.budget.left +
      statusBytes e.resourceId + (decide (statusBytes e.resourceId ≤ e.toJson.size)).toNat := by
  simp only [Reading.push, Reading.bytes, Budget.charge, Budget.spend, List.map_append,
    List.map_cons, List.map_nil, List.sum_append, List.sum_cons, List.sum_nil]
  by_cases hover : statusBytes e.resourceId ≤ e.toJson.size
  · simp only [hover, decide_true, Bool.toNat_true]
    omega
  · simp only [hover, decide_false, Bool.toNat_false]
    omega

/-- Charging an entry that leaves a byte of its reservation. -/
lemma Reading.bytes_push_of_lt (s : Reading) {e : StatusEntry}
    (hlt : e.toJson.size < statusBytes e.resourceId) :
    (s.push e).bytes + (s.push e).budget.left ≤
      s.bytes + s.budget.left + statusBytes e.resourceId := by
  have hpush := s.bytes_push e (hlt.le.trans (Nat.le_add_right _ _))
  simpa [not_le.mpr hlt] using hpush

/-- Charging the evidence of a turn that what is left covers. -/
lemma Covers.bytes_push (h : Covers debug a world s q) {e : StatusEntry}
    (hid : e.resourceId = q.resourceId) (hevidence : evidence debug a world s q = some e) :
    (s.push e).bytes + (s.push e).budget.left ≤ s.bytes + s.budget.left +
      statusBytes q.resourceId + (overruns debug a world s q).toNat := by
  have hpush := s.bytes_push e (hid.symm ▸ h.room e hevidence)
  rwa [overruns, hevidence, Option.any_some, ← hid]

/-- A page, its entry and its observations: what it spends is left.

**Proof sketch.** An observation costs its bytes and a comma, so the observations of the page and
their commas are the bytes that the page spends, which are at most the budget it was cut for and are
taken off what is left. The entry of the page, with a cursor of at most 154 bytes and a page size of
32 bits, stays below what was reserved for it; nothing is degraded, by assumption. -/
lemma Reading.bytes_paged {w : Wallet} {start : Option Cursor} {crawl : Crawl} {page : Page}
    (hpaged : Paged debug a world s q w start crawl)
    (hpage : a.pageOf w crawl start (s.pageBudget q) = .ok page)
    (hcovers : Covers debug a world s q) :
    (s.paged q crawl page).bytes + (s.paged q crawl page).budget.left ≤
      s.bytes + s.budget.left + statusBytes q.resourceId := by
  have hnext : ∀ c, page.next = some c → textSize c.encode ≤ 154 := fun c hc =>
    textSize_next hpaged.cursor hpage hc
  have hcharge : s.budget.charge (status q.resourceId (.fetched true)) = s.budget := by
    have hle : (status q.resourceId (.fetched true)).toJson.size ≤ statusBytes q.resourceId :=
      Nat.le_add_right _ _
    have hsame : (status q.resourceId (.fetched true)).resourceId = q.resourceId := rfl
    rw [Budget.charge, hsame, Nat.sub_eq_zero_of_le hle]
    rfl
  unfold Adapter.pageOf at hpage
  split at hpage
  · cases hpage
  rename_i p hp
  cases hpage
  obtain ⟨taken, rest, hitems, hobs, hdegraded, hbytes, hle, -⟩ :=
    cutPage_spec p start (s.pageBudget q)
  have hnone : (cutPage p start (s.pageBudget q)).degraded = [] := by
    rw [hdegraded, List.filterMap_eq_nil_iff]
    exact fun i hi => hcovers.keeps w start crawl p hpaged hp i
      (hitems ▸ List.mem_append_left _ hi)
  have hreduced : ∀ n, (cutPage p start (s.pageBudget q)).pageSizeReducedTo = some n →
      n < 2 ^ 32 := by
    intro n hn
    simp only [cutPage] at hn
    split_ifs at hn
    obtain rfl := Option.some.inj hn
    exact lt_of_le_of_lt (min_le_right _ _) (by decide)
  have hentry := size_entry q.resourceId hnone hnext hreduced
  have hcost : ((cutPage p start (s.pageBudget q)).observations.map cost).sum =
      (cutPage p start (s.pageBudget q)).bytes := by
    rw [hbytes, hobs, spent]
  have hleft : (cutPage p start (s.pageBudget q)).bytes ≤ s.budget.left := by
    refine hle.trans ?_
    rw [Reading.pageBudget, hcharge]
    exact min_le_left _ _
  simp only [Reading.paged, Reading.serve, Reading.bytes, hcharge, Budget.spend, List.map_append,
    List.sum_append, List.map_cons, List.map_nil, List.sum_cons, List.sum_nil, hcost]
  omega

/-- **One turn**: what it puts into the reply was left or reserved, up to a comma.

**Proof sketch.** By the branches of the turn. An entry without a page is below the reservation of
its resource, for an unknown resource and for one not asked for; for a failed fetch it is by
assumption, up to the comma that an exact fit costs. A page spends the budget it is cut for and no
more than its reservation besides (`Reading.bytes_paged`). -/
lemma serveQuery_bytes (h : serveQuery debug a world s q = .ok s')
    (hcovers : Covers debug a world s q) :
    s'.bytes + s'.budget.left ≤ s.bytes + s.budget.left + statusBytes q.resourceId +
      (overruns debug a world s q).toNat := by
  unfold serveQuery at h
  split at h
  · cases h
  rename_i start hstart
  split at h
  · cases h
    have hlt : (unknownResource q.resourceId).toJson.size <
        statusBytes (unknownResource q.resourceId).resourceId := by
      show _ < statusBytes q.resourceId
      rw [size_unknownResource, statusBytes, size_fetched, PAGE_REPLY_BYTES]
      omega
    exact (s.bytes_push_of_lt hlt).trans (Nat.le_add_right _ _)
  rename_i w hw
  split_ifs at h with habandoned
  · cases h
    have hlt : (status q.resourceId .notFetched).toJson.size <
        statusBytes (status q.resourceId .notFetched).resourceId := by
      show _ < statusBytes q.resourceId
      rw [size_notFetched, statusBytes, size_fetched, PAGE_REPLY_BYTES]
      omega
    exact (s.bytes_push_of_lt hlt).trans (Nat.le_add_right _ _)
  have hevidence {e : FetchError} (hcrawl : crawlFor (world q.resourceId) w
      (s.crawls q.resourceId) start = .ok (.error e)) :
      evidence debug a world s q = some (e.entry q.resourceId) := by
    simp only [evidence, hstart, hw, if_neg habandoned, hcrawl]
  split at h
  · cases h
  · rename_i ms detail hcrawl
    cases h
    exact hcovers.bytes_push rfl (hevidence hcrawl)
  · rename_i detail hcrawl
    cases h
    exact hcovers.bytes_push rfl (hevidence hcrawl)
  · rename_i crawl hcrawl
    dsimp only at h
    split at h
    · cases h
    rename_i page hpage
    cases h
    have hpaged : Paged debug a world s q w start crawl :=
      ⟨hstart, hw, by simpa using habandoned, hcrawl⟩
    exact (Reading.bytes_paged hpaged hpage hcovers).trans (Nat.le_add_right _ _)

/-- **A covered loop**: what it puts into the reply was left or reserved, up to the commas. -/
lemma serveAll_bytes (h : queries.foldlM (serveQuery debug a world) s = .ok s')
    (hcovered : Covered debug a world s queries) :
    s'.bytes + s'.budget.left ≤ s.bytes + s.budget.left +
      (queries.map fun q => statusBytes q.resourceId).sum +
        overrunCount debug a world s queries := by
  induction queries generalizing s with
  | nil =>
    cases h
    simp [overrunCount]
  | cons q queries ih =>
    obtain ⟨mid, hmid, h⟩ := foldlM_cons_eq_ok.mp h
    obtain ⟨hcovers, hrest⟩ := hcovered
    have hone := serveQuery_bytes hmid hcovers
    have hmore := ih h (hrest mid hmid)
    simp only [List.map_cons, List.sum_cons, overrunCount, hmid]
    omega

end Loop

/-- **A reply whose turns are covered fits its frame.** The reservations fit the budget; whenever a
crawl fails, what is left covers its evidence beyond the reservation, and in at most 446 turns that
leaves no byte for a comma; and no record is omitted. Then the reply goes out as it is.

**Proof sketch.** A turn moves bytes from what was left or reserved into the reply, and nothing is
lost to the saturation of the counter (`serveAll_bytes`). The envelope's 512 bytes pay for its 66,
and for the commas. -/
theorem history_fits (debug : String → String) (a : Adapter) (world : String → Responses)
    (crawls : Crawls) (queries : List ResourceQuery) (requestId : U64)
    (hreserved : (queries.map fun q => statusBytes q.resourceId).sum ≤ Budget.new.left)
    (hcovered : Covered debug a world (Reading.start crawls queries) queries)
    (hcommas : overrunCount debug a world (Reading.start crawls queries) queries ≤ 446)
    (reply : HistoryReply) (hreply : (historyRead debug a world crawls queries).2 = .ok reply) :
    (replyJson requestId (.ok reply)).size ≤ MAX_FRAME_BYTES ∧
      writeReply requestId (.ok reply) = .ok reply := by
  have hsize : (replyJson requestId (.ok reply)).size ≤ MAX_FRAME_BYTES := by
    unfold historyRead at hreply
    split at hreply
    · cases hreply
    split at hreply
    · cases hreply
    rename_i s hs
    cases hreply
    have hbytes := serveAll_bytes hs hcovered
    have hleft : (Reading.start crawls queries).budget.left =
        Budget.new.left - (queries.map fun q => statusBytes q.resourceId).sum := by
      rw [Reading.start, left_reserve, List.map_map]
      rfl
    have hempty : (Reading.start crawls queries).bytes = 0 := rfl
    have hnew : Budget.new.left = MAX_FRAME_BYTES - 512 := rfl
    have hmax : MAX_FRAME_BYTES = 1048576 := rfl
    have hle := size_replyJson_le requestId s.observations s.statuses
    rw [← Reading.bytes] at hle
    omega
  exact ⟨hsize, by rw [writeReply, if_neg (not_lt.mpr hsize)]⟩

/-- **When a reply fits its frame**, for a request whose reservations fit the budget: when its
envelope, its commas and what is unpaid are no more than the bytes to spare. What is unpaid is the
evidence of a failed crawl beyond its reservation, as far as it comes when nothing is left of the
budget, and the omitted records of a page beyond the reservation of its entry.

**Proof sketch.** A reply is made of the entries and the records of the ledger, and the balance of
its lines says which bytes they are (`overdraft_le_spare_iff`). Nothing is reserved beyond the
budget here. -/
theorem reply_fits_iff (debug : String → String) (a : Adapter) (world : String → Responses)
    (crawls : Crawls) (queries : List ResourceQuery) (requestId : U64)
    (hreserved : (queries.map fun q => statusBytes q.resourceId).sum ≤ Budget.new.left)
    (reply : HistoryReply) (hreply : (historyRead debug a world crawls queries).2 = .ok reply) :
    ((replyJson requestId (.ok reply)).size ≤ MAX_FRAME_BYTES ∧
      writeReply requestId (.ok reply) = .ok reply) ↔
    envelopeBytes requestId + (queries.length - 1) +
        ((ledgerOf debug a world crawls queries).map Line.unpaid).sum ≤
      spare (ledgerOf debug a world crawls queries) := by
  obtain ⟨hgoes, rfl⟩ := historyRead_eq_ok hreply
  have hwrite : (replyJson requestId (.ok ⟨(ledgerOf debug a world crawls queries).flatMap
        Line.records, (ledgerOf debug a world crawls queries).map Line.entry⟩)).size ≤
      MAX_FRAME_BYTES ↔ overdraft requestId (ledgerOf debug a world crawls queries) ≤
        spare (ledgerOf debug a world crawls queries) := overdraft_le_spare_iff requestId hgoes
  have hnone : reserved (ledgerOf debug a world crawls queries) - Budget.new.left = 0 := by
    rw [reserved_ledgerOf]
    exact Nat.sub_eq_zero_of_le hreserved
  have hlength : (ledgerOf debug a world crawls queries).length = queries.length := by
    rw [← List.length_map Line.resourceId, ledgerOf, map_resourceId_ledger, List.length_map]
  rw [overdraft, hnone, hlength, Nat.add_zero] at hwrite
  rw [← hwrite, and_iff_left_iff_imp]
  exact fun hfits => by rw [writeReply, if_neg (not_lt.mpr hfits)]

/-! ### A provider's error page -/

section Example

/-- The evidence of a listing that was answered with 503 and a body. -/
def unavailableAt (body : String) : FetchError :=
  .unavailable ⟨"http_503", "/address/a/txs/chain: HTTP 503",
    .obj [("body", .str body), ("status", Json.nat 503)]⟩

/-- A provider that answers every listing so. -/
def failing (body : String) : Responses where
  addressChain _ := .error (unavailableAt body)
  addressMempool _ := .error (unavailableAt body)
  addressStats _ := .error (unavailableAt body)
  now := 0

/-- A crawl of a wallet with one address fails with the evidence. -/
lemma crawlFor_failing (body resourceId : String) (valid : isResourceId resourceId = true)
    (inHand : Option Crawl) :
    crawlFor (failing body) ⟨resourceId, ["a"], "h", valid⟩ inHand none =
      .ok (.error (unavailableAt body)) := by
  have hclock : ∃ t, observedAt (failing body) = .ok t := by
    have heval : (observedAt (failing body)).isOk = true := by
      show (observedAt (waiting 0)).isOk = true
      decide +kernel
    cases hclock : observedAt (failing body) with
    | error e =>
      rw [hclock] at heval
      cases heval
    | ok t => exact ⟨t, rfl⟩
  obtain ⟨t, ht⟩ := hclock
  have hstart : crawlFor (failing body) ⟨resourceId, ["a"], "h", valid⟩ inHand none =
      startCrawl (failing body) ⟨resourceId, ["a"], "h", valid⟩ := by
    cases inHand <;> rfl
  rw [hstart, startCrawl, ht]
  rfl

/-- The turn of such a wallet: the evidence is its entry. -/
lemma serveQuery_failing {debug : String → String} {a : Adapter} {world : String → Responses}
    {body resourceId : String} {s : Reading} (valid : isResourceId resourceId = true)
    (hlookup : a.lookup resourceId = some ⟨resourceId, ["a"], "h", valid⟩)
    (hworld : world resourceId = failing body) (hgoing : s.abandoned = false) :
    serveQuery debug a world s ⟨resourceId, none⟩ =
      .ok (s.push ((unavailableAt body).entry resourceId)) := by
  simp only [serveQuery, startOf, hlookup, hworld, hgoing, Bool.false_eq_true, if_false,
    crawlFor_failing, unavailableAt]
  rfl

/-- What the evidence of the turn is. -/
lemma evidence_failing {debug : String → String} {a : Adapter} {world : String → Responses}
    {body resourceId : String} {s : Reading} (valid : isResourceId resourceId = true)
    (hlookup : a.lookup resourceId = some ⟨resourceId, ["a"], "h", valid⟩)
    (hworld : world resourceId = failing body) (hgoing : s.abandoned = false) :
    evidence debug a world s ⟨resourceId, none⟩ = some ((unavailableAt body).entry resourceId) := by
  simp only [evidence, startOf, hlookup, hworld, hgoing, Bool.false_eq_true, if_false,
    crawlFor_failing]

/-- What an entry with a body takes. -/
lemma size_unavailableAt (body resourceId : String) :
    ((unavailableAt body).entry resourceId).toJson.size =
      textSize body + textSize resourceId + 150 := by
  have hkeys : textSize "resource_id" = 13 ∧ textSize "outcome" = 9 ∧
      (outcomeJson .unavailable).size = 13 ∧ textSize "provider_detail" = 17 := by decide
  have hdetail : textSize "code" = 6 ∧ textSize "http_503" = 10 ∧ textSize "message" = 9 ∧
      textSize "/address/a/txs/chain: HTTP 503" = 32 ∧ textSize "raw" = 5 ∧
      textSize "body" = 6 ∧ textSize "status" = 8 ∧ (Json.nat 503).size = 3 := by decide
  simp only [unavailableAt, FetchError.entry, StatusEntry.withDetail, status, StatusEntry.toJson,
    degradedMember, ProviderDetail.toJson, Wire.optional, List.isEmpty_nil, if_true,
    List.append_nil, List.cons_append, List.nil_append, Json.size, membersSize, List.length_cons,
    List.length_nil, hkeys, hdetail]
  omega

/-- What a provider sends that has no answer. -/
@[irreducible]
def errorPage : String := String.ofList (List.replicate 4096 'a')

/-- The page is as long as it says. -/
lemma textSize_errorPage : textSize errorPage = 4098 := by
  unfold errorPage
  exact textSize_replicate 4096

/-- A second wallet. -/
def checking : Wallet := ⟨"v", ["a"], "h", by decide⟩

/-- An adapter with both wallets. -/
def bothAdapter : Adapter := ⟨[savings, checking], "https://esplora"⟩

/-- A provider that lists one transaction for the first wallet, and has no answer for the second. -/
def bothWorld (resourceId : String) : Responses :=
  if resourceId = "w" then waiting 0 else failing errorPage

/-- A request for both wallets. -/
def bothQueries : List ResourceQuery := [⟨"w", none⟩, ⟨"v", none⟩]

/-- The turn of the first wallet. -/
def bothTurn : Except Failure Reading :=
  serveQuery quotes bothAdapter bothWorld (Reading.start (fun _ => none) bothQueries) ⟨"w", none⟩

/-- Whether a turn has put one record into the reply, and left a great deal. -/
def Roomy : Except Failure Reading → Bool
  | .error _ => false
  | .ok s => !s.abandoned && s.observations.length == 1 && decide (4000 ≤ s.budget.left)

/-- The first wallet is served a page with its transaction. -/
lemma bothTurn_spec : ∃ s, bothTurn = .ok s ∧ s.abandoned = false ∧ s.observations ≠ [] ∧
    4000 ≤ s.budget.left := by
  have heval : Roomy bothTurn = true := by decide +kernel
  unfold Roomy at heval
  split at heval
  · cases heval
  rename_i s hs
  rw [Bool.and_eq_true, Bool.and_eq_true, Bool.not_eq_true', beq_iff_eq,
    decide_eq_true_iff] at heval
  obtain ⟨⟨hgoing, hone⟩, hleft⟩ := heval
  exact ⟨s, hs, hgoing, List.ne_nil_of_length_pos (hone ▸ Nat.one_pos), hleft⟩

/-- No record of a crawl is too large. -/
def NoneDropped : Except ErrorBody (Except FetchError Crawl) → Bool
  | .ok (.ok crawl) =>
    match plan (bothAdapter.ctx savings crawl.observedAt) crawl.chain.toChain savings.owned
        none with
    | .ok p => p.items.all fun i => (dropped i).isNone
    | .error _ => true
  | _ => false

/-- There are as many turns without a byte to spare as there are turns at most. -/
lemma overrunCount_le (debug : String → String) (a : Adapter) (world : String → Responses)
    (s : Reading) (queries : List ResourceQuery) :
    overrunCount debug a world s queries ≤ queries.length := by
  induction queries generalizing s with
  | nil => exact le_rfl
  | cons q queries ih =>
    have hone : (overruns debug a world s q).toNat ≤ 1 := Bool.toNat_le _
    rw [overrunCount, List.length_cons]
    cases serveQuery debug a world s q with
    | error f =>
      simp only
      omega
    | ok s' =>
      have hmore := ih s'
      simp only
      omega

/-- What is left covers both turns of the request.

**Proof sketch.** The first query is served from a crawl that drops nothing, which is evaluated. In
the state after it, which `bothTurn_spec` describes, the second one fails, and its entry with the
evidence takes less than its reservation and what is left. -/
lemma covered_both : Covered quotes bothAdapter bothWorld
    (Reading.start (fun _ => none) bothQueries) bothQueries := by
  have hcrawl : NoneDropped (crawlFor (waiting 0) savings none none) = true := by decide +kernel
  refine ⟨⟨fun e he => ?_, fun w start crawl p hpaged hp => ?_⟩, fun s hs => ⟨⟨fun e he => ?_,
    fun w start crawl p hpaged => ?_⟩, fun _ _ => trivial⟩⟩
  · -- the first crawl is fetched, and there is no evidence
    have hnone : evidence quotes bothAdapter bothWorld
        (Reading.start (fun _ => none) bothQueries) ⟨"w", none⟩ = none := by
      have hfetched : crawlFor (bothWorld "w") savings none none =
        crawlFor (waiting 0) savings none none := rfl
      simp only [evidence, startOf, show bothAdapter.lookup "w" = some savings from rfl,
        Reading.start, Bool.false_eq_true, if_false, hfetched]
      unfold NoneDropped at hcrawl
      split at hcrawl
      · rename_i crawl heq
        rw [heq]
      · cases hcrawl
    rw [hnone] at he
    cases he
  · obtain rfl := Option.some.inj ((show bothAdapter.lookup "w" = some savings from rfl).symm.trans
      hpaged.wallet)
    obtain rfl : none = start := Except.ok.inj hpaged.cursor
    have hfetched : crawlFor (waiting 0) savings none none = .ok (.ok crawl) := hpaged.crawl
    rw [hfetched] at hcrawl
    simp only [NoneDropped, hp, List.all_eq_true, Option.isNone_iff_eq_none] at hcrawl
    exact hcrawl
  · obtain ⟨s', hs', hgoing, -, hleft⟩ := bothTurn_spec
    obtain rfl : s' = s := Except.ok.inj (hs'.symm.trans hs)
    have hevidence : evidence quotes bothAdapter bothWorld s' ⟨"v", none⟩ =
        some ((unavailableAt errorPage).entry "v") := evidence_failing checking.valid rfl rfl hgoing
    obtain rfl := Option.some.inj (hevidence.symm.trans he)
    have hreserved : statusBytes "v" = 381 ∧ textSize "v" = 3 := by decide
    rw [size_unavailableAt, textSize_errorPage, hreserved.1, hreserved.2]
    omega
  · obtain rfl := Option.some.inj ((show bothAdapter.lookup "v" = some checking from rfl).symm.trans
      hpaged.wallet)
    obtain rfl : none = start := Except.ok.inj hpaged.cursor
    have hfails := (crawlFor_failing errorPage "v" (by decide) _).symm.trans hpaged.crawl
    cases hfails

/-- A reply with a page and with a failed wallet whose evidence is more than its reservation.

**Proof sketch.** The first turn serves a page (`bothTurn_spec`), and the second one fails with
evidence beyond its reservation. The reply has both entries, and what is left covers what the second
one takes (`covered_both`), so the theorem applies. -/
theorem history_fits_both :
    ∃ reply, (historyRead quotes bothAdapter bothWorld (fun _ => none) bothQueries).2 = .ok reply ∧
      reply.observations ≠ [] ∧
      (∃ e ∈ reply.statuses, statusBytes e.resourceId < e.toJson.size) ∧
      (replyJson 1 (.ok reply)).size ≤ MAX_FRAME_BYTES ∧ writeReply 1 (.ok reply) = .ok reply := by
  obtain ⟨s, hs, hgoing, hrecords, -⟩ := bothTurn_spec
  have hlast : serveQuery quotes bothAdapter bothWorld s ⟨"v", none⟩ =
      .ok (s.push ((unavailableAt errorPage).entry "v")) :=
    serveQuery_failing checking.valid rfl rfl hgoing
  have hloop : bothQueries.foldlM (serveQuery quotes bothAdapter bothWorld)
      (Reading.start (fun _ => none) bothQueries) =
        .ok (s.push ((unavailableAt errorPage).entry "v")) :=
    foldlM_cons_eq_ok.mpr ⟨s, hs, foldlM_cons_eq_ok.mpr ⟨_, hlast, rfl⟩⟩
  have hone : noRepeats (bothQueries.map ResourceQuery.resourceId) = .ok () := rfl
  have hreply : (historyRead quotes bothAdapter bothWorld (fun _ => none) bothQueries).2 =
      .ok ⟨s.observations, s.statuses ++ [(unavailableAt errorPage).entry "v"]⟩ := by
    rw [historyRead, hone, hloop]
    rfl
  refine ⟨_, hreply, hrecords, ⟨(unavailableAt errorPage).entry "v", by simp, ?_⟩, ?_⟩
  · have hreserved : statusBytes "v" = 381 ∧ textSize "v" = 3 := by decide
    show statusBytes "v" < _
    rw [size_unavailableAt, textSize_errorPage, hreserved.1, hreserved.2]
    decide
  · exact history_fits quotes bothAdapter bothWorld (fun _ => none) bothQueries 1 (by decide)
      covered_both ((overrunCount_le _ _ _ _ _).trans (by decide)) _ hreply

/-- A resource whose name leaves 303 bytes of the budget, beside a wallet. -/
@[irreducible]
def wideName : String := String.ofList (List.replicate 1047000 'a')

/-- A request for both. -/
def wideQueries : List ResourceQuery := [⟨"w", none⟩, ⟨wideName, none⟩]

/-- The request is answered, its reservations fit, and its reply does not.

**Proof sketch.** The first query fails with 4096 bytes of evidence, the second names a resource
that is not configured, in about a million bytes. The reservations of both fit the budget, but the
entry with the evidence is larger than its reservation and what is left; the reply with both
entries, counted in bytes, is over the limit of a frame. -/
lemma overflow_spec :
    ∃ reply, (historyRead quotes savingsAdapter (fun _ => failing errorPage) (fun _ => none)
        wideQueries).2 = .ok reply ∧
      (wideQueries.map fun q => statusBytes q.resourceId).sum ≤ Budget.new.left ∧
      MAX_FRAME_BYTES < (replyJson 1 (.ok reply)).size := by
  have hwide : textSize wideName = 1047002 := by
    unfold wideName
    exact textSize_replicate 1047000
  have hne : wideName ≠ "w" := fun h => by
    rw [h] at hwide
    exact absurd hwide (by decide)
  have hlookup : savingsAdapter.lookup wideName = none := by
    simp [Adapter.lookup, savingsAdapter, savings, hne.symm]
  have hnodup : noRepeats (wideQueries.map ResourceQuery.resourceId) = .ok () := by
    simp [noRepeats, wideQueries, hne.symm]
  obtain ⟨b, hstart⟩ : ∃ b, Reading.start (fun _ => none) wideQueries =
      ⟨fun _ => none, [], [], false, b⟩ := ⟨_, rfl⟩
  have hfirst : serveQuery quotes savingsAdapter (fun _ => failing errorPage)
      ⟨fun _ => none, [], [], false, b⟩ ⟨"w", none⟩ =
        .ok (Reading.push ⟨fun _ => none, [], [], false, b⟩
          ((unavailableAt errorPage).entry "w")) :=
    serveQuery_failing savings.valid lookup_savings rfl rfl
  have hloop : wideQueries.foldlM
      (serveQuery quotes savingsAdapter (fun _ => failing errorPage))
        ⟨fun _ => none, [], [], false, b⟩ =
      .ok ((Reading.push ⟨fun _ => none, [], [], false, b⟩
        ((unavailableAt errorPage).entry "w")).push (unknownResource wideName)) :=
    foldlM_cons_eq_ok.mpr ⟨_, hfirst, foldlM_cons_eq_ok.mpr ⟨_, serveQuery_unknown hlookup, rfl⟩⟩
  have hsize : MAX_FRAME_BYTES < (replyJson 1
      (.ok ⟨[], [(unavailableAt errorPage).entry "w", unknownResource wideName]⟩)).size := by
    rw [size_replyJson, size_unavailableAt, hwide, textSize_errorPage, MAX_FRAME_BYTES]
    omega
  refine ⟨⟨[], [(unavailableAt errorPage).entry "w", unknownResource wideName]⟩, ?_, ?_, hsize⟩
  · rw [historyRead, hnodup, hstart, hloop]
    rfl
  · have hw : statusBytes "w" = 381 := by decide
    have hwide' : statusBytes wideName = 1047380 := by
      rw [statusBytes, size_fetched, hwide, PAGE_REPLY_BYTES]
    simp only [wideQueries, List.map_cons, List.map_nil, List.sum_cons, List.sum_nil, hw, hwide']
    decide

/-- **Evidence that the budget does not cover.** The entries of two resources fit, and the failure
of one of them has a body of 4 KiB: the reply does not fit, and no resource is answered. -/
theorem history_overflows :
    ∃ reply, (historyRead quotes savingsAdapter (fun _ => failing errorPage) (fun _ => none)
        wideQueries).2 = .ok reply ∧
      (wideQueries.map fun q => statusBytes q.resourceId).sum ≤ Budget.new.left ∧
      MAX_FRAME_BYTES < (replyJson 1 (.ok reply)).size ∧
      ∃ e, writeReply 1 (.ok reply) = .error e := by
  obtain ⟨reply, hreply, hreserved, hsize⟩ := overflow_spec
  refine ⟨reply, hreply, hreserved, hsize, ?_⟩
  rw [writeReply, if_pos hsize]
  exact ⟨_, rfl⟩

/-- The ledger of that request: nothing is left for the evidence of the failed wallet, and what is
unpaid of it is more than there is to spare. -/
theorem reply_fits_iff_overflow :
    let lines := ledgerOf quotes savingsAdapter (fun _ => failing errorPage) (fun _ => none)
      wideQueries
    spare lines < envelopeBytes 1 + (wideQueries.length - 1) + (lines.map Line.unpaid).sum := by
  obtain ⟨reply, hreply, hreserved, hsize⟩ := overflow_spec
  have hiff := reply_fits_iff quotes savingsAdapter (fun _ => failing errorPage) (fun _ => none)
    wideQueries 1 hreserved reply hreply
  exact not_le.mp fun hfits => absurd (hiff.mpr hfits).1 (not_le.mpr hsize)

end Example

end Sumer.Bitcoin
