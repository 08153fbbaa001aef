import Sumer.Bitcoin.FrameFit
import Sumer.Host.Replies

set_option relaxedAutoImplicit false
set_option autoImplicit false

/-!
# What the host reads of a reply

A `history.read` reply of this adapter is read by the host as it was made: the frame decodes to the
observations and status entries that the loop put into it, every requested resource has its one
status, no observation is too large, and each is stamped with the receipt time and as live or
unavailable by its own entry.

## Main definitions

* `Sumer.Bitcoin.StatusEntry.received`: what the host has of a status entry.

## Main results

* `Sumer.Bitcoin.StatusEntry.decode_toJson`: a status entry is read back.
* `Sumer.Bitcoin.readable_of_loop`: the wire reads every row of a reply.
* `Sumer.Bitcoin.historyRead_received`: the host accepts what the loop makes.
-/

namespace Sumer.Bitcoin

open Sumer.Wire Sumer.Host Sumer.Money

/-- What the host has of a status entry: its evidence is not read. -/
def StatusEntry.received (e : StatusEntry) : ResourceStatus where
  resourceId := e.resourceId
  outcome := e.outcome
  degraded := e.degraded
  page := e.page.map PageReply.toPageReply
  historyStart := none

/-! ### Status entries -/

section Entries

/-- A list is read back item by item. -/
lemma sequence_map {α β : Type} (toJson : α → Json) {decode : Json → Except DecodeError β}
    (f : α → β) {l : List α} (h : ∀ x ∈ l, decode (toJson x) = .ok (f x)) :
    sequence decode (.arr (l.map toJson)) = .ok (l.map f) := by
  show (l.map toJson).mapM decode = _
  induction l with
  | nil => rfl
  | cons x l ih =>
    rw [List.map_cons, List.mapM_cons, h x List.mem_cons_self,
      ih fun y hy => h y (List.mem_cons_of_mem _ hy)]
    rfl

/-- An omitted record is read back with its local id, if its size is a number of 64 bits. -/
lemma decode_degradedJson {d : Degraded} (h : d.bytes < 2 ^ 64) :
    Degraded.decode (degradedJson d) = .ok d := by
  have hmembers (expecting : String) : object expecting ["local_id", "bytes"] (degradedJson d) =
      .ok (optional "local_id" Json.str d.localId ++ [("bytes", Json.nat d.bytes)]) := by
    refine object_of_sublist ?_ (by decide)
    simp only [List.map_append]
    exact (map_fst_optional _).append (.refl _)
  simp only [Degraded.decode, except_bind_eq_ok]
  exact ⟨_, hmembers _, _, omittable_string (by simp), _,
    required_eq (by simp) (unsigned_nat h), rfl⟩

/-- A page request is read back.

**Proof sketch.** By the kind of the request. The members of each are exactly those its decoder
allows, and each is read back; the asset of a window is written only if there is one. -/
lemma decode_pageRequestJson (p : PageRequest) :
    PageRequest.decode (pageRequestJson p) = .ok p := by
  cases p with
  | cursor cursor =>
    have hmembers : object "a page request" ["cursor"] (.obj [("cursor", .str cursor)]) =
        .ok [("cursor", .str cursor)] := object_of_sublist (.refl _) (by decide)
    simp [pageRequestJson, PageRequest.decode, hmembers, string, required, bind, Except.bind, pure,
      Except.pure]
  | window resourceId asset start stop =>
    have hasset : omittable (("resource_id", Json.str resourceId) ::
        (optional "asset" (fun a : AssetId => Json.str a.text) asset ++
          [("start", timestampJson start), ("end", timestampJson stop)])) "asset" decodeAssetId =
        .ok asset := by
      refine omittable_eq (fun a : AssetId => Json.str a.text) (by simp)
        fun a _ => ⟨Json.noConfusion, ?_⟩
      show (AssetId.new a.text).mapError _ = _
      rw [AssetId.new_text]
      rfl
    have hmembers : object "a page request" ["resource_id", "asset", "start", "end"]
        (.obj (("resource_id", .str resourceId) ::
          (optional "asset" (fun a : AssetId => Json.str a.text) asset ++
            [("start", timestampJson start), ("end", timestampJson stop)]))) =
        .ok (("resource_id", .str resourceId) ::
          (optional "asset" (fun a : AssetId => Json.str a.text) asset ++
            [("start", timestampJson start), ("end", timestampJson stop)])) := by
      refine object_of_sublist ?_ (by decide)
      simp only [List.map_append, List.map_cons]
      exact ((map_fst_optional _).append (.refl _)).cons_cons _
    have hkind : (optional "asset" (fun a : AssetId => Json.str a.text) asset).filter
        (fun m => m.1 == "kind") = [] := by
      cases asset <;> rfl
    have hrest : (optional "asset" (fun a : AssetId => Json.str a.text) asset).filter
        (fun m => m.1 != "kind") = optional "asset" (fun a : AssetId => Json.str a.text) asset := by
      cases asset <;> rfl
    simp [pageRequestJson, PageRequest.decode, hmembers, hasset, hkind, hrest, string, required,
      decodeTimestamp_timestampJson, bind, Except.bind, pure, Except.pure]

/-- An outcome that the adapter writes is read back by the host, as long as the delay of a rate
limit is a number of 64 bits. -/
lemma decode_outcomeJson {o : ReadOutcome} (h : ∀ ms, o = .rateLimited ms → ms < 2 ^ 64) :
    ReadOutcome.decode (outcomeJson o) = .ok o := by
  cases o with
  | fetched pageEmpty => rfl
  | stale asOf =>
    have hmembers : object "a `stale` body: an object" ["as_of"]
        (.obj [("as_of", timestampJson asOf)]) = .ok [("as_of", timestampJson asOf)] :=
      object_of_sublist (.refl _) (by decide)
    simp [outcomeJson, ReadOutcome.decode, outcomeBody, hmembers, required,
      decodeTimestamp_timestampJson, bind, Except.bind, pure, Except.pure]
  | rateLimited ms =>
    have hmembers : object "a `rate_limited` body: an object" ["retry_after_ms"]
        (.obj [("retry_after_ms", Json.nat ms)]) = .ok [("retry_after_ms", Json.nat ms)] :=
      object_of_sublist (.refl _) (by decide)
    simp [outcomeJson, ReadOutcome.decode, outcomeBody, hmembers, required, unsigned_nat (h ms rfl),
      bind, Except.bind, pure, Except.pure]
  | notFetched | unavailable | reauthRequired | revoked | gone | scaRequired => rfl

/-- A page reply is read back, if the page size it may name is a number of 32 bits.

**Proof sketch.** The members are among those that the host knows. The spelling is read back, the
next page is read back or missing, and the two marks about the size of the page are checked and
dropped. -/
lemma PageReply.decode_toJson {p : PageReply}
    (h : ∀ n, p.pageSizeReducedTo = some n → n < 2 ^ 32) :
    Wire.PageReply.decode p.toJson = .ok p.toPageReply := by
  have hmembers (expecting : String) : object expecting pageReplyFields p.toJson =
      .ok ([("cursor_resumable", .str (resumableSpelling p.cursorResumable))] ++
        optional "next" pageRequestJson p.next ++
        optional "page_size_reduced_to" Json.nat p.pageSizeReducedTo) := by
    refine object_of_sublist ?_ (by decide)
    simp only [List.map_append]
    exact ((List.Sublist.refl _).append (map_fst_optional _)).append
      ((map_fst_optional _).cons _)
  have hresumable : CursorResumable.decode (.str (resumableSpelling p.cursorResumable)) =
      .ok p.cursorResumable := by
    cases p.cursorResumable <;> rfl
  simp only [Wire.PageReply.decode, except_bind_eq_ok]
  refine ⟨_, hmembers _, _, required_eq (by simp) hresumable, p.next,
    omittable_eq pageRequestJson (by simp) fun next _ => ⟨?_, decode_pageRequestJson next⟩,
    none, ?_, p.pageSizeReducedTo,
    omittable_eq Json.nat (by simp) fun n hn => ⟨?_, unsigned_nat (h n hn)⟩, rfl⟩
  · cases next <;> exact Json.noConfusion
  · exact omittable_timestamp (by simp)
  · exact Json.noConfusion

/-- The host accepts the evidence of a provider as the adapter writes it, whatever is in it; it
keeps nothing of it. -/
lemma decode_providerDetail (d : ProviderDetail) : decodeProviderDetail d.toJson = .ok () := by
  have hmembers (expecting : String) : object expecting ["code", "message", "raw"] d.toJson =
      .ok [("code", .str d.code), ("message", .str d.message), ("raw", d.raw)] :=
    object_of_sublist (.refl _) (by decide)
  simp only [decodeProviderDetail, except_bind_eq_ok]
  refine ⟨_, hmembers _, _, required_eq (by simp) (string_str d.code), _,
    required_eq (by simp) (string_str d.message), d.raw, ?_, rfl⟩
  exact required_eq_ok.mpr ⟨d.raw, by simp, rfl⟩

/-- What the numbers of a status entry must satisfy. -/
structure StatusEntry.Fits (e : StatusEntry) : Prop where
  retryAfter : ∀ ms, e.outcome = .rateLimited ms → ms < 2 ^ 64
  degraded : ∀ d ∈ e.degraded, d.bytes < 2 ^ 64
  pageSize : ∀ p n, e.page = some p → p.pageSizeReducedTo = some n → n < 2 ^ 32

/-- **A status entry is read back.**

**Proof sketch.** The members of an entry are among those that the host knows, in its order, and
each is decoded on its own. Those that may be left out are: the list of degraded records is written
only when there is one, and read as empty otherwise; the optional ones are read as missing when they
were not written, and as themselves when they were. -/
lemma StatusEntry.decode_toJson {e : StatusEntry} (h : e.Fits) :
    ResourceStatus.decode e.toJson = .ok e.received := by
  have hdegradedKeys : ((degradedMember e.degraded).map Prod.fst).Sublist ["degraded"] := by
    rw [degradedMember]
    split_ifs
    · exact List.nil_sublist _
    · exact .refl _
  have hmembers (expecting : String) : object expecting statusFields e.toJson =
      .ok ([("resource_id", .str e.resourceId), ("outcome", outcomeJson e.outcome)] ++
        degradedMember e.degraded ++
        optional "provider_detail" ProviderDetail.toJson e.providerDetail ++
        optional "page" PageReply.toJson e.page) := by
    refine object_of_sublist ?_ (by decide)
    simp only [List.map_append]
    exact (((((List.Sublist.refl _).append hdegradedKeys).append (map_fst_optional _)).append
      (map_fst_optional _)).trans (List.sublist_append_left _ _))
  have hdegraded : sequence Degraded.decode (.arr (e.degraded.map degradedJson)) =
      .ok e.degraded := by
    rw [sequence_map degradedJson id fun d hd => decode_degradedJson (h.degraded d hd), List.map_id]
  have hlookup : (degradedMember e.degraded).lookup "degraded" =
      if e.degraded = [] then none else some (.arr (e.degraded.map degradedJson)) := by
    cases hnil : e.degraded <;> simp [degradedMember]
  have hother (key : String) (hne : key ≠ "degraded") :
      (degradedMember e.degraded).lookup key = none := by
    cases hnil : e.degraded <;> simp [degradedMember, hne]
  simp only [ResourceStatus.decode, except_bind_eq_ok]
  refine ⟨_, hmembers _, _, required_eq (by simp) (string_str e.resourceId), _,
    required_eq (by simp) (decode_outcomeJson h.retryAfter), e.degraded, ?_,
    e.providerDetail.map fun _ => (), ?_, e.page.map PageReply.toPageReply, ?_, none, ?_, none, ?_,
    none, ?_, rfl⟩
  · refine defaulted_eq_ok.mpr ?_
    by_cases hnil : e.degraded = []
    · exact .inl ⟨by simp [hlookup, if_pos hnil], hnil⟩
    · exact .inr ⟨_, by simp [hlookup, hnil], hdegraded⟩
  · exact omittable_map ProviderDetail.toJson (fun _ => ()) (by simp [hother])
      fun d _ => ⟨Json.noConfusion, decode_providerDetail d⟩
  · exact omittable_map PageReply.toJson PageReply.toPageReply (by simp [hother])
      fun p hp => ⟨Json.noConfusion, PageReply.decode_toJson fun n hn => h.pageSize p n hp hn⟩
  · exact omittable_timestamp (by simp [hother])
  · exact omittable_timestamp (by simp [hother])
  · exact omittable_timestamp (by simp [hother])

end Entries

/-! ### Observations -/

section Observations

/-- A character of a plain text. -/
def IsPlain (ch : Char) : Prop := 32 ≤ ch.toNat ∧ ch.toNat < 127 ∧ ch ≠ '<' ∧ ch ≠ '>'

/-- Whether a character is plain is decided as `validate_plain_text` decides it. -/
instance : DecidablePred IsPlain := fun ch =>
  inferInstanceAs (Decidable (32 ≤ ch.toNat ∧ ch.toNat < 127 ∧ ch ≠ '<' ∧ ch ≠ '>'))

/-- A text of plain characters is plain text.

**Proof sketch.** A plain character is ASCII, so it is one byte, and that byte is neither a control
character nor one of the two brackets. -/
lemma validatePlainText_of_forall {s : String} (h : ∀ ch ∈ s.toList, IsPlain ch) :
    validatePlainText s = .ok () := by
  have hbytes : asBytes s = s.toList.map ascii := by
    have hascii : ∀ ch ∈ s.toList, ch.toNat < 128 := fun ch hch => by
      have := (h ch hch).2.1
      omega
    have hlist := asBytes_ofList hascii
    rwa [String.ofList_toList] at hlist
  have hnone : (asBytes s).findIdx? plainTextFault = none := by
    rw [List.findIdx?_eq_none_iff, hbytes]
    intro b hb
    obtain ⟨ch, hch, rfl⟩ := List.mem_map.mp hb
    obtain ⟨hlow, hhigh, hless, hmore⟩ := h ch hch
    have hcode : (ascii ch).toNat = ch.toNat := toNat_ascii (by omega)
    have hne (c : Char) (hc : c.toNat < 128) (hne : ch ≠ c) : ascii ch ≠ ascii c := fun heq =>
      hne (ascii_inj (by omega) hc heq)
    have hfault : plainTextFault (ascii ch) = false := by
      have hcontrol : ¬ ascii ch < 0x20 := by
        rw [UInt8.lt_iff_toNat_lt, hcode]
        exact not_lt.mpr hlow
      have hdelete : ascii ch ≠ 0x7F := fun heq => by
        rw [heq] at hcode
        exact absurd hcode (ne_of_gt hhigh)
      simp [plainTextFault, hcontrol, hdelete, hne '<' (by decide) hless,
        hne '>' (by decide) hmore]
    simp [hfault]
  rw [validatePlainText, hnone]

/-- The digits of a number are plain. -/
lemma isPlain_of_isDigit {ch : Char} (h : ch.isDigit = true) : IsPlain ch := by
  obtain ⟨hlow, hhigh⟩ := Digits.isDigit_iff.mp h
  refine ⟨by omega, by omega, ?_, ?_⟩
  · rintro rfl
    exact absurd h (by decide)
  · rintro rfl
    exact absurd h (by decide)

/-- **Every description is plain text**: the sentences that the adapter makes of an amount have
neither control characters nor angle brackets.

**Proof sketch.** A description is a fixed word, a number and a unit. The characters of the words
are checked one by one, and those of the number are digits. -/
lemma plain_describe (delta : ℤ) : validatePlainText (describe delta) = .ok () := by
  have hnumber (n : ℕ) (before after : String) (hbefore : ∀ ch ∈ before.toList, IsPlain ch)
      (hafter : ∀ ch ∈ after.toList, IsPlain ch) :
      validatePlainText (before ++ toString n ++ after) = .ok () := by
    refine validatePlainText_of_forall fun ch hch => ?_
    rw [String.toList_append, String.toList_append, List.mem_append, List.mem_append] at hch
    rcases hch with (hch | hch) | hch
    · exact hbefore ch hch
    · refine isPlain_of_isDigit ?_
      have hlist : (toString n).toList = Nat.toDigits 10 n := Nat.toList_repr
      rw [hlist] at hch
      exact Nat.isDigit_of_mem_toDigits (by decide) le_rfl hch
    · exact hafter ch hch
  have hfixed {s : String} (hs : s.toList.Forall IsPlain) : ∀ ch ∈ s.toList, IsPlain ch :=
    List.forall_iff_forall_mem.mp hs
  rw [describe]
  split_ifs with hpos hneg
  · obtain ⟨n, rfl⟩ := Int.eq_ofNat_of_zero_le hpos.le
    exact hnumber n "received " " sat" (hfixed (by decide)) (hfixed (by decide))
  · exact hnumber delta.natAbs "sent " " sat" (hfixed (by decide)) (hfixed (by decide))
  · exact validatePlainText_of_forall (hfixed (by decide))

/-- The evidence beside a transaction is a map. -/
lemma isMap_extra (tx : Tx) : IsMap tx.extra := by
  have hvalues : memberValues tx.extra = tx.extra := by
    rw [Tx.extra]
    cases tx.status.blockHash <;> cases tx.height <;> rfl
  rw [IsMap, hvalues]
  refine Record.toMap_of_pairwise ?_
  rw [Tx.extra]
  have horder : "block_hash" < "block_height" ∧ "block_hash" < "confirmed" ∧
      "block_height" < "confirmed" := by
    simp only [String.lt_iff_toList_lt]
    decide
  obtain ⟨hheight, hhash, hconfirmed⟩ := horder
  cases tx.status.blockHash <;> cases tx.height
  · exact List.pairwise_singleton _ _
  · simpa [Wire.optional] using hconfirmed
  · simpa [Wire.optional] using hhash
  · simpa [Wire.optional] using And.intro (And.intro hheight hhash) hconfirmed

/-- What is left of the evidence of a record that was too large is a map. -/
lemma isMap_truncated (o : ObservationWire) : IsMap (truncated o).providerExtra := by
  have horder : "_original_bytes" < "_truncated" := by
    rw [String.lt_iff_toList_lt]
    decide
  have hvalues : memberValues (truncated o).providerExtra = (truncated o).providerExtra := rfl
  rw [IsMap, hvalues]
  exact Record.toMap_of_pairwise (by simpa [truncated] using horder)

/-- The fields of an observation that the host checks, and its evidence. -/
lemma active_fields {ctx : Ctx} {owned : List String} {tx : Tx} {o : ObservationWire}
    (h : active ctx tx owned = .ok o) : o.description = describe (netDelta tx owned) ∧
      o.providerExtra = tx.extra ∧ o.provenance.adapterId = ctx.adapterId ∧
      o.resourceId = ctx.resourceId ∧ o.localId = localId ctx.resourceId tx.txid ∧
      o.state = .active := by
  unfold active at h
  dsimp only at h
  split at h
  · cases h
  · split at h
    · cases h
    · split at h
      · cases h
      · cases h
        exact ⟨rfl, rfl, rfl, rfl, rfl, rfl⟩

/-- **What the adapter writes of a transaction** is read back. -/
lemma decode_active {ctx : Ctx} {owned : List String} {tx : Tx} {o o' : ObservationWire}
    (h : active ctx tx owned = .ok o) (hdegrade : degrade o = .ok o') :
    ObservationWire.decode o'.toJson = .ok o' ∧ o'.provenance.adapterId = ctx.adapterId ∧
      o'.resourceId = ctx.resourceId := by
  obtain ⟨hdescription, hextra, hadapter, hresource, -⟩ := active_fields h
  have hplain : validatePlainText o.description = .ok () := hdescription ▸ plain_describe _
  rw [degrade_eq_ok hdegrade]
  split_ifs
  · exact ⟨((truncated o).decode_toJson (isMap_truncated o)).mpr hplain, hadapter, hresource⟩
  · exact ⟨(o.decode_toJson (hextra ▸ isMap_extra tx)).mpr hplain, hadapter, hresource⟩

end Observations

/-! ### The loop -/

section Loop

variable {debug : String → String} {a : Adapter} {world : String → Responses} {crawls : Crawls}
  {s s' : Reading} {q : ResourceQuery} {queries : List ResourceQuery}

/-- What the loop has made that the host can read: every observation, as one of the adapter's own
and of a resource that was fetched, and every entry. -/
structure Reading.Readable (s : Reading) : Prop where
  decode : ∀ o ∈ s.observations, ObservationWire.decode o.toJson = .ok o
  bytes : ∀ o ∈ s.observations, o.bytes ≤ MAX_OBSERVATION_BYTES
  own : ∀ o ∈ s.observations, o.provenance.adapterId = "sumer-bitcoin"
  fetched : ∀ o ∈ s.observations, ∃ e ∈ s.statuses, e.resourceId = o.resourceId ∧
    ∃ pageEmpty, e.outcome = .fetched pageEmpty
  retryAfter : ∀ e ∈ s.statuses, ∀ ms, e.outcome = .rateLimited ms → ms < 2 ^ 64
  pageSize : ∀ e ∈ s.statuses, ∀ p n, e.page = some p → p.pageSizeReducedTo = some n → n < 2 ^ 32

/-- An entry without a page keeps the reading readable, if the delay of its rate limit, should it be
one, is a number of 64 bits. -/
lemma Reading.Readable.push (h : s.Readable) {e : StatusEntry} (hpage : e.page = none)
    (hretry : ∀ ms, e.outcome = .rateLimited ms → ms < 2 ^ 64) : (s.push e).Readable where
  decode := h.decode
  bytes := h.bytes
  own := h.own
  fetched o ho := by
    obtain ⟨e', he', hfetched⟩ := h.fetched o ho
    exact ⟨e', List.mem_append_left _ he', hfetched⟩
  retryAfter e' he' := by
    rcases List.mem_append.mp he' with he' | he'
    · exact h.retryAfter e' he'
    · rw [List.mem_singleton.mp he']
      exact hretry
  pageSize e' he' p n hp := by
    rcases List.mem_append.mp he' with he' | he'
    · exact h.pageSize e' he' p n hp
    · rw [List.mem_singleton.mp he', hpage] at hp
      cases hp

/-- An observation of a page is a transaction's, or what is left of it.

**Proof sketch.** An observation of the page is that of an item which was kept, and an item of the
plan was made from a transaction of the snapshot. -/
lemma exists_active_of_pageOf {w : Wallet} {crawl : Crawl} {start : Option Cursor} {budget : ℕ}
    {page : Page} (h : a.pageOf w crawl start budget = .ok page) {o : ObservationWire}
    (ho : o ∈ page.observations) :
    ∃ tx whole, active (a.ctx w crawl.observedAt) tx w.owned = .ok whole ∧
      degrade whole = .ok o ∧ o.bytes ≤ MAX_OBSERVATION_BYTES := by
  unfold Adapter.pageOf at h
  split at h
  · cases h
  rename_i p hp
  cases h
  obtain ⟨taken, rest, hitems, hobs, -⟩ := cutPage_spec p start budget
  rw [hobs] at ho
  obtain ⟨i, hi, hkept⟩ := List.mem_filterMap.mp ho
  obtain ⟨tx, -, hactive, -⟩ := mem_plan hp (hitems ▸ List.mem_append_left _ hi)
  have hdegrade : degrade i.2 = .ok o := by
    unfold kept at hkept
    cases hdegrade : degrade i.2 with
    | error d => simp [hdegrade, Except.toOption] at hkept
    | ok o' =>
      rw [hdegrade] at hkept
      cases hkept
      rfl
  exact ⟨tx, i.2, hactive, hdegrade, bytes_le_of_kept hkept⟩

/-- Every observation of a page is read back by the host as it was written, is within the size of a
record, is the adapter's own and is of the resource of its wallet. -/
lemma decode_pageOf {w : Wallet} {crawl : Crawl} {start : Option Cursor} {budget : ℕ} {page : Page}
    (h : a.pageOf w crawl start budget = .ok page) {o : ObservationWire}
    (ho : o ∈ page.observations) : ObservationWire.decode o.toJson = .ok o ∧
      o.bytes ≤ MAX_OBSERVATION_BYTES ∧ o.provenance.adapterId = "sumer-bitcoin" ∧
      o.resourceId = w.resourceId := by
  obtain ⟨tx, whole, hactive, hdegrade, hbytes⟩ := exists_active_of_pageOf h ho
  obtain ⟨hdecode, hown, hresource⟩ := decode_active hactive hdegrade
  exact ⟨hdecode, hbytes, hown, hresource⟩

/-- A page.

**Proof sketch.** The observations of the page come after those before it. Each new one is read back
as it was written, is small enough, is the adapter's own and is of the resource of the query
(`decode_pageOf`), and the entry of the page says that this resource was fetched. The page size that
may be named is one of 32 bits. -/
lemma Reading.Readable.paged (h : s.Readable) {w : Wallet} {crawl : Crawl} {start : Option Cursor}
    {page : Page} (hpaged : Paged debug a world s q w start crawl)
    (hpage : a.pageOf w crawl start (s.pageBudget q) = .ok page) :
    (s.paged q crawl page).Readable := by
  have hid := lookup_eq_some hpaged.wallet
  have hnew {o : ObservationWire} (ho : o ∈ page.observations) := decode_pageOf hpage ho
  have hold {o : ObservationWire} (ho : o ∈ (s.paged q crawl page).observations) :
      o ∈ s.observations ∨ o ∈ page.observations := List.mem_append.mp ho
  have hentry {e : StatusEntry} (he : e ∈ (s.paged q crawl page).statuses) :
      e ∈ s.statuses ∨ e = page.entry q.resourceId :=
    (List.mem_append.mp he).imp id List.mem_singleton.mp
  have hlast : page.entry q.resourceId ∈ (s.paged q crawl page).statuses :=
    List.mem_append_right _ (List.mem_singleton_self _)
  have hreduced : ∀ n, page.pageSizeReducedTo = some n → n < 2 ^ 32 := by
    intro n hn
    unfold Adapter.pageOf at hpage
    split at hpage
    · cases hpage
    cases hpage
    simp only [cutPage] at hn
    split_ifs at hn
    obtain rfl := Option.some.inj hn
    exact lt_of_le_of_lt (min_le_right _ _) (by decide)
  constructor
  · exact fun o ho => (hold ho).elim (h.decode o) fun ho => (hnew ho).1
  · exact fun o ho => (hold ho).elim (h.bytes o) fun ho => (hnew ho).2.1
  · exact fun o ho => (hold ho).elim (h.own o) fun ho => (hnew ho).2.2.1
  · intro o ho
    rcases hold ho with ho | ho
    · obtain ⟨e, he, hfetched⟩ := h.fetched o ho
      exact ⟨e, List.mem_append_left _ he, hfetched⟩
    · exact ⟨_, hlast, hid.symm.trans (hnew ho).2.2.2.symm, _, rfl⟩
  · intro e he ms hms
    rcases hentry he with he | rfl
    · exact h.retryAfter e he ms hms
    · cases hms
  · intro e he p n hp hn
    rcases hentry he with he | rfl
    · exact h.pageSize e he p n hp hn
    · obtain rfl := Option.some.inj hp
      exact hreduced n hn

/-- **One turn** leaves what the host can read.

**Proof sketch.** By the branches of the turn. An entry without a page is one that the host reads,
with or without evidence; the number of milliseconds of a rate limit is one of 64 bits. A page is
the case above. -/
lemma Reading.Readable.serveQuery (h : s.Readable) (hs : serveQuery debug a world s q = .ok s') :
    s'.Readable := by
  unfold Bitcoin.serveQuery at hs
  split at hs
  · cases hs
  rename_i start hstart
  split at hs
  · cases hs
    exact h.push rfl fun ms hms => by cases hms
  rename_i w hw
  split_ifs at hs with habandoned
  · cases hs
    exact h.push rfl fun ms hms => by cases hms
  split at hs
  · cases hs
  · rename_i ms detail hcrawl
    cases hs
    have hpush := h.push (e := (status q.resourceId (.rateLimited ms.val)).withDetail detail) rfl
      fun ms' hms => by
        cases hms
        exact ms.isLt
    exact ⟨hpush.decode, hpush.bytes, hpush.own, hpush.fetched, hpush.retryAfter, hpush.pageSize⟩
  · cases hs
    exact h.push rfl fun ms hms => by cases hms
  · rename_i crawl hcrawl
    dsimp only at hs
    split at hs
    · cases hs
    rename_i page hpage
    cases hs
    exact h.paged ⟨hstart, hw, by simpa using habandoned, hcrawl⟩ hpage

/-- **The loop** leaves what the host can read. -/
lemma readable_of_loop (hs : queries.foldlM (serveQuery debug a world)
    (Reading.start crawls queries) = .ok s) : s.Readable := by
  refine foldlM_invariant (P := Reading.Readable)
    (fun t q t' _ ht hstep => ht.serveQuery hstep) ?_ hs
  constructor <;> simp [Reading.start]

end Loop

/-! ### From the frame on -/

section Frame

variable {debug : String → String} {a : Adapter} {world : String → Responses} {crawls : Crawls}
  {queries : List ResourceQuery} {reply : HistoryReply} {texts : Texts}

/-- What the host has of a reply. -/
def HistoryReply.received (r : HistoryReply) : Host.HistoryReply :=
  ⟨r.observations, r.statuses.map StatusEntry.received⟩

/-- A reply is read back when each of its observations and each of its entries is: the host takes
the two lists item by item. -/
lemma HistoryReply.decode_toJson (r : HistoryReply)
    (hobs : ∀ o ∈ r.observations, ObservationWire.decode o.toJson = .ok o)
    (hstatuses : ∀ e ∈ r.statuses, e.Fits) :
    Host.HistoryReply.decode r.toJson = .ok r.received := by
  have hmembers (expecting : String) :
      object expecting ["observations", "statuses"] r.toJson =
        .ok [("observations", .arr (r.observations.map ObservationWire.toJson)),
          ("statuses", .arr (r.statuses.map StatusEntry.toJson))] :=
    object_of_sublist (.refl _) (by decide)
  have hobservations : sequence ObservationWire.decode
      (.arr (r.observations.map ObservationWire.toJson)) = .ok r.observations := by
    rw [sequence_map ObservationWire.toJson id hobs, List.map_id]
  have hentries : sequence ResourceStatus.decode (.arr (r.statuses.map StatusEntry.toJson)) =
      .ok (r.statuses.map StatusEntry.received) :=
    sequence_map StatusEntry.toJson StatusEntry.received fun e he =>
      StatusEntry.decode_toJson (hstatuses e he)
  simp only [Host.HistoryReply.decode, except_bind_eq_ok]
  exact ⟨_, hmembers _, _, required_eq (by simp) hobservations, _, required_eq (by simp) hentries,
    rfl⟩

/-- An error is read back with its code and its message; the host does not look at the detail. -/
lemma ErrorBody.decode_toJson (e : ErrorBody) :
    Host.ErrorBody.decode e.toJson = .ok ⟨e.code, e.message⟩ := by
  have hmembers (expecting : String) : object expecting ["code", "message", "detail"] e.toJson =
      .ok ([("code", .str (codeSpelling e.code)), ("message", .str e.message)] ++
        Wire.optional "detail" id e.detail) := by
    refine object_of_sublist ?_ (by decide)
    simp only [List.map_append]
    exact (List.Sublist.refl _).append (map_fst_optional _)
  have hcode : WireErrorCode.decode (.str (codeSpelling e.code)) = .ok e.code := by
    cases e.code <;> rfl
  simp only [Host.ErrorBody.decode, except_bind_eq_ok]
  exact ⟨_, hmembers _, _, required_eq (by simp) hcode, _,
    required_eq (by simp) (string_str e.message), rfl⟩

/-- Where every record is within the size, nothing is dropped and no status is changed. -/
lemma dropOversized_of_le {T : Type} {bytes : T → ℕ} {measure : T → Bool}
    {key : T → String × Option String} {os : List T}
    (h : ∀ o ∈ os, bytes o ≤ MAX_OBSERVATION_BYTES) (statuses : List ResourceStatus) :
    dropOversized bytes measure key os statuses = (os, statuses) := by
  induction os with
  | nil => rfl
  | cons o os ih =>
    have hfits : decide (bytes o ≤ MAX_OBSERVATION_BYTES) = true :=
      decide_eq_true (h o List.mem_cons_self)
    rw [dropOversized, hfits, Bool.or_true, if_pos rfl,
      ih fun x hx => h x (List.mem_cons_of_mem _ hx)]

/-- What the loop has made when a reply goes out. -/
lemma exists_loop (hreply : (historyRead debug a world crawls queries).2 = .ok reply) :
    (queries.map ResourceQuery.resourceId).Nodup ∧
      ∃ s, queries.foldlM (serveQuery debug a world) (Reading.start crawls queries) = .ok s ∧
        reply = ⟨s.observations, s.statuses⟩ := by
  unfold historyRead noRepeats at hreply
  split_ifs at hreply with hnodup
  · dsimp only at hreply
    split at hreply
    · cases hreply
    rename_i s hs
    cases hreply
    exact ⟨hnodup, s, hs, rfl⟩

/-- Under the one entry that a resource has, what it delivered is live if it was fetched. -/
lemma stalenessFor_fetched {statuses : List ResourceStatus}
    (hnodup : (statuses.map ResourceStatus.resourceId).Nodup) {e : ResourceStatus}
    (he : e ∈ statuses) (hfetched : ∃ pageEmpty, e.outcome = .fetched pageEmpty) :
    stalenessFor (stalenessByResource statuses) e.resourceId = .live := by
  obtain ⟨pageEmpty, houtcome⟩ := hfetched
  have hfind : statuses.reverse.find? (·.resourceId == e.resourceId) = some e := by
    cases hfind : statuses.reverse.find? (·.resourceId == e.resourceId) with
    | none => exact absurd (List.find?_eq_none.mp hfind e (List.mem_reverse.mpr he)) (by simp)
    | some e' =>
      have hmem := List.mem_reverse.mp (List.mem_of_find?_eq_some hfind)
      have hid : e'.resourceId = e.resourceId := by simpa using List.find?_some hfind
      rw [List.inj_on_of_nodup_map hnodup hmem he hid]
  rw [stalenessFor, stalenessByResource, hfind, Option.map_some, houtcome]
  rfl

/-- **The host accepts what the adapter serves**: the coverage holds, nothing is dropped, and every
observation is live.

**Proof sketch.** The entries are one for each resource of the request, so the coverage holds. Every
record is the adapter's own and within the size, so none is dropped; and it was served with a page,
so the entry of its resource says fetched, and it is stamped live. -/
lemma historyRead_received (hreply : (historyRead debug a world crawls queries).2 = .ok reply)
    (receivedAt : Rfc3339) :
    Host.historyRead texts "sumer-bitcoin" (queries.map ResourceQuery.resourceId) reply.received
        receivedAt =
      .ok ⟨reply.observations.map fun o => Observation.stamp o receivedAt .live,
        reply.statuses.map StatusEntry.received⟩ := by
  obtain ⟨hnodup, s, hs, rfl⟩ := exists_loop hreply
  have hreadable := readable_of_loop hs
  have hids : (s.statuses.map StatusEntry.received).map ResourceStatus.resourceId =
      queries.map ResourceQuery.resourceId := by
    rw [List.map_map]
    exact serveAll_resourceIds hs
  have hcoverage : checkStatusCoverage texts OP_HISTORY_READ
      (queries.map ResourceQuery.resourceId) (s.statuses.map StatusEntry.received) = .ok () :=
    checkStatusCoverage_eq_ok.mpr ⟨hids ▸ hnodup, fun id hid => hids ▸ hid⟩
  have hdrop : dropOwnOversized "sumer-bitcoin" s.observations
      (s.statuses.map StatusEntry.received) =
        (s.observations, s.statuses.map StatusEntry.received) :=
    dropOversized_of_le hreadable.bytes _
  simp only [Host.historyRead, HistoryReply.received, hcoverage, hdrop]
  congr 2
  refine List.map_congr_left fun o ho => ?_
  obtain ⟨e, he, hid, pageEmpty, hfetched⟩ := hreadable.fetched o ho
  rw [← hid]
  exact congrArg _ (stalenessFor_fetched (hids ▸ hnodup) (List.mem_map_of_mem he)
    ⟨pageEmpty, hfetched⟩)

/-- What the host has of what went out: the reply, stamped as live at the receipt, or the error. -/
def receivedOf (receivedAt : Rfc3339) : Except ErrorBody HistoryReply → Except HostError HistoryRead
  | .ok reply => .ok ⟨reply.observations.map fun o => Observation.stamp o receivedAt .live,
      reply.statuses.map StatusEntry.received⟩
  | .error e => .error (.wire ⟨e.code, e.message⟩)

end Frame

/-- Whether a result omits nothing. -/
def OmitsNothing : Except ErrorBody HistoryReply → Bool
  | .ok reply => reply.statuses.all fun e => e.degraded.isEmpty
  | .error _ => true

/-- The members of an object. -/
def membersOf : Json → Option (List (String × Json))
  | .obj members => some members
  | _ => none

/-- A day on which replies are received in the examples; its text is a timestamp. -/
lemma receiptDay_valid : (validateRfc3339 "2026-01-01T00:00:00Z").toOption = some () := by
  decide

/-- When it is received. -/
def receiptDay : Rfc3339 := ⟨"2026-01-01T00:00:00Z", receiptDay_valid⟩

end Sumer.Bitcoin
