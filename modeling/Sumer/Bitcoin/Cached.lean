import Sumer.Lib.Fallible
import Sumer.Bitcoin.Load
import Sumer.Bitcoin.Sha256
import Sumer.Bitcoin.Seen
import Sumer.Bitcoin.Adapter

set_option relaxedAutoImplicit false
set_option autoImplicit false

/-!
# Balances, and the cache behind them

`balances.read` of the Bitcoin adapter (`adapters/bitcoin/src/main.rs`), over a state directory that
outlives the process. What a read of a wallet's balances comes to is a parameter, and so is whether
the file system lets a save through. A run is a sequence of requests, each served by the adapter as
it is configured at the time; between them a file may be lost, or spoiled so that no check lets it
pass.

## Main definitions

* `Sumer.Bitcoin.balancesRead`: one request.
* `Sumer.Bitcoin.Disk`: the state directory, and which saves went into it.
* `Sumer.Bitcoin.runEvents`: a run.

## Main results

* `Sumer.Bitcoin.stale_balances`: a stale figure is the one that was last saved.
* `Sumer.Bitcoin.attributed_iff`: when every figure is attributed to the provider it came from.
-/

namespace Sumer.Bitcoin

open Sumer.Wire Sumer.Money

/-! ### The state directory -/

/-- A save that was completed. -/
structure Save where
  resourceId : String
  providerId : String
  addresses : List String
  addressHash : String
  asOf : Rfc3339
  confirmed : I128
  unconfirmed : I128

/-- The file that a save wrote. -/
def Save.file (s : Save) : SeenFile :=
  seenFile s.addressHash s.asOf (some s.confirmed) (some s.unconfirmed)

/-- The state directory. The saves that were completed stand beside it, the last one first: nothing
reads them. -/
structure Disk where
  dir : Dir
  saves : List Save

/-- A directory without a file. -/
def Disk.empty : Disk := ⟨fun _ => none, []⟩

/-- The last save of a resource. -/
def Disk.lastSave (d : Disk) (resourceId : String) : Option Save :=
  d.saves.find? (·.resourceId == resourceId)

/-- A file that is lost, or whose contents pass no check any more. -/
structure Damage where
  resourceId : String
  content : Option Content
  useless : ∀ file addressHash, content = some (.seen file) → ¬ Passes file addressHash

/-- The directory after a file was damaged. -/
def Disk.damage (d : Disk) (x : Damage) : Disk :=
  { d with dir := Function.update d.dir (seenPath x.resourceId) x.content }

/-! ### Serving a request -/

/-- A `balances.read` request, and what is met while it is served. -/
structure BalanceCall where
  resourceIds : List String
  now : ℤ
  outcome : Wallet → Except FetchError (I128 × I128)
  writes : Wallet → Bool

/-- The body of a `balances.read` reply. -/
structure BalancesReply where
  observations : List BalanceWire
  statuses : List StatusEntry

/-- What the read of one wallet comes to. -/
structure WalletRead where
  disk : Disk
  confirmed : Option I128
  unconfirmed : Option I128
  entry : StatusEntry
  abandoned : Bool

/-- The cache after two figures were read. -/
def Disk.save (d : Disk) (a : Adapter) (store : Store) (writes : Bool) (w : Wallet) (asOf : Rfc3339)
    (confirmed unconfirmed : I128) : Disk where
  dir := store.saveBalances writes d.dir w.resourceId w.addressHash asOf (some confirmed)
    (some unconfirmed)
  saves :=
    if store.keeps && writes then
      ⟨w.resourceId, a.providerId, w.addresses, w.addressHash, asOf, confirmed, unconfirmed⟩ ::
        d.saves
    else d.saves

/-- The read of one wallet. -/
def readWallet (a : Adapter) (store : Store) (call : BalanceCall) (asOf : Rfc3339) (d : Disk)
    (w : Wallet) : WalletRead :=
  match call.outcome w with
  | .ok (confirmed, unconfirmed) =>
    ⟨d.save a store (call.writes w) w asOf confirmed unconfirmed, some confirmed, some unconfirmed,
      status w.resourceId (.fetched false), false⟩
  | .error (.rateLimited ms detail) =>
    -- everything after this in the batch is `not_fetched`
    ⟨d, none, none, (status w.resourceId (.rateLimited ms.val)).withDetail detail, true⟩
  | .error (.unavailable detail) =>
    let recorded := store.load d.dir w.resourceId w.addressHash
    match recorded.balancesAsOf with
    | some asOf =>
      ⟨d, recorded.confirmed, recorded.unconfirmed,
        (status w.resourceId (.stale asOf)).withDetail detail, false⟩
    | none => ⟨d, none, none, (status w.resourceId .unavailable).withDetail detail, false⟩

/-- The read of one wallet, unless the batch was abandoned. -/
def readUnless (a : Adapter) (store : Store) (call : BalanceCall) (asOf : Rfc3339)
    (abandoned : Bool) (d : Disk) (w : Wallet) : WalletRead :=
  if abandoned then ⟨d, none, none, status w.resourceId .notFetched, true⟩
  else readWallet a store call asOf d w

/-- The variables of the loop over the resources. -/
structure BalanceReading where
  disk : Disk
  observations : List BalanceWire
  statuses : List StatusEntry
  abandoned : Bool

/-- A request that fails, and the directory it leaves. -/
structure BalanceFailure where
  disk : Disk
  error : ErrorBody

/-- One turn of the loop over the resources. -/
def balancesTurn (a : Adapter) (store : Store) (call : BalanceCall) (asOf : Rfc3339)
    (s : BalanceReading) (resourceId : String) : Except BalanceFailure BalanceReading :=
  match a.lookup resourceId with
  | none => .ok { s with statuses := s.statuses ++ [unknownResource resourceId] }
  | some w =>
    let read := readUnless a store call asOf s.abandoned s.disk w
    match balanceLines (a.ctx w asOf) (read.confirmed.map (·.val))
        (read.unconfirmed.map (·.val)) with
    | .error e => .error ⟨read.disk, internal e.message⟩
    | .ok lines =>
      .ok ⟨read.disk, s.observations ++ lines, s.statuses ++ [read.entry], read.abandoned⟩

/-- `Adapter::balances_read`: the directory afterwards, and the result. -/
def balancesRead (a : Adapter) (store : Store) (call : BalanceCall) (d : Disk) :
    Disk × Except ErrorBody BalancesReply :=
  match noRepeats call.resourceIds with
  | .error e => (d, .error e)
  | .ok () =>
    match rfc3339Utc call.now with
    | .error e => (d, .error (internal ("clock: byte " ++ toString e.offset)))
    | .ok asOf =>
      match call.resourceIds.foldlM (balancesTurn a store call asOf) ⟨d, [], [], false⟩ with
      | .error f => (f.disk, .error f.error)
      | .ok s => (s.disk, .ok ⟨s.observations, s.statuses⟩)

/-! ### Runs -/

/-- One lifetime of the adapter: its configuration, with the wallets of an accepted file. -/
structure Lifetime (sha256Hex : String → String) where
  adapter : Adapter
  store : Store
  loaded : ∀ w ∈ adapter.wallets, w.Loaded sha256Hex

/-- What happens to the directory: a request, or a damage. -/
inductive Event (sha256Hex : String → String) where
  | read (lifetime : Lifetime sha256Hex) (call : BalanceCall)
  | damage (x : Damage)

/-- One event. -/
def stepEvent {sha256Hex : String → String} (d : Disk) : Event sha256Hex → Disk
  | .read x call => (balancesRead x.adapter x.store call d).1
  | .damage x => d.damage x

/-- A run, from a directory without a file. -/
def runEvents {sha256Hex : String → String} (events : List (Event sha256Hex)) : Disk :=
  events.foldl stepEvent Disk.empty

/-! ### What is answered -/

/-- The amount of an `i128` of satoshis. -/
def amountOf (n : I128) : Amount where
  asset := satAsset
  units := n.val
  scale := 0
  digits_le := by
    refine (Nat.length_toDigits_le_iff (by decide) (by decide)).mpr ?_
    have hbound : n.val.natAbs ≤ 2 ^ 127 := by have := n.property; omega
    exact hbound.trans_lt (by norm_num [MAX_DIGITS])
  scale_le := Nat.zero_le _

/-- The balance lines of two figures. -/
def linesOf (ctx : Ctx) (confirmed unconfirmed : Option I128) : List BalanceWire :=
  [⟨ctx.resourceId, "confirmed", some .confirmed, confirmed.map amountOf,
      ctx.provenance SURFACE_STATS none⟩,
    ⟨ctx.resourceId, "unconfirmed", some .unconfirmed, unconfirmed.map amountOf,
      ctx.provenance SURFACE_STATS none⟩]

/-- What is answered about one resource. -/
structure Answer where
  entry : StatusEntry
  lines : List BalanceWire

/-- What is answered about a resource, by a batch that was abandoned before it or not. -/
def answerOf (a : Adapter) (store : Store) (call : BalanceCall) (asOf : Rfc3339) (d : Disk)
    (abandoned : Bool) (resourceId : String) : Answer :=
  match a.lookup resourceId with
  | none => ⟨unknownResource resourceId, []⟩
  | some w =>
    let read := readUnless a store call asOf abandoned d w
    ⟨read.entry, linesOf (a.ctx w asOf) read.confirmed read.unconfirmed⟩

/-- Whether the read of a resource is answered by a rate limit. -/
def BalanceCall.limits (call : BalanceCall) (a : Adapter) (resourceId : String) : Bool :=
  match a.lookup resourceId with
  | none => false
  | some w =>
    match call.outcome w with
    | .error (.rateLimited _ _) => true
    | _ => false

/-- What is answered about some resources. -/
def answersOf (a : Adapter) (store : Store) (call : BalanceCall) (asOf : Rfc3339) (d : Disk) :
    Bool → List String → List Answer
  | _, [] => []
  | abandoned, resourceId :: rest =>
    answerOf a store call asOf d abandoned resourceId ::
      answersOf a store call asOf d (abandoned || call.limits a resourceId) rest

section Answers

variable {a : Adapter} {store : Store} {call : BalanceCall} {asOf : Rfc3339} {d d' : Disk}
  {abandoned : Bool} {w : Wallet} {resourceId : String} {ids : List String}

/-- The text of an `i128` is an amount. -/
lemma sats_val (n : I128) : sats n.val = .ok (amountOf n) := sats_eq (amountOf n).digits_le

/-- The two balance lines of a resource can always be made: a figure that is there is within the
bounds of an amount, and a missing one is a line with `null`. -/
lemma balanceLines_eq (ctx : Ctx) (confirmed unconfirmed : Option I128) :
    balanceLines ctx (confirmed.map (·.val)) (unconfirmed.map (·.val)) =
      .ok (linesOf ctx confirmed unconfirmed) := by
  have hline (category : String) (hint : CanonicalHint) (n : Option I128) :
      balanceLine ctx category hint (n.map (·.val)) =
        .ok ⟨ctx.resourceId, category, some hint, n.map amountOf,
          ctx.provenance SURFACE_STATS none⟩ := by
    cases n with
    | none => rfl
    | some n =>
      simp only [balanceLine, Option.map_some, Option.mapM_some, sats_val]
      rfl
  rw [balanceLines, hline, hline]
  rfl

/-- What a read that is answered by a rate limit does to the batch. -/
lemma abandoned_readUnless (hw : a.lookup resourceId = some w) :
    (readUnless a store call asOf abandoned d w).abandoned =
      (abandoned || call.limits a resourceId) := by
  unfold readUnless BalanceCall.limits
  rw [hw]
  cases abandoned with
  | true => rfl
  | false =>
    simp only [Bool.false_eq_true, if_false, Bool.false_or, readWallet]
    cases call.outcome w with
    | ok figures => rfl
    | error e =>
      cases e with
      | rateLimited ms detail => rfl
      | unavailable detail =>
        simp only
        cases (store.load d.dir w.resourceId w.addressHash).balancesAsOf <;> rfl

/-- The directory after a turn of the loop. -/
def turnDisk (a : Adapter) (store : Store) (call : BalanceCall) (asOf : Rfc3339)
    (abandoned : Bool) (d : Disk) (resourceId : String) : Disk :=
  match a.lookup resourceId with
  | none => d
  | some w => (readUnless a store call asOf abandoned d w).disk

/-- One turn of the loop over the resources always goes on. It leaves the disk of its resource, and
adds the lines and the entry of its answer, both decided by the state before it. -/
lemma balancesTurn_eq (s : BalanceReading) :
    balancesTurn a store call asOf s resourceId =
      .ok ⟨turnDisk a store call asOf s.abandoned s.disk resourceId,
        s.observations ++ (answerOf a store call asOf s.disk s.abandoned resourceId).lines,
        s.statuses ++ [(answerOf a store call asOf s.disk s.abandoned resourceId).entry],
        s.abandoned || call.limits a resourceId⟩ := by
  unfold balancesTurn answerOf turnDisk
  cases hw : a.lookup resourceId with
  | none => simp [BalanceCall.limits, hw]
  | some w => simp only [balanceLines_eq, abandoned_readUnless hw]

/-- Two resources never share a cache file: the name of the file gives back the resource. -/
lemma seenPath_injective : Function.Injective seenPath := by
  intro r r' h
  simpa [seenPath, ← String.toList_inj, String.toList_append] using h

/-- What a read of a wallet does to the directory: nothing, or one save. -/
lemma disk_readUnless (a : Adapter) (store : Store) (call : BalanceCall) (asOf : Rfc3339)
    (abandoned : Bool) (d : Disk) (w : Wallet) :
    (readUnless a store call asOf abandoned d w).disk = d ∨
    ∃ confirmed unconfirmed, call.outcome w = .ok (confirmed, unconfirmed) ∧
      (readUnless a store call asOf abandoned d w).disk =
        d.save a store (call.writes w) w asOf confirmed unconfirmed := by
  unfold readUnless readWallet
  cases abandoned with
  | true => exact .inl rfl
  | false =>
    simp only [Bool.false_eq_true, if_false]
    cases hcall : call.outcome w with
    | ok figures => exact .inr ⟨figures.1, figures.2, rfl, rfl⟩
    | error e =>
      cases e with
      | rateLimited ms detail => exact .inl rfl
      | unavailable detail =>
        simp only
        cases (store.load d.dir w.resourceId w.addressHash).balancesAsOf <;> exact .inl rfl

/-- A save leaves the other resources as they are. -/
lemma dir_save_ne {writes : Bool} {confirmed unconfirmed : I128} (hne : resourceId ≠ w.resourceId) :
    (d.save a store writes w asOf confirmed unconfirmed).dir (seenPath resourceId) =
      d.dir (seenPath resourceId) := by
  unfold Disk.save Store.saveBalances
  dsimp only
  split_ifs
  · exact Function.update_of_ne (seenPath_injective.ne hne) _ _
  · rfl

/-- A turn of the loop leaves the other resources as they are. -/
lemma dir_turnDisk_ne {other : String} (hne : other ≠ resourceId) :
    (turnDisk a store call asOf abandoned d resourceId).dir (seenPath other) =
      d.dir (seenPath other) := by
  unfold turnDisk
  cases hw : a.lookup resourceId with
  | none => rfl
  | some w =>
    rcases disk_readUnless a store call asOf abandoned d w with
      hdisk | ⟨confirmed, unconfirmed, -, hdisk⟩
    · simp only [hdisk]
    · simp only [hdisk]
      exact dir_save_ne (lookup_eq_some hw ▸ hne)

/-- What is loaded depends on one file. -/
lemma load_congr (store : Store) (addressHash : String) {dir dir' : Dir}
    (h : dir (seenPath resourceId) = dir' (seenPath resourceId)) :
    store.load dir resourceId addressHash = store.load dir' resourceId addressHash := by
  simp only [Store.load, readFile, h]

/-- What is answered about a resource depends on its file.

**Proof sketch.** What is loaded for the resource depends on its own file, and everything else in
the answer on the provider and the request. -/
lemma answerOf_congr (h : d.dir (seenPath resourceId) = d'.dir (seenPath resourceId)) :
    answerOf a store call asOf d abandoned resourceId =
      answerOf a store call asOf d' abandoned resourceId := by
  unfold answerOf
  cases hw : a.lookup resourceId with
  | none => rfl
  | some w =>
    have hload := load_congr store w.addressHash h
    rw [← lookup_eq_some hw] at hload
    unfold readUnless readWallet
    cases abandoned with
    | true => rfl
    | false =>
      simp only [Bool.false_eq_true, if_false, hload]
      cases call.outcome w with
      | ok figures => rfl
      | error e =>
        cases e with
        | rateLimited ms detail => rfl
        | unavailable detail =>
          simp only
          cases (store.load d'.dir w.resourceId w.addressHash).balancesAsOf <;> rfl

/-- **What the loop answers**: each resource as its file was before the request.

**Proof sketch.** Induction on the resources. A turn writes no file but that of its own resource,
and no resource is named twice, so the later ones are answered from the files they had before the
request. -/
lemma foldlM_balancesTurn (a : Adapter) (store : Store) (call : BalanceCall) (asOf : Rfc3339)
    (hnodup : ids.Nodup) (s : BalanceReading)
    (hsame : ∀ r ∈ ids, s.disk.dir (seenPath r) = d.dir (seenPath r)) :
    ∃ s', ids.foldlM (balancesTurn a store call asOf) s = .ok s' ∧
      s'.observations =
        s.observations ++ (answersOf a store call asOf d s.abandoned ids).flatMap Answer.lines ∧
      s'.statuses =
        s.statuses ++ (answersOf a store call asOf d s.abandoned ids).map Answer.entry := by
  induction ids generalizing s with
  | nil => exact ⟨s, rfl, by simp [answersOf], by simp [answersOf]⟩
  | cons r rest ih =>
    obtain ⟨hr, hrest⟩ := List.nodup_cons.mp hnodup
    have hframe : ∀ r' ∈ rest, (turnDisk a store call asOf s.abandoned s.disk r).dir (seenPath r') =
        d.dir (seenPath r') := fun r' hr' =>
      (dir_turnDisk_ne (ne_of_mem_of_not_mem hr' hr)).trans (hsame r' (List.mem_cons_of_mem _ hr'))
    obtain ⟨s', hfold, hobservations, hstatuses⟩ := ih hrest
      ⟨turnDisk a store call asOf s.abandoned s.disk r,
        s.observations ++ (answerOf a store call asOf s.disk s.abandoned r).lines,
        s.statuses ++ [(answerOf a store call asOf s.disk s.abandoned r).entry],
        s.abandoned || call.limits a r⟩ hframe
    refine ⟨s', foldlM_cons_eq_ok.mpr ⟨_, balancesTurn_eq s, hfold⟩, ?_, ?_⟩
    · rw [hobservations, answersOf, List.flatMap_cons, List.append_assoc,
        answerOf_congr (hsame r List.mem_cons_self)]
    · rw [hstatuses, answersOf, List.map_cons, List.append_assoc,
        answerOf_congr (hsame r List.mem_cons_self), List.singleton_append]

/-- What a request without a repeated resource answers. -/
lemma balancesRead_of_nodup (hnodup : call.resourceIds.Nodup)
    (hasOf : rfc3339Utc call.now = .ok asOf) :
    (balancesRead a store call d).2 =
      .ok ⟨(answersOf a store call asOf d false call.resourceIds).flatMap Answer.lines,
        (answersOf a store call asOf d false call.resourceIds).map Answer.entry⟩ := by
  obtain ⟨s', hfold, hobservations, hstatuses⟩ := foldlM_balancesTurn a store call asOf
    (d := d) hnodup ⟨d, [], [], false⟩ fun _ _ => rfl
  simp only [balancesRead, noRepeats, if_pos hnodup, hasOf, hfold]
  rw [hobservations, hstatuses, List.nil_append, List.nil_append]

/-- **What a request answers.** A reply means that no resource was named twice and that the clock
could be written; it is then the lines and the entries of the answers, resource by resource. -/
lemma balancesRead_eq_ok {reply : BalancesReply} (h : (balancesRead a store call d).2 = .ok reply) :
    call.resourceIds.Nodup ∧ ∃ asOf, rfc3339Utc call.now = .ok asOf ∧
      reply = ⟨(answersOf a store call asOf d false call.resourceIds).flatMap Answer.lines,
        (answersOf a store call asOf d false call.resourceIds).map Answer.entry⟩ := by
  by_cases hnodup : call.resourceIds.Nodup
  · cases hnow : rfc3339Utc call.now with
    | error e =>
      simp only [balancesRead, noRepeats, if_pos hnodup, hnow] at h
      cases h
    | ok asOf =>
      rw [balancesRead_of_nodup hnodup hnow] at h
      cases h
      exact ⟨hnodup, asOf, rfl, rfl⟩
  · simp only [balancesRead, noRepeats, if_neg hnodup] at h
    cases h

/-- Where an answer stands in the batch. -/
lemma mem_answersOf {x : Answer} :
    x ∈ answersOf a store call asOf d abandoned ids ↔
      ∃ before r after, ids = before ++ r :: after ∧
        x = answerOf a store call asOf d (abandoned || before.any (call.limits a)) r := by
  induction ids generalizing abandoned with
  | nil => simp [answersOf]
  | cons r rest ih =>
    rw [answersOf, List.mem_cons, ih]
    constructor
    · rintro (rfl | ⟨before, r', after, rfl, rfl⟩)
      · exact ⟨[], r, rest, rfl, by simp⟩
      · exact ⟨r :: before, r', after, rfl, by rw [List.any_cons, Bool.or_assoc]⟩
    · rintro ⟨before, r', after, heq, rfl⟩
      cases before with
      | nil =>
        obtain ⟨rfl, rfl⟩ := List.cons.inj heq
        exact .inl (by simp)
      | cons b before =>
        obtain ⟨rfl, rfl⟩ := List.cons.inj heq
        exact .inr ⟨before, r', after, rfl, by rw [List.any_cons, Bool.or_assoc]⟩

/-- An answer is about its resource: its entry names it, and so does each of its lines.

**Proof sketch.** A resource without a wallet has the entry that says so and no lines. For any other
the entry and the two lines are made with the name of its wallet, which is the name that was looked
up. -/
lemma resourceId_answerOf (a : Adapter) (store : Store) (call : BalanceCall) (asOf : Rfc3339)
    (d : Disk) (abandoned : Bool) (resourceId : String) :
    (answerOf a store call asOf d abandoned resourceId).entry.resourceId = resourceId ∧
      ∀ line ∈ (answerOf a store call asOf d abandoned resourceId).lines,
        line.resourceId = resourceId := by
  unfold answerOf
  cases hw : a.lookup resourceId with
  | none => exact ⟨rfl, by simp⟩
  | some w =>
    have hid := lookup_eq_some hw
    refine ⟨?_, fun line hline => ?_⟩
    · unfold readUnless readWallet
      cases abandoned with
      | true => exact hid
      | false =>
        simp only [Bool.false_eq_true, if_false]
        cases call.outcome w with
        | ok figures => exact hid
        | error e =>
          cases e with
          | rateLimited ms detail => exact hid
          | unavailable detail =>
            simp only
            cases (store.load d.dir w.resourceId w.addressHash).balancesAsOf <;> exact hid
    · rcases List.mem_pair.mp hline with rfl | rfl <;> exact hid

/-- The lines of one resource.

**Proof sketch.** Induction on the resources before it. Each answer has lines of its own resource
alone, so the lines of this one come from its one answer, and the resources before it matter only
through the limits they met. -/
lemma filter_answersOf (hnodup : ids.Nodup) {before after : List String}
    (hids : ids = before ++ resourceId :: after) :
    ((answersOf a store call asOf d abandoned ids).flatMap Answer.lines).filter
        (·.resourceId == resourceId) =
      (answerOf a store call asOf d (abandoned || before.any (call.limits a))
        resourceId).lines := by
  have hnone (ids : List String) (abandoned : Bool) (h : resourceId ∉ ids) :
      ((answersOf a store call asOf d abandoned ids).flatMap Answer.lines).filter
        (·.resourceId == resourceId) = [] := by
    refine List.filter_eq_nil_iff.mpr fun line hline => ?_
    obtain ⟨x, hx, hline⟩ := List.mem_flatMap.mp hline
    obtain ⟨before, r, after, rfl, rfl⟩ := mem_answersOf.mp hx
    rw [(resourceId_answerOf _ _ _ _ _ _ _).2 line hline, beq_iff_eq]
    exact fun heq => h (heq ▸ by simp)
  subst hids
  induction before generalizing abandoned with
  | nil =>
    obtain ⟨hr, -⟩ := List.nodup_cons.mp hnodup
    rw [List.nil_append, answersOf, List.flatMap_cons, List.filter_append, hnone _ _ hr,
      List.append_nil, List.any_nil, Bool.or_false]
    exact List.filter_eq_self.mpr fun line hline =>
      beq_iff_eq.mpr ((resourceId_answerOf _ _ _ _ _ _ _).2 line hline)
  | cons b before ih =>
    obtain ⟨hb, hrest⟩ := List.nodup_cons.mp hnodup
    have hne : b ≠ resourceId := fun heq => hb (heq ▸ by simp)
    rw [List.cons_append, answersOf, List.flatMap_cons, List.filter_append, ih hrest,
      List.any_cons, Bool.or_assoc]
    rw [List.filter_eq_nil_iff.mpr fun line hline => ?_, List.nil_append]
    rw [(resourceId_answerOf _ _ _ _ _ _ _).2 line hline, beq_iff_eq]
    exact hne

end Answers

/-! ### What the directory keeps -/

/-- What stands in a wallet and in a cache file for a set of addresses. -/
def hashOf (sha256Hex : String → String) (addresses : List String) : String :=
  sha256Hex ("\n".intercalate addresses)

/-- The sets of addresses that are configured at some time of a run. -/
def addressSets {sha256Hex : String → String} (events : List (Event sha256Hex)) :
    Set (List String) :=
  {addresses | ∃ x call, Event.read x call ∈ events ∧
    ∃ w ∈ x.adapter.wallets, w.addresses = addresses}

/-- **What the directory keeps**: a file of a resource is what its last save wrote, or passes no
check. -/
structure Disk.Kept (sha256Hex : String → String) (sets : Set (List String)) (d : Disk) :
    Prop where
  file : ∀ resourceId file, d.dir (seenPath resourceId) = some (.seen file) →
    (∀ addressHash, ¬ Passes file addressHash) ∨
      ∃ s, d.lastSave resourceId = some s ∧ file = s.file
  hashed : ∀ s ∈ d.saves, s.addresses ∈ sets ∧ s.addressHash = hashOf sha256Hex s.addresses

/-- **The save that a stale answer is taken from**: the last one of the resource, when its file is
in place and names the hash of the wallet's addresses. The file does not name the provider. -/
structure Recorded (store : Store) (d : Disk) (w : Wallet) (s : Save) : Prop where
  keeps : store.keeps = true
  last : d.lastSave w.resourceId = some s
  inPlace : d.dir (seenPath w.resourceId) = some (.seen s.file)
  sameHash : s.addressHash = w.addressHash

/-- Such a save, when it was made under the addresses that the wallet has. -/
structure Usable (store : Store) (d : Disk) (w : Wallet) (s : Save) : Prop where
  keeps : store.keeps = true
  last : d.lastSave w.resourceId = some s
  inPlace : d.dir (seenPath w.resourceId) = some (.seen s.file)
  sameSet : s.addresses = w.addresses

section Kept

variable {sha256Hex : String → String} {a : Adapter} {store : Store} {call : BalanceCall}
  {asOf : Rfc3339} {d d' : Disk} {abandoned : Bool} {w : Wallet} {resourceId : String}
  {sets : Set (List String)}

/-- A directory without a file keeps the invariant: there is nothing in it that a save would have to
have left. -/
lemma kept_empty : Disk.empty.Kept sha256Hex sets :=
  ⟨fun _ _ h => absurd h (by simp [Disk.empty]), fun _ h => absurd h List.not_mem_nil⟩

/-- A save keeps it.

**Proof sketch.** Where the disk is not written, nothing changes. Otherwise the file of the wallet
is the one just saved, and what was kept of the others is as it was, since their files have other
names; the save is the newest of its wallet. -/
lemma kept_save (h : d.Kept sha256Hex sets) (hw : w.Loaded sha256Hex)
    (hset : w.addresses ∈ sets) {writes : Bool} {confirmed unconfirmed : I128} :
    (d.save a store writes w asOf confirmed unconfirmed).Kept sha256Hex sets := by
  cases hwrites : (store.keeps && writes) with
  | false =>
    have hsame : d.save a store writes w asOf confirmed unconfirmed = d := by
      simp [Disk.save, Store.saveBalances, hwrites]
    rwa [hsame]
  | true =>
    let saved : Save :=
      ⟨w.resourceId, a.providerId, w.addresses, w.addressHash, asOf, confirmed, unconfirmed⟩
    have hsave : d.save a store writes w asOf confirmed unconfirmed =
        ⟨Function.update d.dir (seenPath w.resourceId) (some (.seen saved.file)),
          saved :: d.saves⟩ := by
      simp only [Disk.save, Store.saveBalances, hwrites, if_true]
      rfl
    rw [hsave]
    refine ⟨fun r file hfile => ?_, fun s hs => ?_⟩
    · by_cases hr : r = w.resourceId
      · subst hr
        dsimp only at hfile
        rw [Function.update_self] at hfile
        cases hfile
        exact .inr ⟨saved, by simp [Disk.lastSave, saved], rfl⟩
      · dsimp only at hfile
        rw [Function.update_of_ne (seenPath_injective.ne hr)] at hfile
        refine (h.file r file hfile).imp id ?_
        rintro ⟨s, hs, heq⟩
        refine ⟨s, ?_, heq⟩
        rw [Disk.lastSave, List.find?_cons_of_neg (by simpa [saved] using Ne.symm hr)]
        exact hs
    · rcases List.mem_cons.mp hs with rfl | hs
      · exact ⟨hset, hw.hash⟩
      · exact h.hashed s hs

/-- Damage to a file keeps the invariant: what it leaves is never a file that a load accepts, and
the other files are as they were. -/
lemma kept_damage (h : d.Kept sha256Hex sets) (x : Damage) :
    (d.damage x).Kept sha256Hex sets := by
  refine ⟨fun r file hfile => ?_, h.hashed⟩
  by_cases hr : r = x.resourceId
  · subst hr
    dsimp only [Disk.damage] at hfile
    rw [Function.update_self] at hfile
    exact .inl fun addressHash => x.useless file addressHash hfile
  · dsimp only [Disk.damage] at hfile
    rw [Function.update_of_ne (seenPath_injective.ne hr)] at hfile
    exact h.file r file hfile

/-- A request keeps it.

**Proof sketch.** A request is refused, or answered resource by resource: each turn saves the
figures of its own wallet or nothing (`kept_save`), and the loop keeps what every turn keeps. -/
lemma kept_balancesRead (h : d.Kept sha256Hex sets)
    (hloaded : ∀ w ∈ a.wallets, w.Loaded sha256Hex) (hsets : ∀ w ∈ a.wallets, w.addresses ∈ sets) :
    (balancesRead a store call d).1.Kept sha256Hex sets := by
  unfold balancesRead noRepeats
  split_ifs with hnodup
  · cases rfc3339Utc call.now with
    | error e => exact h
    | ok asOf =>
      obtain ⟨s', hfold, -, -⟩ := foldlM_balancesTurn a store call asOf (d := d) hnodup
        ⟨d, [], [], false⟩ fun _ _ => rfl
      simp only [hfold]
      refine foldlM_invariant (P := fun s : BalanceReading => s.disk.Kept sha256Hex sets)
        (fun s r s' _ hs hturn => ?_) h hfold
      cases (balancesTurn_eq s).symm.trans hturn
      dsimp only
      unfold turnDisk
      cases hw : a.lookup r with
      | none => exact hs
      | some w =>
        rcases disk_readUnless a store call asOf s.abandoned s.disk w with hdisk | ⟨c, u, -, hdisk⟩
        · simp only [hdisk]
          exact hs
        · simp only [hdisk]
          have hmem := List.mem_of_find?_eq_some hw
          exact kept_save hs (hloaded w hmem) (hsets w hmem)
  · exact h

/-- **What every run keeps**, by induction on its events. -/
lemma kept_runEvents (events : List (Event sha256Hex)) (hsets : addressSets events ⊆ sets) :
    (runEvents events).Kept sha256Hex sets := by
  suffices hfold : ∀ d : Disk, d.Kept sha256Hex sets →
      (events.foldl stepEvent d).Kept sha256Hex sets from hfold _ kept_empty
  induction events with
  | nil => exact fun d h => h
  | cons event events ih =>
    have hrest : addressSets events ⊆ sets := by
      rintro addresses ⟨x, call, hmem, hw⟩
      exact hsets ⟨x, call, List.mem_cons_of_mem _ hmem, hw⟩
    intro d h
    refine ih hrest _ ?_
    cases event with
    | read x call =>
      exact kept_balancesRead h x.loaded fun w hw =>
        hsets ⟨x, call, List.mem_cons_self, w, hw, rfl⟩
    | damage x => exact kept_damage h x

/-- What is loaded when there is a save to take. -/
lemma load_of_recorded {s : Save} (hs : Recorded store d w s) :
    store.load d.dir w.resourceId w.addressHash =
      ⟨some s.asOf, some s.confirmed, some s.unconfirmed⟩ := by
  have hfile : readFile d.dir (seenPath w.resourceId) w.addressHash = some s.file := by
    simp [readFile, hs.inPlace, Save.file, seenFile, hs.sameHash]
  rw [Store.load, if_pos hs.keeps, hfile]
  simp [Save.file, decode_seenFile]

/-- What is loaded when there is none. -/
lemma load_of_not_recorded (h : d.Kept sha256Hex sets) (hnone : ¬ ∃ s, Recorded store d w s) :
    store.load d.dir w.resourceId w.addressHash = Seen.default := by
  cases hkeeps : store.keeps with
  | false => rw [Store.load, if_neg (by simp [hkeeps])]
  | true =>
    refine Store.load_eq_default fun file hfile hpasses => ?_
    rcases h.file _ file hfile with huseless | ⟨s, hlast, rfl⟩
    · exact huseless _ hpasses
    · exact hnone ⟨s, hkeeps, hlast, hfile, hpasses.addressSet⟩

/-- What is answered about a wallet whose balances could not be read, and that has a save to
take. -/
lemma readUnless_of_recorded {detail : ProviderDetail}
    (hfails : call.outcome w = .error (.unavailable detail)) {s : Save}
    (hs : Recorded store d w s) :
    readUnless a store call asOf false d w = ⟨d, some s.confirmed, some s.unconfirmed,
      (status w.resourceId (.stale s.asOf)).withDetail detail, false⟩ := by
  rw [readUnless, if_neg Bool.false_ne_true, readWallet, hfails]
  simp only [load_of_recorded hs]

/-- What is answered about one that has none. -/
lemma readUnless_of_not_recorded (h : d.Kept sha256Hex sets) {detail : ProviderDetail}
    (hfails : call.outcome w = .error (.unavailable detail))
    (hnone : ¬ ∃ s, Recorded store d w s) :
    readUnless a store call asOf false d w = ⟨d, none, none,
      (status w.resourceId .unavailable).withDetail detail, false⟩ := by
  rw [readUnless, if_neg Bool.false_ne_true, readWallet, hfails]
  simp only [load_of_not_recorded h hnone]
  rfl

/-- **A hash that tells the sets of a run apart**: the save that is taken was made under the
addresses that the wallet has. -/
lemma recorded_iff_usable (hinj : Set.InjOn (hashOf sha256Hex) sets) (h : d.Kept sha256Hex sets)
    (hw : w.Loaded sha256Hex) (hset : w.addresses ∈ sets) {s : Save} :
    Recorded store d w s ↔ Usable store d w s := by
  constructor
  · intro hs
    obtain ⟨hmem, hhash⟩ := h.hashed s (List.mem_of_find?_eq_some hs.last)
    refine ⟨hs.keeps, hs.last, hs.inPlace, hinj hmem hset ?_⟩
    rw [← hhash, hs.sameHash, hw.hash, hashOf]
  · intro hs
    refine ⟨hs.keeps, hs.last, hs.inPlace, ?_⟩
    rw [(h.hashed s (List.mem_of_find?_eq_some hs.last)).2, hs.sameSet, hw.hash, hashOf]

end Kept

/-- The figures of one resource in a reply. -/
def BalancesReply.figures (reply : BalancesReply) (resourceId : String) :
    List (String × Option Amount) :=
  (reply.observations.filter (·.resourceId == resourceId)).map fun line =>
    (line.category, line.amount)

/-- The figures of two balances. -/
def figuresOf (confirmed unconfirmed : Option I128) : List (String × Option Amount) :=
  [("confirmed", confirmed.map amountOf), ("unconfirmed", unconfirmed.map amountOf)]

/-- What a reply says about a wallet. -/
lemma cached_answer {a : Adapter} {store : Store} {call : BalanceCall} {d : Disk}
    {reply : BalancesReply} (h : (balancesRead a store call d).2 = .ok reply) {entry : StatusEntry}
    (hentry : entry ∈ reply.statuses) {w : Wallet} (hw : a.lookup entry.resourceId = some w) :
    ∃ asOf abandoned, entry = (readUnless a store call asOf abandoned d w).entry ∧
      reply.figures entry.resourceId =
        figuresOf (readUnless a store call asOf abandoned d w).confirmed
          (readUnless a store call asOf abandoned d w).unconfirmed := by
  obtain ⟨hnodup, asOf, -, rfl⟩ := balancesRead_eq_ok h
  obtain ⟨x, hx, rfl⟩ := List.mem_map.mp hentry
  obtain ⟨before, r, after, hids, rfl⟩ := mem_answersOf.mp hx
  have hr := (resourceId_answerOf a store call asOf d (false || before.any (call.limits a)) r).1
  rw [hr] at hw ⊢
  refine ⟨asOf, false || before.any (call.limits a), ?_, ?_⟩
  · simp only [answerOf, hw]
  · rw [BalancesReply.figures, filter_answersOf hnodup hids]
    simp only [answerOf, hw]
    rfl

/-- **A stale balance is one that was really observed.** In every run: a stale answer carries the
two figures and the time of the last save of the resource, made for the same addresses; a read that
fails without such a save, or whose file is spoiled, is answered with two nulls. What was saved is
loaded, and a file that fails a check gives no figure.

**Proof sketch.** In every run, what is recorded for a wallet is the last save made for its
addresses: the files are the invariant (`Kept`), and over the address sets of the run a hash stands
for one set. The answer for a resource is decided by its outcome and by what is recorded
(`cached_answer`). A stale answer therefore carries a save, its time and its two figures; with
nothing usable recorded, a failed read is answered unavailable, with nulls. The other two parts are
about one load after one save, and about a file that fails one of its checks. -/
theorem stale_balances (sha256Hex : String → String) (events : List (Event sha256Hex))
    (x : Lifetime sha256Hex) (call : BalanceCall)
    (hinj : Set.InjOn (hashOf sha256Hex) (addressSets (.read x call :: events))) :
    (∀ reply, (balancesRead x.adapter x.store call (runEvents events)).2 = .ok reply →
      ∀ entry ∈ reply.statuses, ∀ w, x.adapter.lookup entry.resourceId = some w →
        (∀ asOf, entry.outcome = .stale asOf →
          ∃ s, Usable x.store (runEvents events) w s ∧ asOf = s.asOf ∧
            reply.figures w.resourceId = figuresOf (some s.confirmed) (some s.unconfirmed)) ∧
        ((∃ detail, call.outcome w = .error (.unavailable detail)) →
          entry.outcome ≠ .notFetched → (¬ ∃ s, Usable x.store (runEvents events) w s) →
            entry.outcome = .unavailable ∧ reply.figures w.resourceId = figuresOf none none)) ∧
    (∀ (store : Store) (dir : Dir) (resourceId addressHash : String) (asOf : Rfc3339)
      (confirmed unconfirmed : Option I128), store.keeps = true →
      store.load (store.saveBalances true dir resourceId addressHash asOf confirmed unconfirmed)
        resourceId addressHash = ⟨some asOf, confirmed, unconfirmed⟩) ∧
    ∀ (store : Store) (dir : Dir) (resourceId addressHash : String),
      (∀ file, dir (seenPath resourceId) = some (.seen file) → ¬ Passes file addressHash) →
        store.load dir resourceId addressHash = ⟨none, none, none⟩ := by
  refine ⟨fun reply hreply entry hentry w hw => ?_, fun store dir resourceId addressHash asOf
    confirmed unconfirmed hkeeps => Store.load_saveBalances hkeeps asOf confirmed unconfirmed,
    fun store dir resourceId addressHash hfails => Store.load_eq_default hfails⟩
  have hsets : addressSets events ⊆ addressSets (.read x call :: events) := by
    rintro addresses ⟨y, c, hmem, hy⟩
    exact ⟨y, c, List.mem_cons_of_mem _ hmem, hy⟩
  have hkept := kept_runEvents events hsets
  have hmem := List.mem_of_find?_eq_some hw
  have hiff {s : Save} : Recorded x.store (runEvents events) w s ↔
      Usable x.store (runEvents events) w s :=
    recorded_iff_usable hinj hkept (x.loaded w hmem) ⟨x, call, List.mem_cons_self, w, hmem, rfl⟩
  obtain ⟨asOf, abandoned, hanswer, hfigures⟩ := cached_answer hreply hentry hw
  rw [← lookup_eq_some hw] at hfigures
  refine ⟨fun asOf' hstale => ?_, fun ⟨detail, hfails⟩ hfetched hnone => ?_⟩
  · rw [hanswer] at hstale
    cases abandoned with
    | true => cases hstale
    | false =>
      cases hout : call.outcome w with
      | ok figures =>
        rw [readUnless, if_neg Bool.false_ne_true, readWallet, hout] at hstale
        cases hstale
      | error e =>
        cases e with
        | rateLimited ms detail =>
          rw [readUnless, if_neg Bool.false_ne_true, readWallet, hout] at hstale
          cases hstale
        | unavailable detail =>
          by_cases hrecorded : ∃ s, Recorded x.store (runEvents events) w s
          · obtain ⟨s, hs⟩ := hrecorded
            rw [readUnless_of_recorded hout hs] at hstale hfigures
            cases hstale
            exact ⟨s, hiff.mp hs, rfl, hfigures⟩
          · rw [readUnless_of_not_recorded hkept hout hrecorded] at hstale
            cases hstale
  · cases abandoned with
    | true => exact absurd (congrArg StatusEntry.outcome hanswer) hfetched
    | false =>
      have hnone' : ¬ ∃ s, Recorded x.store (runEvents events) w s := fun ⟨s, hs⟩ =>
        hnone ⟨s, hiff.mp hs⟩
      rw [readUnless_of_not_recorded hkept hfails hnone'] at hanswer hfigures
      exact ⟨congrArg StatusEntry.outcome hanswer, hfigures⟩

/-- The fingerprint of the text that an address set is written as. -/
def sha256Text (text : String) : String := sha256Hex (asBytes text)

/-- A wallet with one address. -/
def cachedWallet : Wallet where
  resourceId := "savings"
  addresses := ["bc1qexample0"]
  addressHash := "5df98217dc7f523e0941a8d56dec87f1a16979322b6a09d86f333e33dc34dc3e"
  valid := isResourceId_savings

/-- The same wallet as it was configured before, with a second address. -/
def widerWallet : Wallet where
  resourceId := "savings"
  addresses := ["bc1qexample0", "bc1qexample1"]
  addressHash := "20e40422e3af1d981aab4a23ea069277ddedf0369c2b3066ee125c7d58fe5f86"
  valid := isResourceId_savings

set_option maxRecDepth 4000 in
/-- The wallet stands under the hash of its address. -/
lemma hash_cachedWallet : cachedWallet.addressHash = hashOf sha256Text cachedWallet.addresses := by
  decide +kernel

set_option maxRecDepth 4000 in
/-- The wider wallet stands under the hash of its two addresses. -/
lemma hash_widerWallet : widerWallet.addressHash = hashOf sha256Text widerWallet.addresses := by
  decide +kernel

/-- A lifetime with one wallet, reading from a provider. -/
def lifetimeOf (providerId : String) : Lifetime sha256Text where
  adapter := ⟨[cachedWallet], providerId⟩
  store := ⟨true⟩
  loaded w hw := by
    rw [List.mem_singleton.mp hw]
    exact ⟨by decide, by decide, by decide, hash_cachedWallet⟩

/-- A lifetime with the wider wallet. -/
def widerLifetime : Lifetime sha256Text where
  adapter := ⟨[widerWallet], "https://a.example"⟩
  store := ⟨true⟩
  loaded w hw := by
    rw [List.mem_singleton.mp hw]
    exact ⟨by decide, by decide, by decide, hash_widerWallet⟩

/-- A request that is answered with 5 confirmed satoshis and 2 that are being spent. -/
def answeredCall : BalanceCall where
  resourceIds := ["savings"]
  now := 1700000000
  outcome _ := .ok (⟨5, by decide⟩, ⟨-2, by decide⟩)
  writes _ := true

/-- A request whose read fails. -/
def failingCall : BalanceCall where
  resourceIds := ["savings"]
  now := 1700000600
  outcome _ := .error (.unavailable ⟨"transport", "connection refused", .null⟩)
  writes _ := true

/-- A read under the wider wallet, then one under the wallet with one address. -/
def cachedRun : List (Event sha256Text) :=
  [.read widerLifetime answeredCall, .read (lifetimeOf "https://a.example") answeredCall]

/-- The hash tells the two address sets of the run apart.

**Proof sketch.** The run has wallets of two address sets, and their two hashes, which were
computed, differ. -/
lemma injOn_cachedRun : Set.InjOn (hashOf sha256Text)
    (addressSets (.read (lifetimeOf "https://a.example") failingCall :: cachedRun)) := by
  have hset {addresses : List String}
      (h : addresses ∈ addressSets
        (.read (lifetimeOf "https://a.example") failingCall :: cachedRun)) :
      addresses = cachedWallet.addresses ∨ addresses = widerWallet.addresses := by
    obtain ⟨x, call, hmem, w, hw, rfl⟩ := h
    simp only [cachedRun, List.mem_cons, List.not_mem_nil, or_false] at hmem
    rcases hmem with h | h | h <;> cases h
    · exact .inl (congrArg Wallet.addresses (List.mem_singleton.mp hw))
    · exact .inr (congrArg Wallet.addresses (List.mem_singleton.mp hw))
    · exact .inl (congrArg Wallet.addresses (List.mem_singleton.mp hw))
  have hne : hashOf sha256Text cachedWallet.addresses ≠
      hashOf sha256Text widerWallet.addresses := by
    rw [← hash_cachedWallet, ← hash_widerWallet]
    decide
  intro addresses h addresses' h' heq
  rcases hset h with rfl | rfl <;> rcases hset h' with rfl | rfl
  · rfl
  · exact absurd heq hne
  · exact absurd heq.symm hne
  · rfl

set_option maxRecDepth 4000 in
/-- A stale answer after the run: the figures of the second save, made under the one address that
the wallet still has. -/
theorem stale_balances_example :
    ∃ (reply : BalancesReply) (entry : StatusEntry) (s : Save),
      (balancesRead ⟨[cachedWallet], "https://a.example"⟩ ⟨true⟩ failingCall
        (runEvents cachedRun)).2 = .ok reply ∧ entry ∈ reply.statuses ∧
      entry.outcome = .stale s.asOf ∧ s.addresses = ["bc1qexample0"] ∧
      reply.figures "savings" = figuresOf (some s.confirmed) (some s.unconfirmed) := by
  have hrun : ((balancesRead ⟨[cachedWallet], "https://a.example"⟩ ⟨true⟩ failingCall
      (runEvents cachedRun)).2.toOption.map fun reply =>
        reply.statuses.map fun entry => (entry.resourceId, entry.outcome)) =
      some [("savings", .stale ⟨"2023-11-14T22:13:20Z", by decide⟩)] := by decide +kernel
  obtain ⟨reply, hreply⟩ := exists_eq_ok_iff.mpr (Option.isSome_map.symm.trans
    (congrArg Option.isSome hrun))
  have hentries : reply.statuses.map (fun entry => (entry.resourceId, entry.outcome)) =
      [("savings", .stale ⟨"2023-11-14T22:13:20Z", by decide⟩)] := by
    rw [hreply] at hrun
    exact Option.some_inj.mp hrun
  obtain ⟨entry, hentry, heq⟩ := List.mem_map.mp (hentries ▸ List.mem_singleton_self _)
  obtain ⟨hid, hstale⟩ := Prod.mk.inj heq
  have hspec := (stale_balances sha256Text cachedRun (lifetimeOf "https://a.example") failingCall
    injOn_cachedRun).1 reply hreply entry hentry cachedWallet (by rw [hid]; rfl)
  obtain ⟨s, hs, hasOf, hfigures⟩ := hspec.1 _ hstale
  exact ⟨reply, entry, s, hreply, hentry, hstale.trans (congrArg _ hasOf), hs.sameSet, hfigures⟩

/-! ### Whose figures they are -/

section Source

variable {sha256Hex : String → String} {sets : Set (List String)}

/-- The provider whose responses a figure of a reply was computed from: the one that was read, or
that of the save it is taken from. -/
inductive ComputedFrom (x : Lifetime sha256Hex) (call : BalanceCall) (d : Disk)
    (resourceId : String) : String → Prop where
  | read {w : Wallet} {figures : I128 × I128} : x.adapter.lookup resourceId = some w →
      call.outcome w = .ok figures → ComputedFrom x call d resourceId x.adapter.providerId
  | saved {w : Wallet} {detail : ProviderDetail} {s : Save} :
      x.adapter.lookup resourceId = some w → call.outcome w = .error (.unavailable detail) →
      Recorded x.store d w s → ComputedFrom x call d resourceId s.providerId

/-- Every figure of the reply is attributed to the provider it was computed from. -/
def Attributed (x : Lifetime sha256Hex) (call : BalanceCall) (d : Disk) : Prop :=
  ∀ reply, (balancesRead x.adapter x.store call d).2 = .ok reply →
    ∀ line ∈ reply.observations, line.amount ≠ none →
      ComputedFrom x call d line.resourceId line.provenance.providerId

/-- No read that is made and fails falls back on figures of another provider. -/
def SameSource (x : Lifetime sha256Hex) (call : BalanceCall) (d : Disk) : Prop :=
  call.resourceIds.Nodup → (∃ asOf, rfc3339Utc call.now = .ok asOf) →
    ∀ before resourceId after w detail s, call.resourceIds = before ++ resourceId :: after →
      before.any (call.limits x.adapter) = false → x.adapter.lookup resourceId = some w →
      call.outcome w = .error (.unavailable detail) → Recorded x.store d w s →
      s.providerId = x.adapter.providerId

section Attributed

variable {x : Lifetime sha256Hex} {call : BalanceCall} {d : Disk} {w : Wallet}
  {resourceId : String} {detail : ProviderDetail} {s : Save}

/-- Figures that are taken from a save are those of its provider: the read that failed gave none,
and the directory has one last save of the resource. -/
lemma ComputedFrom.of_recorded (hw : x.adapter.lookup resourceId = some w)
    (hfails : call.outcome w = .error (.unavailable detail)) (hs : Recorded x.store d w s)
    {providerId : String} (h : ComputedFrom x call d resourceId providerId) :
    providerId = s.providerId := by
  cases h with
  | read hw' hok =>
    cases hw.symm.trans hw'
    cases hfails.symm.trans hok
  | saved hw' _ hs' =>
    cases hw.symm.trans hw'
    cases hs.last.symm.trans hs'.last
    rfl

/-- **A saved figure is reported under the provider that is configured now**: a read that is made,
fails and finds a save to take puts the confirmed figure of the save into its reply.

**Proof sketch.** The loop answers each resource as its file was before the request, so the answer
about this one stands in the reply. No request before it was answered by a rate limit, so the read
was made; it failed, so the figures are those of the save, and `ctx` stamps them. -/
lemma exists_line_of_recorded {before after : List String} (hnodup : call.resourceIds.Nodup)
    {asOf : Rfc3339} (hasOf : rfc3339Utc call.now = .ok asOf)
    (hids : call.resourceIds = before ++ resourceId :: after)
    (hlimits : before.any (call.limits x.adapter) = false)
    (hw : x.adapter.lookup resourceId = some w)
    (hfails : call.outcome w = .error (.unavailable detail)) (hs : Recorded x.store d w s) :
    ∃ reply, (balancesRead x.adapter x.store call d).2 = .ok reply ∧
      ∃ line ∈ reply.observations, line.resourceId = resourceId ∧ line.amount ≠ none ∧
        line.provenance.providerId = x.adapter.providerId := by
  refine ⟨_, balancesRead_of_nodup hnodup hasOf, ?_⟩
  have hanswer : answerOf x.adapter x.store call asOf d false resourceId =
      ⟨(status w.resourceId (.stale s.asOf)).withDetail detail,
        linesOf (x.adapter.ctx w asOf) (some s.confirmed) (some s.unconfirmed)⟩ := by
    simp only [answerOf, hw, readUnless_of_recorded hfails hs]
  refine ⟨⟨w.resourceId, "confirmed", some .confirmed, some (amountOf s.confirmed),
    (x.adapter.ctx w asOf).provenance SURFACE_STATS none⟩, ?_, lookup_eq_some hw,
    Option.some_ne_none _, rfl⟩
  refine List.mem_flatMap.mpr ⟨_, mem_answersOf.mpr ⟨before, resourceId, after, hids, rfl⟩, ?_⟩
  rw [hlimits, Bool.or_self, hanswer]
  exact List.mem_cons_self

/-- A resource that is answered by no figure. -/
lemma notMem_linesOf_none {ctx : Ctx} {line : BalanceWire} (hamount : line.amount ≠ none) :
    line ∉ linesOf ctx none none := by
  intro hmem
  rcases List.mem_pair.mp hmem with rfl | rfl <;> exact hamount rfl

/-- **Where a figure of a reply is from**: the read of its wallet, or a save that the read fell back
on because it failed. It stands under the provider that is configured now.

**Proof sketch.** A line with an amount is about a wallet, and not about one after a rate limit. The
read of the wallet succeeded, or it failed in a way that falls back on the cache; a rate limit, and
a cache without a save to take, leave two nulls. -/
lemma line_source (h : d.Kept sha256Hex sets) {asOf : Rfc3339} {abandoned : Bool}
    {line : BalanceWire}
    (hline : line ∈ (answerOf x.adapter x.store call asOf d abandoned resourceId).lines)
    (hamount : line.amount ≠ none) :
    abandoned = false ∧ line.provenance.providerId = x.adapter.providerId ∧
      ∃ w, x.adapter.lookup resourceId = some w ∧
        ((∃ figures, call.outcome w = .ok figures) ∨
          ∃ detail s, call.outcome w = .error (.unavailable detail) ∧ Recorded x.store d w s) := by
  unfold answerOf at hline
  cases hw : x.adapter.lookup resourceId with
  | none =>
    rw [hw] at hline
    cases hline
  | some w =>
    simp only [hw] at hline
    have hprovider : line.provenance.providerId = x.adapter.providerId := by
      rcases List.mem_pair.mp hline with rfl | rfl <;> rfl
    cases abandoned with
    | true => exact absurd hline (notMem_linesOf_none hamount)
    | false =>
      refine ⟨rfl, hprovider, w, rfl, ?_⟩
      cases hout : call.outcome w with
      | ok figures => exact .inl ⟨figures, rfl⟩
      | error e =>
        cases e with
        | rateLimited ms detail =>
          rw [readUnless, if_neg Bool.false_ne_true, readWallet, hout] at hline
          exact absurd hline (notMem_linesOf_none hamount)
        | unavailable detail =>
          by_cases hrecorded : ∃ s, Recorded x.store d w s
          · obtain ⟨s, hs⟩ := hrecorded
            exact .inr ⟨detail, s, rfl, hs⟩
          · rw [readUnless_of_not_recorded h hout hrecorded] at hline
            exact absurd hline (notMem_linesOf_none hamount)

/-- **When the figures of one reply are attributed**: exactly when no read of the request falls back
on figures of another provider.

**Proof sketch.** A save that is fallen back on is reported under the provider configured now and is
computed from its own, so attribution makes the two equal. Conversely a figure is from the read of
its wallet, which asks the provider configured now, or from a save, whose provider is the same one
by assumption. -/
lemma attributed_iff_sameSource (h : d.Kept sha256Hex sets) :
    Attributed x call d ↔ SameSource x call d := by
  constructor
  · intro hattributed hnodup ⟨asOf, hasOf⟩ before r after w detail s hids hlimits hw hfails hs
    obtain ⟨reply, hreply, line, hline, hr, hamount, hprovider⟩ :=
      exists_line_of_recorded hnodup hasOf hids hlimits hw hfails hs
    have hfrom := hattributed reply hreply line hline hamount
    rw [hr] at hfrom
    rw [← hprovider, ← hfrom.of_recorded hw hfails hs]
  · intro hsame reply hreply line hline hamount
    obtain ⟨hnodup, asOf, hasOf, rfl⟩ := balancesRead_eq_ok hreply
    obtain ⟨answer, hanswer, hline⟩ := List.mem_flatMap.mp hline
    obtain ⟨before, r, after, hids, rfl⟩ := mem_answersOf.mp hanswer
    rw [(resourceId_answerOf _ _ _ _ _ _ _).2 line hline]
    obtain ⟨hlimits, hprovider, w, hw, ⟨figures, hok⟩ | ⟨detail, s, hfails, hs⟩⟩ :=
      line_source h hline hamount
    · rw [hprovider]
      exact .read hw hok
    · rw [hprovider, ← hsame hnodup ⟨asOf, hasOf⟩ before r after w detail s hids
        (by simpa using hlimits) hw hfails hs]
      exact .saved hw hfails hs

end Attributed

end Source

/-- **When every figure is attributed to the provider it came from**, in a run: when no read that
fails falls back on a save that was made under another provider. -/
theorem attributed_iff (sha256Hex : String → String) (events : List (Event sha256Hex)) :
    (∀ before x call after, events = before ++ .read x call :: after →
      Attributed x call (runEvents before)) ↔
    ∀ before x call after, events = before ++ .read x call :: after →
      SameSource x call (runEvents before) := by
  have hone (before : List (Event sha256Hex)) (x : Lifetime sha256Hex) (call : BalanceCall) :
      Attributed x call (runEvents before) ↔ SameSource x call (runEvents before) :=
    attributed_iff_sameSource (kept_runEvents before subset_rfl)
  constructor
  · exact fun h before x call after heq => (hone before x call).mp (h before x call after heq)
  · exact fun h before x call after heq => (hone before x call).mpr (h before x call after heq)

/-- **A figure under another provider's name**: read from one deployment, and reported by a lifetime
that was configured with another and could not reach it.

**Proof sketch.** The first lifetime saves the figures that the one provider sent. The second has
another provider, which fails, and reports the saved figures under its name; if they were attributed
rightly, the two names would be the same. -/
theorem attributed_elsewhere :
    ¬ ∀ before x call after,
      [.read (lifetimeOf "https://a.example") answeredCall,
        .read (lifetimeOf "https://b.example") failingCall] = before ++ .read x call :: after →
      Attributed x call (runEvents before) := by
  intro hattributed
  have hclock (n : ℤ) (h : (rfc3339Utc n).toBool = true) : ∃ asOf, rfc3339Utc n = .ok asOf := by
    cases hn : rfc3339Utc n with
    | ok asOf => exact ⟨asOf, rfl⟩
    | error e =>
      rw [hn] at h
      cases h
  obtain ⟨asOf, hasOf⟩ := hclock 1700000000 (by decide +kernel)
  have hrun : runEvents [.read (lifetimeOf "https://a.example") answeredCall] =
      Disk.empty.save ⟨[cachedWallet], "https://a.example"⟩ ⟨true⟩ true cachedWallet asOf
        ⟨5, by decide⟩ ⟨-2, by decide⟩ := by
    simp only [runEvents, List.foldl_cons, List.foldl_nil, stepEvent, balancesRead, noRepeats,
      answeredCall, hasOf]
    rfl
  have hsame := (attributed_iff_sameSource (kept_runEvents _ subset_rfl)).mp
    (hattributed [.read (lifetimeOf "https://a.example") answeredCall]
      (lifetimeOf "https://b.example") failingCall [] rfl)
  have hprovider := hsame (by decide) (hclock _ (by decide +kernel)) [] "savings" [] cachedWallet _
    ⟨"savings", "https://a.example", ["bc1qexample0"], cachedWallet.addressHash, asOf,
      ⟨5, by decide⟩, ⟨-2, by decide⟩⟩ rfl rfl rfl rfl (by rw [hrun]; exact ⟨rfl, rfl, by rfl, rfl⟩)
  exact absurd hprovider (show "https://a.example" ≠ "https://b.example" by decide)

end Sumer.Bitcoin
