import Sumer.Lib.Grouping
import Sumer.Lib.StableSort
import Sumer.Store.Freshness
import Sumer.Store.Sample

set_option relaxedAutoImplicit false
set_option autoImplicit false

/-!
# The balances command

What `sumer balances` prints (`core/store/src/main.rs`): for each resource its heading, and one
line for each category that its history has, chosen from all rows of that category. A reply may
carry several lines of one category, in different assets say; each is stored, and the last of them
is the row that its category's line shows.

## Main definitions

* `Sumer.Store.Ledger.cmdBalances`: the command.
* `Sumer.Store.Ledger.ShowsLatest`: every line of the latest read is shown.

## Main results

* `Sumer.Store.balances_shown_iff`: when every line of an accepted reply is shown.
-/

namespace Sumer.Store

open Sumer.Wire Sumer.Money Sumer.Host

/-- The resources, in the order they are listed in. -/
def Db.resourcesInOrder (db : Db) : List ResourceRow :=
  StableSort.sortBy (fun r : ResourceRow => toLex (r.adapterId, r.resourceId)) db.resources

/-- What is shown of one resource: for each category, in their order, what its history gives. -/
def Ledger.balanceFaces (l : Ledger) (adapterId resourceId : String) : List (String × Face) :=
  (Grouping.groups BalanceRow.category (l.balanceHistory adapterId resourceId)).map fun g =>
    (g.1, face g.2)

/-- The lines that are printed for one resource. -/
def Ledger.balanceBlock (l : Ledger) (resource : ResourceRow) : List String :=
  (resource.adapterId ++ "/" ++ resource.resourceId ++ "  " ++ resource.label) ::
    match l.balanceFaces resource.adapterId resource.resourceId with
    | [] => ["  (no balance has ever been read)"]
    | faces => faces.map fun shown => shown.2.text shown.1

/-- The `balances` command. -/
def Ledger.cmdBalances (l : Ledger) : List String :=
  l.db.resourcesInOrder.flatMap l.balanceBlock

/-- Each group's line is the line of its category. -/
lemma balanceFaces_text (l : Ledger) (a r : String) :
    (l.balanceFaces a r).map (fun shown => shown.2.text shown.1) =
      (Grouping.groups BalanceRow.category (l.balanceHistory a r)).map fun g =>
        balanceLine g.1 g.2 := by
  simp only [Ledger.balanceFaces, List.map_map]
  rfl

/-- The stored lines of a resource that the current read of its adapter wrote. -/
def Ledger.latestLines (l : Ledger) (adapterId resourceId : String) : List BalanceRow :=
  (l.balanceHistory adapterId resourceId).filter BalanceRow.fromLatestRead

/-- What a line of the latest read has to show, whatever else that read wrote: its own figure with
its own asset, or that it is unknown. A line without a figure of a resource that was not read
shows the last figure of the reads before, or that there never was one. -/
def Ledger.ownFace (l : Ledger) (adapterId resourceId : String) (row : BalanceRow) : Face :=
  match row.amount, row.staleness == .live with
  | some amount, true => .live amount row
  | some amount, false => .stale amount row
  | none, true => .unknown row
  | none, false =>
    match lastFigure ((l.categoryHistory adapterId resourceId row.category).filter fun earlier =>
      !earlier.fromLatestRead) with
    | some (amount, earlier) => .stale amount earlier
    | none => .unavailable row

/-- Every line of the latest read is shown, each by a printed line of its own. -/
def Ledger.ShowsLatest (l : Ledger) (adapterId resourceId : String) : Prop :=
  ((l.latestLines adapterId resourceId).map fun row =>
    (row.category, l.ownFace adapterId resourceId row)).Subperm
      (l.balanceFaces adapterId resourceId)

section Shown

variable {l : Ledger} {a r : String} {old new : List BalanceRow}

/-- A row after rows of earlier reads shows what it has to. -/
lemma face_concat {earlier : List BalanceRow} {row : BalanceRow}
    (hearlier : (l.categoryHistory a r row.category).filter (fun e => !e.fromLatestRead) = earlier)
    (hlatest : row.fromLatestRead = true) : face (earlier ++ [row]) = l.ownFace a r row := by
  have hlast : (earlier ++ [row]).getLast? = some row := by simp
  unfold face Ledger.ownFace
  rw [hlast, hearlier]
  dsimp only
  rw [hlatest, Bool.true_and]
  cases hamount : row.amount with
  | some amount => cases row.staleness == .live <;> rfl
  | none =>
    cases row.staleness == .live with
    | true => rfl
    | false =>
      have hfigure : lastFigure (earlier ++ [row]) = lastFigure earlier := by
        simp [lastFigure, hamount]
      cases hlastFigure : lastFigure earlier <;> simp [hfigure, hlastFigure]

/-- **When every line of the latest read is shown**: exactly when no two have the same category.
The rows of the latest read stand after all others.

**Proof sketch.** Nothing is printed twice for a category. If no category repeats, the group of a
line is what earlier reads left of its category, and the line itself. -/
lemma showsLatest_iff (hsplit : l.balanceHistory a r = old ++ new)
    (hold : ∀ row ∈ old, row.fromLatestRead = false)
    (hnew : ∀ row ∈ new, row.fromLatestRead = true) :
    l.ShowsLatest a r ↔ ((l.latestLines a r).map BalanceRow.category).Nodup := by
  have hlatest : l.latestLines a r = new := by
    rw [Ledger.latestLines, hsplit, List.filter_append, List.filter_eq_nil_iff.mpr,
      List.filter_eq_self.mpr hnew, List.nil_append]
    exact fun row hrow => by simp [hold row hrow]
  have hcategories (f : BalanceRow → Face) :
      (new.map fun row => (row.category, f row)).map Prod.fst = new.map BalanceRow.category := by
    rw [List.map_map]
    rfl
  rw [Ledger.ShowsLatest, hlatest]
  constructor
  · rintro ⟨shown, hperm, hsub⟩
    have hkeys : ((l.balanceFaces a r).map Prod.fst).Nodup := by
      rw [Ledger.balanceFaces, List.map_map]
      exact Grouping.nodup_groups BalanceRow.category (l.balanceHistory a r)
    have hown := (hperm.map Prod.fst).nodup_iff.mp ((hsub.map Prod.fst).nodup hkeys)
    rwa [hcategories] at hown
  · intro hnodup
    have hpairs : (new.map fun row => (row.category, l.ownFace a r row)).Nodup :=
      List.Nodup.of_map Prod.fst (by rwa [hcategories])
    refine List.subperm_of_subset hpairs fun shown hshown => ?_
    obtain ⟨row, hrow, rfl⟩ := List.mem_map.mp hshown
    -- what the read wrote of the category is this row
    have hone : new.filter (fun other => other.category = row.category) = [row] := by
      have hmem : row ∈ new.filter fun other => other.category = row.category := by
        simpa using hrow
      have honly : ∀ other ∈ new.filter fun other => other.category = row.category,
          other = row := by
        intro other hother
        obtain ⟨hother, hsame⟩ := List.mem_filter.mp hother
        exact List.inj_on_of_nodup_map hnodup hother hrow (of_decide_eq_true hsame)
      have hsub : (new.filter fun other => other.category = row.category).Nodup :=
        (List.Nodup.of_map _ hnodup).filter _
      exact List.perm_singleton.mp ((List.perm_ext_iff_of_nodup hsub (by simp)).mpr fun other =>
        ⟨fun h => List.mem_singleton.mpr (honly other h),
          fun h => List.mem_singleton.mp h ▸ hmem⟩)
    have hgroup : (l.balanceHistory a r).filter (fun other => other.category = row.category) =
        old.filter (fun other => other.category = row.category) ++ [row] := by
      rw [hsplit, List.filter_append, hone]
    have hearlier : (l.categoryHistory a r row.category).filter (fun e => !e.fromLatestRead) =
        old.filter fun other => other.category = row.category := by
      have hcategory : l.categoryHistory a r row.category =
          (l.balanceHistory a r).filter fun other => other.category = row.category :=
        List.filter_congr fun other _ => by rw [Bool.beq_eq_decide_eq]
      rw [hcategory, hgroup, List.filter_append, List.filter_eq_self.mpr]
      · simp [hnew row hrow]
      · intro other hother
        simp [hold other (List.mem_of_mem_filter hother)]
    refine List.mem_map.mpr ⟨(row.category, _), Grouping.mem_groups.mpr ⟨rfl, ?_⟩, ?_⟩
    · rw [hgroup]
      simp
    · rw [hgroup, face_concat hearlier (hnew row hrow)]

end Shown

/-! ### What a refresh leaves for the command -/

/-- A refresh over this connection comes to its balances and accepts the reply. -/
def Ledger.Accepts (texts : Texts) (l : Ledger) (adapterId : String) (v : Visit)
    (read : BalancesRead) : Prop :=
  ∃ opened readId p listed, l.openBalanceRead adapterId = .ok (opened, readId) ∧
    (visitCommits texts opened adapterId v).2 = .ok p ∧ v.listed = .ok listed ∧
    v.read texts listed = .ok read

/-- A command that refreshes this adapter. -/
def Command.Refreshes (adapterId : String) : Command → Prop
  | .refresh other _ _ _ => other = adapterId
  | .connect .. => False

section Latest

variable {c : Crates} {texts : Texts} {l l₁ : Ledger} {a b r : String} {v : Visit} {readId n : ℕ}
  {read : BalancesRead}

/-- Opening a read counts further, and for one adapter only. -/
lemma Ledger.openBalanceRead_counts (h : l.openBalanceRead a = .ok (l₁, readId)) :
    (∀ n, l.balanceRead a = some n → n < readId) ∧
      ∀ b, b ≠ a → l₁.balanceRead b = l.balanceRead b := by
  unfold Ledger.openBalanceRead at h
  cases hopen : l.db.openBalanceRead a with
  | error e => simp [hopen] at h
  | ok opened =>
    obtain ⟨db, id⟩ := opened
    simp only [hopen, Except.ok.injEq, Prod.mk.injEq] at h
    obtain ⟨rfl, rfl⟩ := h
    obtain ⟨-, -, hlt, hother⟩ := Store.openBalanceRead_spec hopen
    exact ⟨hlt, hother⟩

/-- Each state that a refresh commits has all that was there before. -/
lemma grows_refreshCommits (visit : Except HostError Visit) :
    ∀ l' ∈ refreshCommits texts l a visit, l.Grows l' := by
  cases visit with
  | error e => exact fun l' hl' => (refreshCommits_error texts l a e l' hl').1
  | ok v => exact fun l' hl' => (refreshCommits_ok texts l a v l' hl').1

/-- **What an accepted reply leaves**: its lines at the end, under a read that is newer than any
before.

**Proof sketch.** The commits are followed in order. The read is opened first, which takes a number
above every one so far and adds no line; the visit is quiet up to the reply, and then appends its
lines in one commit (`visitCommits_eq`). All the commits are taken, since as many are asked for; and
the sweeps, which come after, write no balance line and leave the reads. -/
lemma refresh_accepts (hdb : l.db.Consistent) (haccepts : l.Accepts texts a v read)
    (options : SweepOptions) {committed : ℕ}
    (hcommitted : (refreshCommits texts l a (.ok v)).length ≤ committed) :
    ∃ readId, (l.refresh c texts a options (.ok v) committed).balances =
        l.balances ++ read.observations.map (fun line =>
          storedBalance a readId line (outcomeOf read.statuses line.resourceId)) ∧
      (l.refresh c texts a options (.ok v) committed).balanceRead a = some readId ∧
      ∀ n, l.balanceRead a = some n → n < readId := by
  obtain ⟨opened, id, p, listed, hopen, hp, hlisted, hread⟩ := haccepts
  have hcommits :
      refreshCommits texts l a (.ok v) = opened :: (visitCommits texts opened a v).1 := by
    simp only [refreshCommits, hopen]
  obtain ⟨-, hbalances, hid⟩ := Ledger.openBalanceRead_spec hopen
  cases hagain : opened.openBalanceRead a with
  | error e => simp [visitCommits, hagain] at hp
  | ok again =>
    obtain ⟨again, readId⟩ := again
    obtain ⟨-, hbalances', hid'⟩ := Ledger.openBalanceRead_spec hagain
    obtain ⟨quiet, stored, hvisit, hquiet, hstored⟩ := visitCommits_eq texts v hagain
    have hmarked := Ledger.Writes.afterCommits hquiet
    rcases hstored with ⟨-, hnever⟩ | ⟨listed', read', last, hlisted', hread', -, happend, rfl⟩
    · exact absurd hread (hnever p listed read hp hlisted)
    obtain rfl := Except.ok.inj (hlisted.symm.trans hlisted')
    obtain rfl := Except.ok.inj (hread.symm.trans hread')
    obtain ⟨hlast, -⟩ := appendLines_eq happend
    -- the sweeps come after the last commit, and touch no balance line
    have hleft : afterCommits l ((refreshCommits texts l a (.ok v)).take committed) = last := by
      rw [List.take_of_length_le hcommitted, hcommits, hvisit]
      simp
    have hwrites : last.Writes (l.refresh c texts a options (.ok v) committed) := by
      have hcons : last.db.Consistent := by
        have hcommits' : ∀ l' ∈ refreshCommits texts l a (.ok v), l.Grows l' :=
          grows_refreshCommits (.ok v)
        have hgrows := afterCommits_take (P := fun l' => l.Grows l') (.refl l) hcommits' committed
        exact hleft ▸ hgrows.consistent hdb
      simp only [Ledger.refresh, hopen, hp, hleft, if_neg (not_lt.mpr hcommitted)]
      exact writes_sweeps c texts hcons options v p
    refine ⟨readId, ?_, ?_, fun n hn => ?_⟩
    · rw [hwrites.balances, hlast]
      simp only [hmarked.balances, hbalances', hbalances]
    · refine (hwrites.keeps.reads a).trans ?_
      rw [hlast]
      exact (hmarked.keeps.reads a).trans hid'
    · exact ((Ledger.openBalanceRead_counts hopen).1 n hn).trans
        ((Ledger.openBalanceRead_counts hagain).1 id hid)

/-- What a refresh commits leaves the reads of the other adapters.

**Proof sketch.** Opening the read counts for its own adapter. What the visit commits after that
marks resources and appends lines, and leaves the counters alone. -/
lemma balanceRead_of_refreshCommits (hne : b ≠ a) (visit : Except HostError Visit) :
    ∀ l' ∈ refreshCommits texts l a visit, l'.balanceRead b = l.balanceRead b := by
  unfold refreshCommits
  cases hopen : l.openBalanceRead a with
  | error e => simp
  | ok opened =>
    obtain ⟨opened, id⟩ := opened
    have hopened := (Ledger.openBalanceRead_counts hopen).2 b hne
    cases visit with
    | error e => simpa using hopened
    | ok v =>
      intro l' hl'
      rcases List.mem_cons.mp hl' with rfl | hl'
      · exact hopened
      refine Eq.trans ?_ hopened
      cases hagain : opened.openBalanceRead a with
      | error e => simp [visitCommits, hagain] at hl'
      | ok again =>
        obtain ⟨again, readId⟩ := again
        have hother := (Ledger.openBalanceRead_counts hagain).2 b hne
        obtain ⟨quiet, stored, hvisit, hquiet, hstored⟩ := visitCommits_eq texts v hagain
        rw [hvisit] at hl'
        rcases List.mem_append.mp hl' with hl' | hl'
        · exact ((hquiet l' hl').keeps.reads b).trans hother
        · rcases hstored with ⟨rfl, -⟩ | ⟨listed, read, last, -, -, -, happend, rfl⟩
          · exact absurd hl' List.not_mem_nil
          · obtain rfl := List.mem_singleton.mp hl'
            rw [(appendLines_eq happend).1]
            exact ((Ledger.Writes.afterCommits hquiet).keeps.reads b).trans hother

/-- **A command that does not refresh an adapter** leaves its read, and adds no line of it.

**Proof sketch.** By `Command.spec` a command only appends lines, and any line it appends belongs
to the read of an adapter that it refreshes. The read of the other adapter is therefore as it
was, and a line of it among the new ones, found at its place, would make the command one that
refreshes it. -/
lemma Command.other (hdb : l.db.Consistent) {x : Command} (hx : ¬ x.Refreshes b)
    (hread : l.balanceRead b = some n) :
    (x.apply c texts l).balanceRead b = some n ∧
      ∃ added, (x.apply c texts l).balances = l.balances ++ added ∧
        ∀ row ∈ added, row.adapterId ≠ b := by
  obtain ⟨hgrows, hrows⟩ := x.spec c texts hdb
  obtain ⟨added, hadded⟩ := hgrows.balances
  refine ⟨?_, added, hadded.symm, fun row hrow hid => ?_⟩
  · cases x with
    | connect adapterId argv derivation listed committed =>
      refine afterCommits_take (P := fun l' => l'.balanceRead b = some n) hread (fun l' hl' => ?_)
        committed
      have hconnected : readOf (l.db.upsertAdapter adapterId argv).adapters b = some n :=
        readOf_upsertAdapter hread
      have hderived : readOf ((l.db.upsertAdapter adapterId argv).setAdapterDerivation adapterId
          derivation).adapters b = some n :=
        (readOf_update
          (f := fun row : AdapterRow => { row with localIdDerivation := some derivation })
          (fun _ => rfl) (fun _ => rfl) _ _).trans hconnected
      rcases List.mem_cons.mp hl' with rfl | hl'
      · exact hconnected
      rcases List.mem_cons.mp hl' with rfl | hl'
      · exact hderived
      · exact (((upsertCommits_spec _ listed).1 l' hl').keeps.reads b).trans hderived
    | refresh adapterId options visit committed =>
      have hne : b ≠ adapterId := fun heq => hx heq.symm
      have hleft := afterCommits_take (P := fun l' => l.Grows l' ∧ l'.balanceRead b = some n)
        ⟨.refl l, hread⟩ (fun l' (hl' : l' ∈ refreshCommits texts l adapterId visit) =>
          ⟨grows_refreshCommits visit l' hl',
            (balanceRead_of_refreshCommits hne visit l' hl').trans hread⟩) committed
      simp only [Command.apply, Ledger.refresh]
      split
      · split
        · split_ifs
          · exact hleft.2
          · exact ((writes_sweeps c texts (hleft.1.consistent hdb) options _ _).keeps.reads b).trans
              hleft.2
        · exact hleft.2
      · exact hleft.2
  · obtain ⟨i, hi⟩ := List.mem_iff_getElem?.mp hrow
    have hat : (x.apply c texts l).balances[l.balances.length + i]? = some row := by
      rw [← hadded, List.getElem?_append_right (by omega)]
      simpa using hi
    obtain ⟨⟨options, v, committed, rfl, -⟩, -⟩ := hrows _ row (by omega) hat
    exact hx hid

/-- Commands that do not refresh an adapter leave its read, and add no line of it. -/
lemma ledgerRun_others (commands : List Command) {after : List Command}
    (hafter : ∀ x ∈ after, ¬ x.Refreshes a)
    (hread : (ledgerRun c texts commands).balanceRead a = some n) :
    (ledgerRun c texts (commands ++ after)).balanceRead a = some n ∧
      ∃ added, (ledgerRun c texts (commands ++ after)).balances =
        (ledgerRun c texts commands).balances ++ added ∧ ∀ row ∈ added, row.adapterId ≠ a := by
  induction after using List.reverseRecOn with
  | nil => exact ⟨by simpa using hread, [], by simp, by simp⟩
  | append_singleton after x ih =>
    obtain ⟨hthen, added, hadded, hothers⟩ :=
      ih fun y hy => hafter y (List.mem_append_left _ hy)
    obtain ⟨hlast, more, hmore, hothers'⟩ :=
      @Command.other c texts _ a n (consistent_ledgerRun c texts (commands ++ after)) x
        (hafter x (by simp)) hthen
    rw [← List.append_assoc, ledgerRun_concat]
    refine ⟨hlast, added ++ more, by rw [hmore, hadded, List.append_assoc], fun row hrow => ?_⟩
    rcases List.mem_append.mp hrow with hrow | hrow
    · exact hothers row hrow
    · exact hothers' row hrow

/-- No stored line is of a read that has yet to be opened. -/
lemma readId_le (commands : List Command) {row : StoredBalance}
    (hrow : row ∈ (ledgerRun c texts commands).balances) :
    ∃ n, (ledgerRun c texts commands).balanceRead row.adapterId = some n ∧ row.readId ≤ n := by
  obtain ⟨i, hi⟩ := List.mem_iff_getElem?.mp hrow
  obtain ⟨before, x, after, rfl, -, -, -, hread, -⟩ := exists_stores c texts commands hi
  have hgrows := grows_ledgerRun c texts (before ++ [x]) after
  rw [List.append_assoc, List.singleton_append] at hgrows
  exact hgrows.reads _ _ hread

/-- The resource of a stored line is known. -/
lemma hasResource_of_mem (commands : List Command) {row : StoredBalance}
    (hrow : row ∈ (ledgerRun c texts commands).balances) :
    (ledgerRun c texts commands).db.HasResource row.adapterId row.resourceId := by
  obtain ⟨i, hi⟩ := List.mem_iff_getElem?.mp hrow
  obtain ⟨before, x, after, rfl, -, -, -, -, hresource⟩ := exists_stores c texts commands hi
  have hgrows := grows_ledgerRun c texts (before ++ [x]) after
  rw [List.append_assoc, List.singleton_append] at hgrows
  exact hgrows.resources _ _ hresource

/-- What a line of the balance table shows in a history. -/
def lineOf (row : BalanceRow) :
    String × Option CanonicalHint × Option Amount × String × Rfc3339 × Staleness :=
  (row.category, row.canonicalHint, row.amount, row.providerId, row.receivedAt, row.staleness)

/-- What a line of a reply has to show. -/
def lineOfBalance (b : Balance) :
    String × Option CanonicalHint × Option Amount × String × Rfc3339 × Staleness :=
  (b.category, b.canonicalHint, b.amount, b.provenance.providerId, b.provenance.receivedAt,
    b.provenance.staleness)

/-- The lines of a reply that are of one resource. -/
def linesOf (read : BalancesRead) (resourceId : String) : List Balance :=
  read.observations.filter (·.resourceId == resourceId)

/-- What is kept of numbered elements by themselves, without the numbers. -/
lemma map_filter_zipIdx {α β : Type} (p : α → Bool) (f : α → β) (xs : List α) (k : ℕ) :
    ((xs.zipIdx k).filter fun x => p x.1).map (fun x => f x.1) = (xs.filter p).map f := by
  conv_rhs => rw [← List.zipIdx_map_fst k xs, List.filter_map, List.map_map]
  rfl

/-- **A history after a read**: the rows of earlier reads, then those of the latest.

**Proof sketch.** The table is in three parts, and the rows of one adapter and resource are taken
from each in order. None of the last part is of the adapter. Those of the first part are of another
read than the latest, so they are marked as earlier; those of the middle part are the lines of the
reply under the latest read, and are marked so. The indices that the rows are numbered with play no
part (`map_filter_zipIdx`). -/
lemma balanceHistory_split {xs zs : List StoredBalance}
    (hbalances : l.balances = xs ++ read.observations.map (fun line =>
      storedBalance a readId line (outcomeOf read.statuses line.resourceId)) ++ zs)
    (hread : l.balanceRead a = some readId)
    (hxs : ∀ row ∈ xs, row.adapterId = a → row.readId ≠ readId)
    (hzs : ∀ row ∈ zs, row.adapterId ≠ a) :
    ∃ old new, l.balanceHistory a r = old ++ new ∧
      (∀ row ∈ old, row.fromLatestRead = false) ∧ (∀ row ∈ new, row.fromLatestRead = true) ∧
      new.map lineOf = (linesOf read r).map lineOfBalance := by
  have hnone (k : ℕ) : (zs.zipIdx k).filter (fun x => x.1.adapterId == a && x.1.resourceId == r) =
      [] := by
    refine List.filter_eq_nil_iff.mpr fun x hx => ?_
    have hmem : x.1 ∈ zs := List.fst_mem_of_mem_zipIdx hx
    simp [hzs x.1 hmem]
  obtain ⟨ys, hys⟩ : ∃ ys, ys = read.observations.map fun line =>
      storedBalance a readId line (outcomeOf read.statuses line.resourceId) := ⟨_, rfl⟩
  rw [← hys] at hbalances
  refine ⟨((xs.zipIdx 1).filter fun x => x.1.adapterId == a && x.1.resourceId == r).map
      fun x => l.balanceRow x.1 x.2,
    ((ys.zipIdx (1 + xs.length)).filter fun x => x.1.adapterId == a && x.1.resourceId == r).map
      fun x => l.balanceRow x.1 x.2, ?_, fun row hrow => ?_, fun row hrow => ?_, ?_⟩
  · rw [Ledger.balanceHistory, hbalances, List.zipIdx_append, List.zipIdx_append,
      List.filter_append, List.filter_append, hnone, List.append_nil, List.map_append]
  · obtain ⟨x, hx, rfl⟩ := List.mem_map.mp hrow
    obtain ⟨hmem, hkey⟩ := List.mem_filter.mp hx
    simp only [Bool.and_eq_true, beq_iff_eq] at hkey
    have hne := hxs x.1 (List.fst_mem_of_mem_zipIdx hmem) hkey.1
    simp [Ledger.balanceRow, hkey.1, hread, Ne.symm hne]
  · obtain ⟨x, hx, rfl⟩ := List.mem_map.mp hrow
    obtain ⟨line, -, hline⟩ :=
      List.mem_map.mp (hys ▸ List.fst_mem_of_mem_zipIdx (List.mem_filter.mp hx).1)
    simp [Ledger.balanceRow, ← hline, storedBalance, hread]
  · rw [List.map_map]
    refine (map_filter_zipIdx (fun row : StoredBalance => row.adapterId == a && row.resourceId == r)
      (fun row => (row.category, row.canonicalHint, row.amount, row.providerId, row.receivedAt,
        row.staleness)) _ _).trans ?_
    rw [hys, List.filter_map, List.map_map, linesOf]
    have hkey : ((fun row : StoredBalance => row.adapterId == a && row.resourceId == r) ∘
        fun line => storedBalance a readId line (outcomeOf read.statuses line.resourceId)) =
        fun line => line.resourceId == r := by
      funext line
      simp [storedBalance]
    rw [hkey]
    rfl

/-- What is shown of a resource is printed. -/
lemma faces_infix_cmdBalances (h : l.db.HasResource a r) :
    (l.balanceFaces a r).map (fun shown => shown.2.text shown.1) <:+: l.cmdBalances := by
  obtain ⟨resource, hmem, rfl, rfl⟩ := h
  obtain ⟨first, rest, hsplit⟩ := List.append_of_mem
    ((StableSort.perm_sortBy (fun r : ResourceRow => toLex (r.adapterId, r.resourceId))
      l.db.resources).mem_iff.mpr hmem)
  have hblock : (l.balanceFaces resource.adapterId resource.resourceId).map
      (fun shown => shown.2.text shown.1) <:+: l.balanceBlock resource := by
    unfold Ledger.balanceBlock
    cases hfaces : l.balanceFaces resource.adapterId resource.resourceId with
    | nil => exact List.nil_infix
    | cons shown more => exact (List.suffix_cons _ _).isInfix
  refine hblock.trans ⟨first.flatMap l.balanceBlock, rest.flatMap l.balanceBlock, ?_⟩
  rw [Ledger.cmdBalances, Db.resourcesInOrder, hsplit, List.flatMap_append, List.flatMap_cons,
    List.append_assoc]

/-- The latest read after a reply was accepted.

**Proof sketch.** The accepted reply leaves its lines at the end, under a read that is newer than
any before (`refresh_accepts`); the commands after it add lines of other adapters only, and leave
the read (`Command.other`). So the history of the resource is what was there, none of it of the
latest read, followed by the lines of the reply (`balanceHistory_split`). The three parts are read
off this split: the latest lines are the second half, its rows have a known resource, so their faces
are printed, and they are all shown when no category repeats. -/
lemma latest_of_accepts (c : Crates) (texts : Texts) {before after : List Command} (r : String)
    (options : SweepOptions) {committed : ℕ}
    (haccepts : (ledgerRun c texts before).Accepts texts a v read)
    (hcommitted :
      (refreshCommits texts (ledgerRun c texts before) a (.ok v)).length ≤ committed)
    (hafter : ∀ x ∈ after, ¬ x.Refreshes a)
    (hl : l = ledgerRun c texts (before ++ .refresh a options (.ok v) committed :: after)) :
    (l.latestLines a r).map lineOf = (linesOf read r).map lineOfBalance ∧
      (linesOf read r ≠ [] →
        (l.balanceFaces a r).map (fun shown => shown.2.text shown.1) <:+: l.cmdBalances) ∧
      (l.ShowsLatest a r ↔ ((linesOf read r).map Balance.category).Nodup) := by
  have hcons := consistent_ledgerRun c texts before
  obtain ⟨readId, hstored, hread, hnewer⟩ := refresh_accepts (c := c) hcons haccepts options
    hcommitted
  have hrefreshed : ledgerRun c texts (before ++ [.refresh a options (.ok v) committed]) =
      (ledgerRun c texts before).refresh c texts a options (.ok v) committed :=
    ledgerRun_concat c texts before _
  rw [← hrefreshed] at hstored hread
  obtain ⟨hlast, others, hothers, hforeign⟩ :=
    ledgerRun_others (before ++ [.refresh a options (.ok v) committed]) hafter hread
  rw [List.append_assoc, List.singleton_append, ← hl] at hlast hothers
  rw [hstored] at hothers
  have hbefore : ∀ row ∈ (ledgerRun c texts before).balances, row.adapterId = a →
      row.readId ≠ readId := by
    intro row hrow hid hsame
    obtain ⟨n, hn, hle⟩ := readId_le before hrow
    rw [hid] at hn
    exact absurd (hsame ▸ hle) (not_le.mpr (hnewer n hn))
  obtain ⟨old, new, hsplit, hold, hnew, hlines⟩ :=
    balanceHistory_split (r := r) hothers hlast hbefore hforeign
  have hlatest : l.latestLines a r = new := by
    rw [Ledger.latestLines, hsplit, List.filter_append, List.filter_eq_nil_iff.mpr,
      List.filter_eq_self.mpr hnew, List.nil_append]
    exact fun row hrow => by simp [hold row hrow]
  refine ⟨by rw [hlatest, hlines], fun hne => ?_, ?_⟩
  · -- a line of the reply is a stored row, and its resource is known
    obtain ⟨line, hline⟩ := List.exists_mem_of_ne_nil _ hne
    obtain ⟨hmem, hof⟩ := List.mem_filter.mp hline
    have hrow : storedBalance a readId line (outcomeOf read.statuses line.resourceId) ∈
        l.balances := by
      rw [hothers]
      exact List.mem_append_left _ (List.mem_append_right _ (List.mem_map.mpr ⟨line, hmem, rfl⟩))
    have hid : line.resourceId = r := by simpa using hof
    exact faces_infix_cmdBalances (hid ▸ hl ▸ hasResource_of_mem _ (hl ▸ hrow))
  · rw [showsLatest_iff hsplit hold hnew, hlatest]
    have hcategories := congrArg (List.map Prod.fst) hlines
    rw [List.map_map, List.map_map] at hcategories
    exact iff_of_eq (congrArg List.Nodup hcategories)

end Latest

/-! ### An account in two currencies -/

namespace Sample

/-- An account as an adapter of two currencies lists it. -/
def account : ResourceDescriptor := ⟨"main", "bank.example", "account", "Main", none⟩

/-- A line of that account. -/
def accountLine (category : String) (amount : Amount) : BalanceWire where
  resourceId := "main"
  category := category
  canonicalHint := none
  amount := some amount
  provenance := ⟨"bank", "bank.example", "balances", day₁, none, .complete⟩

/-- 20 euros. -/
def euros20 : Amount := ⟨⟨"EUR", by decide⟩, 20, 0, by decide, zero_le_maxScale⟩

/-- 7 dollars. -/
def dollars7 : Amount := ⟨⟨"USD", by decide⟩, 7, 0, by decide, zero_le_maxScale⟩

/-- A connection over which the account is listed and read. -/
def accountVisit (lines : List BalanceWire) : Visit where
  helloAdapterId := "bank"
  helloDerivation := "v1"
  listed := .ok [account]
  statuses := .ok [⟨"main", .fetched false, [], none, none⟩]
  balances := .ok (⟨lines, [⟨"main", .fetched false, [], none, none⟩]⟩, day₂)
  script _ := script day₂ []

/-- Sizes and debug texts. -/
def texts : Texts := ⟨fun _ => 200, fun id => id⟩

/-- The adapter was connected. -/
def connected : List Command := [.connect "bank" ["bank-adapter"] "v1" [] 2]

/-- What the host reads of some lines. -/
def accountRead (lines : List BalanceWire) : BalancesRead :=
  ⟨lines.map fun wire => Balance.stamp wire day₂ .live, [⟨"main", .fetched false, [], none, none⟩]⟩

/-- Two lines are accepted, whatever their categories and figures. -/
lemma accepts_two (category category' : String) (amount amount' : Amount) :
    (ledgerRun crates texts connected).Accepts texts "bank"
      (accountVisit [accountLine category amount, accountLine category' amount'])
      (accountRead [accountLine category amount, accountLine category' amount']) :=
  ⟨_, _, _, _, rfl, rfl, rfl, rfl⟩

end Sample

/-- **When every line of the latest read is shown.** A refresh of an adapter accepts a
`balances.read` reply and commits its lines; any commands follow, none of which refreshes that
adapter. Then, for every resource:

1. The stored lines of the latest read are those of the reply, in its order.
2. If it has any, what is shown of the resource is printed.
3. Every one of them is shown, with its own figure and asset and by a printed line of its own, if
   and only if no two of them have the same category.

**Proof sketch.** The rows of the reply stand at the end of the adapter's history, under a read
that is newer than any before and stays the current one, so that `showsLatest_iff` applies. -/
theorem balances_shown_iff (c : Crates) (texts : Texts) (before after : List Command) (a r : String)
    (options : SweepOptions) (v : Visit) (committed : ℕ) (read : BalancesRead)
    (haccepts : (ledgerRun c texts before).Accepts texts a v read)
    (hcommitted :
      (refreshCommits texts (ledgerRun c texts before) a (.ok v)).length ≤ committed)
    (hafter : ∀ x ∈ after, ¬ x.Refreshes a) :
    let l := ledgerRun c texts (before ++ .refresh a options (.ok v) committed :: after)
    (l.latestLines a r).map lineOf = (linesOf read r).map lineOfBalance ∧
      (linesOf read r ≠ [] →
        (l.balanceFaces a r).map (fun shown => shown.2.text shown.1) <:+: l.cmdBalances) ∧
      (l.ShowsLatest a r ↔ ((linesOf read r).map Balance.category).Nodup) := by
  intro l
  exact latest_of_accepts c texts r options haccepts hcommitted hafter rfl

/-- Two lines of different categories are both shown. -/
theorem balances_shown_two :
    let l := ledgerRun Sample.crates Sample.texts (Sample.connected ++
      [.refresh "bank" ⟨false, false⟩ (.ok (Sample.accountVisit
        [Sample.accountLine "booked" Sample.euros20,
          Sample.accountLine "held" Sample.dollars7])) 5])
    (l.latestLines "bank" "main").length = 2 ∧ l.ShowsLatest "bank" "main" := by
  have h := balances_shown_iff Sample.crates Sample.texts Sample.connected [] "bank" "main"
    ⟨false, false⟩ (Sample.accountVisit
      [Sample.accountLine "booked" Sample.euros20, Sample.accountLine "held" Sample.dollars7]) 5
    (Sample.accountRead
      [Sample.accountLine "booked" Sample.euros20, Sample.accountLine "held" Sample.dollars7])
    (Sample.accepts_two "booked" "held" _ _) (le_of_eq rfl) (by simp)
  have hlength := congrArg List.length h.1
  rw [List.length_map, List.length_map] at hlength
  exact ⟨hlength.trans (by decide), h.2.2.mpr (by decide)⟩

/-- Of two lines of one category, in euros and in dollars, only the second is shown. -/
theorem balances_shown_hidden :
    ¬ ∀ (c : Crates) (texts : Texts) (before after : List Command) (a r : String)
      (options : SweepOptions) (v : Visit) (committed : ℕ) (read : BalancesRead),
      (ledgerRun c texts before).Accepts texts a v read →
      (refreshCommits texts (ledgerRun c texts before) a (.ok v)).length ≤ committed →
      (∀ x ∈ after, ¬ x.Refreshes a) →
      (ledgerRun c texts (before ++ .refresh a options (.ok v) committed :: after)).ShowsLatest
        a r := by
  intro h
  have haccepts := Sample.accepts_two "booked" "booked" Sample.euros20 Sample.dollars7
  have hshown := h Sample.crates Sample.texts Sample.connected [] "bank" "main" ⟨false, false⟩ _ 5 _
    haccepts (le_of_eq rfl) (by simp)
  have hnodup := (latest_of_accepts Sample.crates Sample.texts "main" ⟨false, false⟩ haccepts
    (le_of_eq rfl) (show ∀ x ∈ [], ¬ Command.Refreshes "bank" x by simp) rfl).2.2.mp hshown
  exact absurd hnodup (by decide)

example : (ledgerRun Sample.crates Sample.texts (Sample.connected ++
    [.refresh "bank" ⟨false, false⟩ (.ok (Sample.accountVisit
      [Sample.accountLine "booked" Sample.euros20,
        Sample.accountLine "booked" Sample.dollars7])) 5])).cmdBalances =
    ["bank/main  Main",
      "  booked                      7 USD   live · bank.example · 00:00:00Z"] := by
  decide +kernel

end Sumer.Store
