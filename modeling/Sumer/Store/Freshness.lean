import Sumer.Store.Balances
import Sumer.Store.Refresh

set_option relaxedAutoImplicit false
set_option autoImplicit false

/-!
# The freshness of balances

A refresh with its balance lines (`core/store/src/refresh.rs`), one committed statement after the
other, so that it can stop after any of them: the process died, a call failed, or a statement did.
A read is opened before the adapter is spawned and again when its connection is up; every line the
refresh stores carries the second.

## Main definitions

* `Sumer.Store.Visit`: what an adapter answers over one connection.
* `Sumer.Store.visitCommits`, `Sumer.Store.refreshCommits`: the states a refresh commits.
* `Sumer.Store.ledgerRun`: the tables after any sequence of connections and refreshes.

## Main results

* `Sumer.Store.visitCommits_prepareRefresh`: without its lines a refresh is `prepareRefresh`.
* `Sumer.Store.balance_freshness`: what a line that is rendered live says.
-/

namespace Sumer.Store

open Sumer.Wire Sumer.Host

/-- What an adapter answers over one connection. The balances reply comes decoded, with its
receipt time. -/
structure Visit where
  helloAdapterId : String
  helloDerivation : String
  listed : Except HostError (List ResourceDescriptor)
  statuses : Except HostError (List ResourceStatus)
  balances : Except HostError (BalancesReply × Rfc3339)
  script : ℕ → Script

/-- Opens a balance read. -/
def Ledger.openBalanceRead (l : Ledger) (adapterId : String) : Except StoreError (Ledger × ℕ) :=
  match l.db.openBalanceRead adapterId with
  | .error e => .error e
  | .ok (db, readId) => .ok ({ l with db }, readId)

/-- The error of a line whose resource has no status. -/
def noStatusOf (resourceId : String) : StoreError :=
  .host ("balances.read reply carried a balance for resource " ++ debugId resourceId ++
    " with no status of its own")

/-- Appends the lines of a reply. -/
def Ledger.appendLines (adapterId : String) (readId : ℕ) (statuses : List ResourceStatus) :
    Ledger → List Balance → Except StoreError Ledger
  | l, [] => .ok l
  | l, balance :: rest =>
    match statuses.find? (·.resourceId == balance.resourceId) with
    | none => .error (noStatusOf balance.resourceId)
    | some status =>
      (l.appendBalance adapterId readId balance (outcomeLabel status.outcome)).appendLines
        adapterId readId statuses rest

/-- The states in which the resources of a listing are written down, up to the first that fails. -/
def upsertCommits (adapterId : String) :
    Ledger → List ResourceDescriptor → List Ledger × Option StoreError
  | _, [] => ([], none)
  | l, descriptor :: rest =>
    match l.db.upsertResource adapterId descriptor.resourceId descriptor.kind descriptor.label with
    | .error e => ([], some e)
    | .ok db =>
      let (commits, failed) := upsertCommits adapterId { l with db } rest
      ({ l with db } :: commits, failed)

/-- The state after the first commits of some, from a state before them. -/
def afterCommits (l : Ledger) (commits : List Ledger) : Ledger := commits.getLast?.getD l

/-- The reply of `balances.read`, as the host takes it in. -/
def Visit.read (texts : Texts) (v : Visit) (listed : List ResourceDescriptor) :
    Except HostError BalancesRead :=
  match v.balances with
  | .error e => .error e
  | .ok (raw, receivedAt) =>
    balancesRead texts v.helloAdapterId (listed.map ResourceDescriptor.resourceId) raw receivedAt

/-- The states that a refresh over one connection commits before its sweeps, and what it knows
then. -/
def visitCommits (texts : Texts) (l : Ledger) (adapterId : String) (v : Visit) :
    List Ledger × Except StoreError Prepared :=
  match l.openBalanceRead adapterId with
  | .error e => ([], .error e)
  | .ok (opened, readId) =>
    if v.helloAdapterId ≠ adapterId then
      ([opened], .error (helloMismatch v.helloAdapterId adapterId))
    else
      match v.listed with
      | .error e => ([opened], .error (.host ("resources.list failed: " ++ e.display)))
      | .ok listed =>
        let (upserted, failed) := upsertCommits adapterId opened listed
        let written := afterCommits opened upserted
        match failed with
        | some e => (opened :: upserted, .error e)
        | none =>
          match v.statuses with
          | .error e =>
            (opened :: upserted, .error (.host ("status.read failed: " ++ e.display)))
          | .ok statuses =>
            let marked := { written with
              db := written.db.setNeedsReauth adapterId (needsReauth statuses) }
            match v.read texts listed with
            | .error e =>
              (opened :: upserted ++ [marked], .ok ⟨listed, statuses,
                if brokeTheContract e then
                  some ("balances.read broke the wire contract: " ++ e.display)
                else none,
                ["balances.read failed: " ++ e.display]⟩)
            | .ok read =>
              match marked.appendLines adapterId readId read.statuses read.observations with
              | .error e => (opened :: upserted ++ [marked], .error e)
              | .ok stored =>
                (opened :: upserted ++ [marked, stored], .ok ⟨listed, statuses, none, []⟩)

/-- The states that a refresh of one adapter commits before its sweeps. The spawn may fail. -/
def refreshCommits (texts : Texts) (l : Ledger) (adapterId : String)
    (visit : Except HostError Visit) : List Ledger :=
  match l.openBalanceRead adapterId with
  | .error _ => []
  | .ok (opened, _) =>
    match visit with
    | .error _ => [opened]
    | .ok v => opened :: (visitCommits texts opened adapterId v).1

/-- The states that connecting an adapter commits. -/
def connectCommits (l : Ledger) (adapterId : String) (argv : List String) (derivation : String)
    (listed : List ResourceDescriptor) : List Ledger :=
  let connected := { l with db := l.db.upsertAdapter adapterId argv }
  let derived := { l with db := connected.db.setAdapterDerivation adapterId derivation }
  connected :: derived :: (upsertCommits adapterId derived listed).1

/-- A visit without its lines. -/
def Visit.session (texts : Texts) (v : Visit) : Session where
  helloAdapterId := v.helloAdapterId
  helloDerivation := v.helloDerivation
  listed := v.listed
  statuses := v.statuses
  balances :=
    match v.listed with
    | .error e => .error e
    | .ok listed => (v.read texts listed).map fun _ => none
  script := v.script

/-- The sweeps of a refresh that got to them. -/
def Ledger.sweeps (c : Crates) (texts : Texts) (l : Ledger) (adapterId : String)
    (options : SweepOptions) (v : Visit) (p : Prepared) : Ledger :=
  { l with
    db := (sweepEach c (sweepInput c adapterId options (v.session texts) p.statuses) p.errors l.db
      p.connectionViolation (p.listed.zipIdx.map fun d => (d.1, v.script d.2))).db }

/-- One command. `committed` is how many of its statements before the sweeps committed before it
was stopped, if it was; a sweep is stopped by its script. -/
inductive Command where
  | connect (adapterId : String) (argv : List String) (derivation : String)
      (listed : List ResourceDescriptor) (committed : ℕ)
  | refresh (adapterId : String) (options : SweepOptions) (visit : Except HostError Visit)
      (committed : ℕ)

/-- A refresh of one adapter whose first statements committed. -/
def Ledger.refresh (c : Crates) (texts : Texts) (l : Ledger) (adapterId : String)
    (options : SweepOptions) (visit : Except HostError Visit) (committed : ℕ) : Ledger :=
  let commits := refreshCommits texts l adapterId visit
  let left := afterCommits l (commits.take committed)
  match visit, l.openBalanceRead adapterId with
  | .ok v, .ok (opened, _) =>
    match (visitCommits texts opened adapterId v).2 with
    | .ok p =>
      if committed < commits.length then left else left.sweeps c texts adapterId options v p
    | .error _ => left
  | _, _ => left

/-- The tables after a command. -/
def Command.apply (c : Crates) (texts : Texts) (l : Ledger) : Command → Ledger
  | .connect adapterId argv derivation listed committed =>
    afterCommits l ((connectCommits l adapterId argv derivation listed).take committed)
  | .refresh adapterId options visit committed =>
    l.refresh c texts adapterId options visit committed

/-- The tables after a sequence of commands from a new profile. -/
def ledgerRun (c : Crates) (texts : Texts) (commands : List Command) : Ledger :=
  commands.foldl (Command.apply c texts) Ledger.empty

/-- A resource of an adapter is known. -/
def Db.HasResource (db : Db) (a r : String) : Prop :=
  ∃ row ∈ db.resources, row.adapterId = a ∧ row.resourceId = r

/-- The read counter of an adapter, in a list of adapters. -/
def readOf (adapters : List AdapterRow) (a : String) : Option ℕ :=
  (adapters.find? (·.adapterId == a)).map AdapterRow.balanceRead

/-! ### Adapters and resources -/

section Tables

variable {db db' : Db} {a b r : String}

/-- Looking up a row by its id, after an update that keeps the ids. -/
lemma find?_update {f : AdapterRow → AdapterRow} (hid : ∀ row, (f row).adapterId = row.adapterId)
    (p : AdapterRow → Bool) (rows : List AdapterRow) :
    (update p f rows).find? (·.adapterId == a) =
      (rows.find? (·.adapterId == a)).map fun row => if p row then f row else row := by
  have hkey : ((·.adapterId == a) ∘ fun row => if p row then f row else row) =
      fun row : AdapterRow => row.adapterId == a := by
    funext row
    simp only [Function.comp_apply]
    split_ifs
    · rw [hid]
    · rfl
  rw [update, List.find?_map, hkey]

/-- An update that keeps the ids and the counters. -/
lemma readOf_update {f : AdapterRow → AdapterRow} (hid : ∀ row, (f row).adapterId = row.adapterId)
    (hread : ∀ row, (f row).balanceRead = row.balanceRead) (p : AdapterRow → Bool)
    (rows : List AdapterRow) : readOf (update p f rows) a = readOf rows a := by
  rw [readOf, find?_update hid, Option.map_map, readOf]
  congr 1
  funext row
  simp only [Function.comp_apply]
  split_ifs
  · exact hread row
  · rfl

/-- Rows that are updated in place stay. -/
lemma hasResource_update {f : ResourceRow → ResourceRow} {p : ResourceRow → Bool}
    (hid : ∀ row, (f row).adapterId = row.adapterId ∧ (f row).resourceId = row.resourceId)
    (hrows : db'.resources = update p f db.resources) (h : db.HasResource a r) :
    db'.HasResource a r := by
  obtain ⟨row, hrow, hadapter, hresource⟩ := h
  refine ⟨if p row then f row else row, hrows ▸ mem_update.mpr ⟨row, hrow, rfl⟩, ?_⟩
  split_ifs
  · rw [(hid row).1, (hid row).2]
    exact ⟨hadapter, hresource⟩
  · exact ⟨hadapter, hresource⟩

/-- Opening a read counts one more for its adapter, and for no other.

**Proof sketch.** The row of the adapter is found, and written back with a counter that is one
higher. It is found again with the new counter, and the rows of the other adapters are as they
were. -/
lemma openBalanceRead_spec {readId : ℕ} (h : db.openBalanceRead b = .ok (db', readId)) :
    readOf db'.adapters b = some readId ∧ db'.resources = db.resources ∧
      (∀ n, readOf db.adapters b = some n → n < readId) ∧
      ∀ a, a ≠ b → readOf db'.adapters a = readOf db.adapters a := by
  unfold Db.openBalanceRead at h
  cases hfind : db.adapters.find? (·.adapterId == b) with
  | none => simp [hfind] at h
  | some row =>
    simp only [hfind, Except.ok.injEq, Prod.mk.injEq] at h
    obtain ⟨rfl, rfl⟩ := h
    have hid : row.adapterId = b := by simpa using List.find?_some hfind
    have hlookup (a : String) := find?_update (a := a)
      (f := fun row : AdapterRow => { row with balanceRead := row.balanceRead + 1 })
      (fun _ => rfl) (·.adapterId == b) db.adapters
    refine ⟨?_, rfl, ?_, ?_⟩
    · simp only [readOf, hlookup, hfind]
      simp [hid]
    · intro n hn
      rw [readOf, hfind] at hn
      obtain rfl : row.balanceRead = n := by simpa using hn
      omega
    · intro a hne
      simp only [readOf, hlookup]
      cases hother : db.adapters.find? (·.adapterId == a) with
      | none => rfl
      | some other =>
        have hother : other.adapterId = a := by simpa using List.find?_some hother
        have hb : ¬ other.adapterId = b := by rwa [hother]
        simp [hb]

/-- Connecting an adapter leaves the counters there are. -/
lemma readOf_upsertAdapter {argv : List String} {n : ℕ} (h : readOf db.adapters a = some n) :
    readOf (db.upsertAdapter b argv).adapters a = some n := by
  unfold Db.upsertAdapter
  split_ifs
  · exact (readOf_update (f := fun row : AdapterRow => { row with argv := argv })
      (fun _ => rfl) (fun _ => rfl) _ _).trans h
  · rw [readOf] at h ⊢
    cases hfind : db.adapters.find? (·.adapterId == a) with
    | none => simp [hfind] at h
    | some row => simpa [List.find?_append, hfind] using h

/-- Writing a resource down makes it known, keeps every other one known, and leaves the adapters
with their counters.

**Proof sketch.** A resource that is there has its other columns rewritten, and one that is not gets
a row; the keys of the other rows are left alone. -/
lemma upsertResource_spec {kind label : String} (h : db.upsertResource b r kind label = .ok db') :
    db'.adapters = db.adapters ∧ db'.HasResource b r ∧
      ∀ a r, db.HasResource a r → db'.HasResource a r := by
  unfold Db.upsertResource at h
  dsimp only at h
  split_ifs at h with hsame hadapter
  · obtain rfl := Except.ok.inj h
    have hkeep (a r' : String) (hresource : db.HasResource a r') :
        Db.HasResource { db with
          resources := update (fun row => row.adapterId == b && row.resourceId == r)
            ({ · with kind := kind, label := label }) db.resources } a r' :=
      hasResource_update (f := fun row : ResourceRow => { row with kind := kind, label := label })
        (p := fun row => row.adapterId == b && row.resourceId == r)
        (fun _ => ⟨rfl, rfl⟩) rfl hresource
    obtain ⟨row, hrow, hkey⟩ := List.any_eq_true.mp hsame
    simp only [Bool.and_eq_true, beq_iff_eq] at hkey
    exact ⟨rfl, hkeep b r ⟨row, hrow, hkey⟩, hkeep⟩
  · obtain rfl := Except.ok.inj h
    refine ⟨rfl, ⟨_, List.mem_append_right _ (List.mem_singleton_self _), rfl, rfl⟩, ?_⟩
    rintro a r ⟨row, hrow, hkey⟩
    exact ⟨row, List.mem_append_left _ hrow, hkey⟩

end Tables

/-- Tables that have the same read counters, and at least the same resources. -/
structure Db.Keeps (db db' : Db) : Prop where
  reads : ∀ a, readOf db'.adapters a = readOf db.adapters a
  resources : ∀ a r, db.HasResource a r → db'.HasResource a r

section Sweeps

variable {c : Crates} {db db₁ db₂ db₃ : Db} {input : SweepInput} {script : Script}
  {k : OpenCrawl} {events : List Event} {out : SweepRun} {a : String}

/-- A store keeps what it has. -/
lemma Db.Keeps.refl (db : Db) : db.Keeps db := ⟨fun _ => rfl, fun _ _ => id⟩

/-- What is kept twice is kept. -/
lemma Db.Keeps.trans (h : db₁.Keeps db₂) (h' : db₂.Keeps db₃) : db₁.Keeps db₃ :=
  ⟨fun a => (h'.reads a).trans (h.reads a), fun a r hr => h'.resources a r (h.resources a r hr)⟩

/-- A store with the same adapters and resources keeps them. -/
lemma Db.Keeps.of_eq (hadapters : db₂.adapters = db₁.adapters)
    (hresources : db₂.resources = db₁.resources) : db₁.Keeps db₂ :=
  ⟨fun a => by rw [hadapters], fun a r => by simp only [Db.HasResource, hresources, imp_self]⟩

/-- Closing the books of a sweep keeps the known resources and the counters of the reads. -/
lemma Db.keeps_closeBooks {drained complete : Bool} {reason : Option String} (crawlId : ℕ) :
    db.Keeps (db.closeBooks input crawlId drained complete reason) where
  reads _ := readOf_update
    (f := fun row : AdapterRow => { row with localIdDerivation := some input.helloDerivation })
    (fun _ => rfl) (fun _ => rfl) _ _
  resources _ _ := hasResource_update
    (f := fun row : ResourceRow => { row with
      fingerprint := some input.fingerprint
      lastProviderId := (if complete then some input.providerId else none).or row.lastProviderId })
    (fun _ => ⟨rfl, rfl⟩) rfl

/-- The pages of a sweep keep the adapters and the resources: they only store observations. -/
lemma Db.keeps_afterPages (pages : List HistoryRead) : db.Keeps (afterPages c k db pages) := by
  refine .of_eq ?_ (resources_afterPages pages)
  unfold afterPages
  split_ifs <;> simp [Db.setCrawlCursor]

/-- No end of a sweep opens a read or removes a resource. -/
lemma Ends.keeps (h : Ends c script k db₁ events out) : db₁.Keeps out.db := by
  have hfinal (pages : List HistoryRead) (read : HistoryRead) :
      db₁.Keeps (finalObserved c k db₁ pages read) :=
    (Db.keeps_afterPages pages).trans
      (.of_eq Db.adapters_observeAll Db.resources_observeAll)
  cases h with
  | cut hat => exact hat.db ▸ Db.keeps_afterPages _
  | early hat =>
    have hpages (pages : List HistoryRead) : db₁.Keeps (afterPages c k db₁ pages) :=
      Db.keeps_afterPages pages
    exact (hat.db ▸ hpages _).trans (.of_eq rfl rfl)
  | partialSweep => exact (hfinal _ _).trans (Db.keeps_closeBooks _)
  | @complete events s read =>
    refine (hfinal s.committed read).trans ?_
    simp only [completed]
    refine .trans ?_ (Db.keeps_closeBooks _)
    exact .of_eq rfl rfl

/-- No sweep opens a read or removes a resource. -/
lemma keeps_sweepResource (hdb : db.Consistent) :
    db.Keeps (sweepResource c db input script).db := by
  rcases sweep_outcome (some MAX_PAGES) c hdb input script with
    ⟨e, h⟩ | ⟨k, db₁, events, hopen, -, hends⟩
  · rw [sweepResource, h]
    exact .refl db
  · exact (Db.Keeps.of_eq (by rw [hopen.db_eq]; rfl) hopen.resources).trans hends.keeps

/-- A sequence of sweeps keeps every resource that is known and every counter of a read. -/
lemma SweptFrom.keeps {sweeps : List Swept} (h : SweptFrom c a db₁ sweeps db₂)
    (hdb : db₁.Consistent) : db₁.Keeps db₂ := by
  induction h with
  | nil => exact .refl _
  | cons _ _ ih =>
    exact (keeps_sweepResource hdb).trans (ih (consistent_sweepWithin _ c hdb _ _))

end Sweeps

/-! ### What a refresh commits -/

/-- A row that a refresh stored: a line that the adapter sent for a resource it had listed and the
refresh had requested, in a reply that was accepted, with the outcome of that resource's one
status. -/
def StoredFrom (texts : Texts) (a : String) (v : Visit) (row : StoredBalance)
    (status : ResourceStatus) : Prop :=
  ∃ listed raw receivedAt read wire, v.listed = .ok listed ∧
    v.balances = .ok (raw, receivedAt) ∧
    balancesRead texts v.helloAdapterId (listed.map ResourceDescriptor.resourceId) raw receivedAt =
      .ok read ∧
    row.resourceId ∈ listed.map ResourceDescriptor.resourceId ∧ wire ∈ raw.observations ∧
    status ∈ raw.statuses ∧ status.resourceId = row.resourceId ∧
    (∀ s ∈ raw.statuses, s.resourceId = row.resourceId → s = status) ∧
    row = storedBalance a row.readId
      (Balance.stamp wire receivedAt (outcomeStaleness status.outcome))
      (outcomeLabel status.outcome)

/-- A row that a refresh stored, from whatever status. -/
def StoredBy (texts : Texts) (a : String) (v : Visit) (row : StoredBalance) : Prop :=
  ∃ status, StoredFrom texts a v row status

/-- Tables that grew without a balance line, and without a read. -/
structure Ledger.Writes (l l' : Ledger) : Prop where
  keeps : l.db.Keeps l'.db
  consistent : l.db.Consistent → l'.db.Consistent
  balances : l'.balances = l.balances

/-- Tables that grew. -/
structure Ledger.Grows (l l' : Ledger) : Prop where
  reads : ∀ a n, l.balanceRead a = some n → ∃ m, l'.balanceRead a = some m ∧ n ≤ m
  resources : ∀ a r, l.db.HasResource a r → l'.db.HasResource a r
  consistent : l.db.Consistent → l'.db.Consistent
  balances : l.balances <+: l'.balances

/-- The balance lines that tables have and earlier ones had not are those a refresh stored, under
the read that is current. -/
def Ledger.Fresh (texts : Texts) (a : String) (v : Visit) (l l' : Ledger) : Prop :=
  ∀ i row, l.balances.length ≤ i → l'.balances[i]? = some row → row.adapterId = a ∧
    StoredBy texts a v row ∧ l'.balanceRead a = some row.readId ∧
    l'.db.HasResource a row.resourceId

section Commits

variable {texts : Texts} {a : String} {v : Visit} {l l₁ l₂ l₃ : Ledger} {readId : ℕ}

/-- A ledger that nothing is written to. -/
lemma Ledger.Writes.refl (l : Ledger) : l.Writes l := ⟨.refl _, id, rfl⟩

/-- Two writes, one after the other, are a write. -/
lemma Ledger.Writes.trans (h : l₁.Writes l₂) (h' : l₂.Writes l₃) : l₁.Writes l₃ :=
  ⟨h.keeps.trans h'.keeps, h'.consistent ∘ h.consistent, h'.balances.trans h.balances⟩

/-- A ledger that is written to loses nothing. -/
lemma Ledger.Writes.grows (h : l₁.Writes l₂) : l₁.Grows l₂ where
  reads b n hn := ⟨n, (h.keeps.reads b).trans hn, le_rfl⟩
  resources := h.keeps.resources
  consistent := h.consistent
  balances := h.balances ▸ List.prefix_rfl

/-- A ledger that stays as it is loses nothing. -/
lemma Ledger.Grows.refl (l : Ledger) : l.Grows l := (Ledger.Writes.refl l).grows

/-- What is lost in neither of two steps is lost in none. -/
lemma Ledger.Grows.trans (h : l₁.Grows l₂) (h' : l₂.Grows l₃) : l₁.Grows l₃ where
  reads b n hn := by
    obtain ⟨m, hm, hle⟩ := h.reads b n hn
    obtain ⟨m', hm', hle'⟩ := h'.reads b m hm
    exact ⟨m', hm', hle.trans hle'⟩
  resources b r hr := h'.resources b r (h.resources b r hr)
  consistent := h'.consistent ∘ h.consistent
  balances := h.balances.trans h'.balances

/-- Without a new line nothing is to be said about one. -/
lemma Ledger.fresh_of_balances_eq (h : l₂.balances = l₁.balances) :
    Ledger.Fresh texts a v l₁ l₂ := by
  intro i row hi hrow
  have hlt := (List.getElem?_eq_some_iff.mp hrow).1
  rw [h] at hlt
  omega

/-- Opening a read takes a new number for its adapter and adds no balance line.

**Proof sketch.** The counter of the adapter grows by one and the others stay; no balance line and
no resource is touched. -/
lemma Ledger.openBalanceRead_spec (h : l.openBalanceRead a = .ok (l₁, readId)) :
    l.Grows l₁ ∧ l₁.balances = l.balances ∧ l₁.balanceRead a = some readId := by
  unfold Ledger.openBalanceRead at h
  cases hopen : l.db.openBalanceRead a with
  | error e => simp [hopen] at h
  | ok opened =>
    obtain ⟨db, id⟩ := opened
    simp only [hopen, Except.ok.injEq, Prod.mk.injEq] at h
    obtain ⟨rfl, rfl⟩ := h
    obtain ⟨hread, hresources, hlt, hother⟩ := Store.openBalanceRead_spec hopen
    have hwrite : (MetaWrite.openBalanceRead a).apply l.db = db := by
      simp [MetaWrite.apply, hopen]
    refine ⟨⟨?_, ?_, fun hdb => hwrite ▸ (MetaWrite.openBalanceRead a).consistent_apply hdb,
      List.prefix_rfl⟩, rfl, hread⟩
    · intro b n hn
      by_cases hb : b = a
      · subst hb
        exact ⟨id, hread, (hlt n hn).le⟩
      · exact ⟨n, (hother b hb).trans hn, le_rfl⟩
    · intro b r
      simp only [Db.HasResource, hresources, imp_self]

/-- Without a commit the durable ledger is the one from before. -/
@[simp] lemma afterCommits_nil (l : Ledger) : afterCommits l [] = l := rfl

/-- Of several commits the last one is durable, so that an earlier one does not count. -/
@[simp] lemma afterCommits_cons (l l' : Ledger) (commits : List Ledger) :
    afterCommits l (l' :: commits) = afterCommits l' commits := by
  simp [afterCommits, List.getLast?_cons]

/-- The commits of two operations, one after the other. -/
@[simp] lemma afterCommits_append (l : Ledger) (commits more : List Ledger) :
    afterCommits l (commits ++ more) = afterCommits (afterCommits l commits) more := by
  induction commits generalizing l with
  | nil => rfl
  | cons l' rest ih => simpa using ih l'

/-- If each of some states only has writes on top of the first one, so has the last of them that is
committed. -/
lemma Ledger.Writes.afterCommits {commits : List Ledger} (h : ∀ l' ∈ commits, l.Writes l') :
    l.Writes (afterCommits l commits) := by
  unfold Store.afterCommits
  cases hlast : commits.getLast? with
  | none => exact .refl l
  | some last => exact h last (List.mem_of_getLast? hlast)

/-- Writing down the resources of a listing: each of the states, and, if none failed, all of
them.

**Proof sketch.** Induction on the listing. One upsert writes a resource and keeps the others, so
what was written stays written by the upserts after it; a failed one ends the list. -/
lemma upsertCommits_spec (l : Ledger) (listed : List ResourceDescriptor) :
    (∀ l' ∈ (upsertCommits a l listed).1, l.Writes l') ∧
      ((upsertCommits a l listed).2 = none → ∀ d ∈ listed,
        (afterCommits l (upsertCommits a l listed).1).db.HasResource a d.resourceId) := by
  induction listed generalizing l with
  | nil => simp [upsertCommits]
  | cons descriptor rest ih =>
    rw [upsertCommits]
    cases hup : l.db.upsertResource a descriptor.resourceId descriptor.kind descriptor.label with
    | error e => simp
    | ok db =>
      obtain ⟨hadapters, hnew, hkeep⟩ := upsertResource_spec hup
      have hwrite : (MetaWrite.upsertResource a descriptor.resourceId descriptor.kind
          descriptor.label).apply l.db = db := by
        simp [MetaWrite.apply, hup]
      have hfirst : l.Writes { l with db } :=
        ⟨⟨fun b => by rw [hadapters], hkeep⟩, fun hdb => show db.Consistent from
          hwrite ▸ MetaWrite.consistent_apply hdb _, rfl⟩
      obtain ⟨hall, hlisted⟩ := ih { l with db }
      have hrest := Ledger.Writes.afterCommits hall
      refine ⟨fun l' hl' => ?_, fun hnone d hd => ?_⟩
      · rcases List.mem_cons.mp hl' with rfl | hl'
        · exact hfirst
        · exact hfirst.trans (hall l' hl')
      · simp only [afterCommits_cons]
        rcases List.mem_cons.mp hd with rfl | hd
        · exact hrest.keeps.resources a _ hnew
        · exact hlisted hnone d hd

/-- The outcome that a line of a resource is stored with. -/
def outcomeOf (statuses : List ResourceStatus) (resourceId : String) : String :=
  ((statuses.find? (·.resourceId == resourceId)).map fun s => outcomeLabel s.outcome).getD ""

/-- Appending the lines of a reply: each of them, in their order. -/
lemma appendLines_eq {statuses : List ResourceStatus} {lines : List Balance}
    (h : l₁.appendLines a readId statuses lines = .ok l₂) :
    l₂ = { l₁ with balances := l₁.balances ++ lines.map fun b =>
        storedBalance a readId b (outcomeOf statuses b.resourceId) } ∧
      ∀ b ∈ lines, ∃ s, statuses.find? (·.resourceId == b.resourceId) = some s := by
  induction lines generalizing l₁ with
  | nil => simpa using (Except.ok.inj h).symm
  | cons b rest ih =>
    rw [Ledger.appendLines] at h
    cases hfind : statuses.find? (·.resourceId == b.resourceId) with
    | none => simp [hfind] at h
    | some s =>
      simp only [hfind] at h
      obtain ⟨heq, hrest⟩ := ih h
      refine ⟨?_, List.forall_mem_cons.mpr ⟨⟨s, hfind⟩, hrest⟩⟩
      rw [heq]
      simp [Ledger.appendBalance, outcomeOf, hfind]

/-- The rows that appending the lines of a reply adds. -/
lemma appendLines_spec {statuses : List ResourceStatus} {lines : List Balance}
    (h : l₁.appendLines a readId statuses lines = .ok l₂) :
    l₂.db = l₁.db ∧ ∃ added, l₂.balances = l₁.balances ++ added ∧ ∀ row ∈ added,
      ∃ b ∈ lines, ∃ s ∈ statuses, s.resourceId = b.resourceId ∧
        row = storedBalance a readId b (outcomeLabel s.outcome) := by
  obtain ⟨rfl, hfound⟩ := appendLines_eq h
  refine ⟨rfl, _, rfl, fun row hrow => ?_⟩
  obtain ⟨b, hb, rfl⟩ := List.mem_map.mp hrow
  obtain ⟨s, hs⟩ := hfound b hb
  refine ⟨b, hb, s, List.mem_of_find?_eq_some hs, by simpa using List.find?_some hs, ?_⟩
  rw [outcomeOf, hs, Option.map_some, Option.getD_some]

/-- A line of an accepted reply, as it is stored.

**Proof sketch.** The status that the store looks up for the line is of its resource, and there is
one in the reply, since the statuses are distinct; it is the one the host stamped the line from, so
the outcome beside the row agrees with the staleness in it. -/
lemma storedBy_of_line {listed : List ResourceDescriptor} {raw : BalancesReply}
    {receivedAt : Rfc3339} {read : BalancesRead} {row : StoredBalance} {b : Balance}
    {s : ResourceStatus} (hlisted : v.listed = .ok listed)
    (hreply : v.balances = .ok (raw, receivedAt))
    (hread : balancesRead texts v.helloAdapterId (listed.map ResourceDescriptor.resourceId) raw
      receivedAt = .ok read) (hb : b ∈ read.observations) (hs : s ∈ read.statuses)
    (hid : s.resourceId = b.resourceId)
    (hrow : row = storedBalance a readId b (outcomeLabel s.outcome)) :
    row.readId = readId ∧ row.adapterId = a ∧ StoredBy texts a v row := by
  obtain ⟨hnodup, hsame, hlines⟩ := balancesRead_eq_ok hread
  obtain ⟨wire, hwire, status, hstatus, hstamp, hof, hasked, -⟩ := hlines b hb
  have hrid : row.resourceId = wire.resourceId := by rw [hrow, hstamp]; rfl
  -- the status the store looks up is the one the host stamped from
  have hunique {t : ResourceStatus} (ht : t ∈ raw.statuses)
      (htid : t.resourceId = wire.resourceId) : t = status :=
    List.inj_on_of_nodup_map hnodup ht hstatus (htid.trans hof.symm)
  have houtcome : s.outcome = status.outcome := by
    have hmem : (s.resourceId, s.outcome) ∈ raw.statuses.map fun s => (s.resourceId, s.outcome) :=
      hsame ▸ List.mem_map.mpr ⟨s, hs, rfl⟩
    obtain ⟨t, ht, heq⟩ := List.mem_map.mp hmem
    obtain ⟨htid, htout⟩ := Prod.ext_iff.mp heq
    have hline : b.resourceId = wire.resourceId := by rw [hstamp]; rfl
    rw [← hunique ht ((htid.trans hid).trans hline)]
    exact htout.symm
  refine ⟨by rw [hrow]; rfl, by rw [hrow]; rfl, status, listed, raw, receivedAt, read, wire,
    hlisted, hreply, hread, hrid ▸ hasked, hwire, hstatus, hof.trans hrid.symm,
    fun t ht htid => hunique ht (htid.trans hrid), ?_⟩
  rw [← hstamp, hrow, houtcome]
  rfl

/-- Storing the lines of an accepted reply.

**Proof sketch.** Every line that is appended is one of the reply, stored under the read that is
current, and its resource was listed, so it is known. The lines before it are those of the start. -/
lemma fresh_of_appendLines {listed : List ResourceDescriptor} {read : BalancesRead}
    (hlisted : v.listed = .ok listed) (hread : v.read texts listed = .ok read)
    (hknown : ∀ d ∈ listed, l₁.db.HasResource a d.resourceId)
    (hid : l₁.balanceRead a = some readId) (hbefore : l₁.balances = l.balances)
    (h : l₁.appendLines a readId read.statuses read.observations = .ok l₂) :
    l₁.Grows l₂ ∧ Ledger.Fresh texts a v l l₂ := by
  obtain ⟨hdb, added, hadded, hrows⟩ := appendLines_spec h
  have hsame : l₂.balanceRead a = l₁.balanceRead a := by rw [Ledger.balanceRead, hdb]; rfl
  refine ⟨⟨fun b n hn => ⟨n, by rwa [Ledger.balanceRead, hdb], le_rfl⟩, fun b r => hdb ▸ id,
    fun hcons => hdb ▸ hcons, hadded ▸ List.prefix_append _ _⟩, ?_⟩
  intro i row hi hrow
  rw [hadded, hbefore, List.getElem?_append_right hi] at hrow
  obtain ⟨b, hb, s, hs, hstatus, heq⟩ := hrows row (List.mem_of_getElem? hrow)
  unfold Visit.read at hread
  cases hreply : v.balances with
  | error e => simp [hreply] at hread
  | ok reply =>
    obtain ⟨raw, receivedAt⟩ := reply
    simp only [hreply] at hread
    obtain ⟨hreadId, hadapter, hstored⟩ :=
      storedBy_of_line hlisted hreply hread hb hs hstatus heq
    refine ⟨hadapter, hstored, by rw [hsame, hid, hreadId], ?_⟩
    obtain ⟨status, listed', raw', receivedAt', read', wire, hlisted', -, -, hasked, -⟩ := hstored
    obtain rfl := Except.ok.inj (hlisted.symm.trans hlisted')
    obtain ⟨d, hd, hdid⟩ := List.mem_map.mp hasked
    rw [hdb, ← hdid]
    exact hknown d hd

/-- **What a refresh over one connection commits**: the opened read and what it writes down
without a line, and, if it came to an accepted reply, the lines of it.

**Proof sketch.** The steps of the visit are followed in order. A greeting that does not fit, a
listing that failed and an upsert that failed each end the visit after commits that write no line,
and so does a read that failed. Only past all of them does `appendLines` run, once, over a ledger in
which every listed resource is known because the upserts went through. -/
lemma visitCommits_eq (texts : Texts) (v : Visit) {opened : Ledger}
    (hopen : l.openBalanceRead a = .ok (opened, readId)) :
    ∃ quiet stored, (visitCommits texts l a v).1 = quiet ++ stored ∧
      (∀ l' ∈ quiet, opened.Writes l') ∧
      ((stored = [] ∧ ∀ p listed read, (visitCommits texts l a v).2 = .ok p →
          v.listed = .ok listed → v.read texts listed ≠ .ok read) ∨
        ∃ listed read last, v.listed = .ok listed ∧ v.read texts listed = .ok read ∧
          (∀ d ∈ listed, (afterCommits opened quiet).db.HasResource a d.resourceId) ∧
          (afterCommits opened quiet).appendLines a readId read.statuses read.observations =
            .ok last ∧ stored = [last]) := by
  unfold visitCommits
  simp only [hopen]
  split_ifs with hhello
  · exact ⟨[opened], [], rfl, by simp [Ledger.Writes.refl], .inl ⟨rfl, by simp⟩⟩
  cases hlisted : v.listed with
  | error e => exact ⟨[opened], [], rfl, by simp [Ledger.Writes.refl], .inl ⟨rfl, by simp⟩⟩
  | ok listed =>
    obtain ⟨hall, hknown⟩ := upsertCommits_spec (a := a) opened listed
    have hupserted : ∀ l' ∈ opened :: (upsertCommits a opened listed).1, opened.Writes l' := by
      intro l' hl'
      rcases List.mem_cons.mp hl' with rfl | hl'
      · exact .refl l'
      · exact hall l' hl'
    dsimp only
    cases hfailed : (upsertCommits a opened listed).2 with
    | some e => exact ⟨_, [], (List.append_nil _).symm, hupserted, .inl ⟨rfl, by simp⟩⟩
    | none =>
      dsimp only
      cases hstatuses : v.statuses with
      | error e => exact ⟨_, [], (List.append_nil _).symm, hupserted, .inl ⟨rfl, by simp⟩⟩
      | ok statuses =>
        have hmarked : opened.Writes { afterCommits opened (upsertCommits a opened listed).1 with
            db := (afterCommits opened (upsertCommits a opened listed).1).db.setNeedsReauth a
              (needsReauth statuses) } := by
          refine (Ledger.Writes.afterCommits hall).trans ⟨⟨fun b => ?_, fun b r => id⟩,
            fun hdb => ?_, rfl⟩
          · exact readOf_update
              (f := fun row : AdapterRow => { row with needsReauth := needsReauth statuses })
              (fun _ => rfl) (fun _ => rfl) _ _
          · exact (MetaWrite.setNeedsReauth a (needsReauth statuses)).consistent_apply hdb
        have hquiet : ∀ l' ∈ opened :: (upsertCommits a opened listed).1 ++
            [{ afterCommits opened (upsertCommits a opened listed).1 with
              db := (afterCommits opened (upsertCommits a opened listed).1).db.setNeedsReauth a
                (needsReauth statuses) }], opened.Writes l' := by
          intro l' hl'
          rcases List.mem_append.mp hl' with hl' | hl'
          · exact hupserted l' hl'
          · exact List.mem_singleton.mp hl' ▸ hmarked
        dsimp only
        cases hread : v.read texts listed with
        | error e =>
          refine ⟨_, [], (List.append_nil _).symm, hquiet, .inl ⟨rfl, ?_⟩⟩
          rintro p listed' read - hlisted' hread'
          obtain rfl := Except.ok.inj hlisted'
          cases hread.symm.trans hread'
        | ok read =>
          dsimp only
          split
          · exact ⟨_, [], (List.append_nil _).symm, hquiet, .inl ⟨rfl, by simp⟩⟩
          · rename_i stored hstored
            refine ⟨_, [stored], ?_, hquiet,
              .inr ⟨listed, read, stored, rfl, hread, ?_, ?_, rfl⟩⟩
            · simp only [List.cons_append, List.append_assoc, List.nil_append]
            · intro d hd
              rw [List.cons_append, afterCommits_cons, afterCommits_append]
              exact hknown hfailed d hd
            · simpa using hstored

/-- Each state that a refresh over one connection commits.

**Proof sketch.** What a visit commits is the opened read, then writes without a line, then possibly
the lines of one reply (`visitCommits_eq`); each of these grows, and the lines are fresh. -/
lemma visitCommits_spec (texts : Texts) (l : Ledger) (a : String) (v : Visit) :
    ∀ l' ∈ (visitCommits texts l a v).1, l.Grows l' ∧ Ledger.Fresh texts a v l l' := by
  cases hopen : l.openBalanceRead a with
  | error e => simp [visitCommits, hopen]
  | ok opened =>
    obtain ⟨opened, readId⟩ := opened
    obtain ⟨hgrows, hbalances, hid⟩ := Ledger.openBalanceRead_spec hopen
    obtain ⟨quiet, stored, hcommits, hquiet, hstored⟩ := visitCommits_eq texts v hopen
    rw [hcommits]
    intro l' hl'
    rcases List.mem_append.mp hl' with hl' | hl'
    · have hwrites := hquiet l' hl'
      exact ⟨hgrows.trans hwrites.grows,
        Ledger.fresh_of_balances_eq (hwrites.balances.trans hbalances)⟩
    · rcases hstored with ⟨rfl, -⟩ | ⟨listed, read, last, hlisted, hread, hknown, happend, rfl⟩
      · exact absurd hl' List.not_mem_nil
      · obtain rfl := List.mem_singleton.mp hl'
        have hmarked := Ledger.Writes.afterCommits hquiet
        obtain ⟨hgrown, hfresh⟩ := fresh_of_appendLines (l := l) hlisted hread hknown
          ((hmarked.keeps.reads a).trans hid) (hmarked.balances.trans hbalances) happend
        exact ⟨(hgrows.trans hmarked.grows).trans hgrown, hfresh⟩

/-- Each state that a refresh commits whose spawn failed. -/
lemma refreshCommits_error (texts : Texts) (l : Ledger) (a : String) (e : HostError) :
    ∀ l' ∈ refreshCommits texts l a (.error e), l.Grows l' ∧ l'.balances = l.balances := by
  unfold refreshCommits
  cases hopen : l.openBalanceRead a with
  | error e => simp
  | ok opened =>
    obtain ⟨hgrows, hbalances, -⟩ := Ledger.openBalanceRead_spec hopen
    simpa using ⟨hgrows, hbalances⟩

/-- Each state that a refresh commits grows out of the one before it, and has no balance lines but
fresh ones. -/
lemma refreshCommits_ok (texts : Texts) (l : Ledger) (a : String) (v : Visit) :
    ∀ l' ∈ refreshCommits texts l a (.ok v), l.Grows l' ∧ Ledger.Fresh texts a v l l' := by
  unfold refreshCommits
  cases hopen : l.openBalanceRead a with
  | error e => simp
  | ok opened =>
    obtain ⟨hgrows, hbalances, -⟩ := Ledger.openBalanceRead_spec hopen
    intro l' hl'
    rcases List.mem_cons.mp hl' with rfl | hl'
    · exact ⟨hgrows, Ledger.fresh_of_balances_eq hbalances⟩
    · obtain ⟨hgrows', hfresh⟩ := visitCommits_spec texts opened.1 a v l' hl'
      exact ⟨hgrows.trans hgrows', fun i row hi => hfresh i row (hbalances ▸ hi)⟩

/-- **The store's lookup cannot miss**: every line of an accepted reply has a status.

**Proof sketch.** A line of an accepted reply was stamped from a status of its resource, so the
lookup finds one; the list is then stored line by line. -/
lemma exists_appendLines (readId : ℕ) {helloAdapterId : String} {resourceIds : List String}
    {raw : BalancesReply} {receivedAt : Rfc3339} {read : BalancesRead}
    (h : balancesRead texts helloAdapterId resourceIds raw receivedAt = .ok read) (l : Ledger) :
    ∃ l', l.appendLines a readId read.statuses read.observations = .ok l' := by
  obtain ⟨-, hsame, hlines⟩ := balancesRead_eq_ok h
  have hstatus : ∀ b ∈ read.observations, ∃ s ∈ read.statuses, s.resourceId = b.resourceId := by
    intro b hb
    obtain ⟨wire, -, s, hs, hstamp, hid, -⟩ := hlines b hb
    have hmem : (s.resourceId, s.outcome) ∈ read.statuses.map fun s => (s.resourceId, s.outcome) :=
      hsame ▸ List.mem_map.mpr ⟨s, hs, rfl⟩
    obtain ⟨t, ht, heq⟩ := List.mem_map.mp hmem
    refine ⟨t, ht, (Prod.ext_iff.mp heq).1.trans (hid.trans ?_)⟩
    rw [hstamp]
    rfl
  clear hlines
  generalize read.observations = lines at hstatus
  induction lines generalizing l with
  | nil => exact ⟨l, rfl⟩
  | cons b rest ih =>
    rw [Ledger.appendLines]
    cases hfind : read.statuses.find? (·.resourceId == b.resourceId) with
    | none =>
      obtain ⟨s, hs, hid⟩ := hstatus b List.mem_cons_self
      exact absurd hid (by simpa using List.find?_eq_none.mp hfind s hs)
    | some s => exact ih _ fun b' hb' => hstatus b' (List.mem_cons_of_mem _ hb')

/-- Writing down the resources of a listing, one commit after the other. -/
lemma upsertResources_eq (l : Ledger) (listed : List ResourceDescriptor) :
    upsertResources a l.db listed = ((afterCommits l (upsertCommits a l listed).1).db,
      (upsertCommits a l listed).2) := by
  induction listed generalizing l with
  | nil => rfl
  | cons descriptor rest ih =>
    rw [upsertResources, upsertCommits]
    cases l.db.upsertResource a descriptor.resourceId descriptor.kind descriptor.label with
    | error e => rfl
    | ok db =>
      simp only [afterCommits_cons]
      exact ih { l with db }

/-- **Without its lines, a refresh over one connection is `prepareRefresh`**: it commits the same
tables, and goes on to its sweeps with the same knowledge or fails with the same error.

**Proof sketch.** Both sides run the same steps, so they are taken side by side: opening the read,
the greeting, the listing, the upserts and the reply. At each of them the two fail together with the
same error and over the same tables, or go on together; the lines that the visit appends at the end
are not part of the tables that a refresh compares. -/
lemma visitCommits_prepareRefresh (texts : Texts) (l : Ledger) (a : String) (v : Visit) :
    prepareRefresh l.db a (v.session texts) =
      ((afterCommits l (visitCommits texts l a v).1).db, (visitCommits texts l a v).2) := by
  unfold prepareRefresh visitCommits Ledger.openBalanceRead
  cases hopen : l.db.openBalanceRead a with
  | error e => rfl
  | ok opened =>
    obtain ⟨db, readId⟩ := opened
    have hid : (v.session texts).helloAdapterId = v.helloAdapterId := rfl
    have hlist : (v.session texts).listed = v.listed := rfl
    have hstatus : (v.session texts).statuses = v.statuses := rfl
    simp only [hid, hlist, hstatus]
    split_ifs with hhello
    · rfl
    cases hlisted : v.listed with
    | error e => rfl
    | ok listed =>
      have hbalances : (v.session texts).balances =
          (v.read texts listed).map fun _ => (none : Option StoreError) := by
        simp only [Visit.session, hlisted]
      dsimp only
      rw [upsertResources_eq { l with db } listed]
      cases hfailed : (upsertCommits a { l with db } listed).2 with
      | some e => simp
      | none =>
        dsimp only
        cases hstatuses : v.statuses with
        | error e => simp
        | ok statuses =>
          dsimp only
          rw [hbalances]
          cases hread : v.read texts listed with
          | error e => simp [Except.map]
          | ok read =>
            have hreply : ∃ raw receivedAt, balancesRead texts v.helloAdapterId
                (listed.map ResourceDescriptor.resourceId) raw receivedAt = .ok read := by
              unfold Visit.read at hread
              split at hread
              · cases hread
              · exact ⟨_, _, hread⟩
            obtain ⟨raw, receivedAt, hreply⟩ := hreply
            obtain ⟨stored, hstored⟩ := exists_appendLines (a := a) readId hreply
              { afterCommits { l with db } (upsertCommits a { l with db } listed).1 with
                db := (afterCommits { l with db }
                  (upsertCommits a { l with db } listed).1).db.setNeedsReauth a
                    (needsReauth statuses) }
            have hdb := (appendLines_spec hstored).1
            simp [hstored, Except.map, hdb]

end Commits

/-! ### Runs -/

/-- The command that stored a row. -/
def Command.Stores (texts : Texts) (x : Command) (row : StoredBalance) : Prop :=
  ∃ options v committed, x = .refresh row.adapterId options (.ok v) committed ∧
    StoredBy texts row.adapterId v row

section Runs

variable (c : Crates) (texts : Texts) {a : String} {l : Ledger}

/-- What holds of every state holds of the last one of the first few. -/
lemma afterCommits_take {P : Ledger → Prop} {commits : List Ledger} (hl : P l)
    (h : ∀ l' ∈ commits, P l') (n : ℕ) : P (afterCommits l (commits.take n)) := by
  unfold afterCommits
  cases hlast : (commits.take n).getLast? with
  | none => exact hl
  | some last => exact h last (List.mem_of_mem_take (List.mem_of_getLast? hlast))

/-- Connecting an adapter stores no line: what it commits knows more resources and has the same
balances.

**Proof sketch.** Writing the adapter and its derivation keep the resources and the counters, and so
does every upsert of a resource after them. -/
lemma connectCommits_spec (l : Ledger) (argv : List String) (derivation : String)
    (listed : List ResourceDescriptor) :
    ∀ l' ∈ connectCommits l a argv derivation listed, l.Grows l' ∧ l'.balances = l.balances := by
  have hconnected : l.Grows { l with db := l.db.upsertAdapter a argv } := by
    refine ⟨fun b n hn => ⟨n, readOf_upsertAdapter hn, le_rfl⟩, fun b r => ?_,
      (MetaWrite.upsertAdapter a argv).consistent_apply, List.prefix_rfl⟩
    have hresources : (l.db.upsertAdapter a argv).resources = l.db.resources := by
      unfold Db.upsertAdapter
      split_ifs <;> rfl
    simp only [Db.HasResource, hresources, imp_self]
  have hderived : Ledger.Writes { l with db := l.db.upsertAdapter a argv }
      { l with db := (l.db.upsertAdapter a argv).setAdapterDerivation a derivation } := by
    refine ⟨⟨fun b => ?_, fun b r => id⟩,
      (MetaWrite.setAdapterDerivation a derivation).consistent_apply, rfl⟩
    exact readOf_update
      (f := fun row : AdapterRow => { row with localIdDerivation := some derivation })
      (fun _ => rfl) (fun _ => rfl) _ _
  intro l' hl'
  rcases List.mem_cons.mp hl' with rfl | hl'
  · exact ⟨hconnected, rfl⟩
  rcases List.mem_cons.mp hl' with rfl | hl'
  · exact ⟨hconnected.trans hderived.grows, rfl⟩
  · have hwrites := (upsertCommits_spec _ listed).1 l' hl'
    exact ⟨(hconnected.trans hderived.grows).trans hwrites.grows, hwrites.balances⟩

/-- The sweeps of a refresh store no line. -/
lemma writes_sweeps (hdb : l.db.Consistent) (options : SweepOptions) (v : Visit) (p : Prepared) :
    l.Writes (l.sweeps c texts a options v p) := by
  have hswept := sweepEach_swept (c := c)
    (sweepInput c a options (v.session texts) p.statuses) (fun _ _ => rfl) p.errors l.db
    p.connectionViolation (p.listed.zipIdx.map fun d => (d.1, v.script d.2))
  exact ⟨hswept.keeps hdb, fun _ => hswept.consistent hdb, rfl⟩

/-- **What a refresh of one adapter leaves**, however far it got.

**Proof sketch.** Each ledger that is committed on the way grows out of the first and has only fresh
lines, and this holds of the one that is left after any number of commits (`afterCommits_take`).
Without a visit no line is written at all. With one, the sweeps that follow a full visit commit no
line, so the lines are still those of the visit. -/
lemma refresh_spec (hdb : l.db.Consistent) (options : SweepOptions)
    (visit : Except HostError Visit) (committed : ℕ) :
    l.Grows (l.refresh c texts a options visit committed) ∧
      ∀ i row, l.balances.length ≤ i →
        (l.refresh c texts a options visit committed).balances[i]? = some row →
        ∃ v, visit = .ok v ∧ row.adapterId = a ∧ StoredBy texts a v row ∧
          (l.refresh c texts a options visit committed).balanceRead a = some row.readId ∧
          (l.refresh c texts a options visit committed).db.HasResource a row.resourceId := by
  have hnone {l' : Ledger} (hbalances : l'.balances = l.balances) (i : ℕ) (row : StoredBalance)
      (hi : l.balances.length ≤ i) (hrow : l'.balances[i]? = some row) : False := by
    have hlt := (List.getElem?_eq_some_iff.mp hrow).1
    rw [hbalances] at hlt
    omega
  cases visit with
  | error e =>
    have hleft := afterCommits_take (P := fun l' => l.Grows l' ∧ l'.balances = l.balances)
      ⟨.refl l, rfl⟩ (refreshCommits_error texts l a e) committed
    exact ⟨hleft.1, fun i row hi hrow => (hnone hleft.2 i row hi hrow).elim⟩
  | ok v =>
    have hleft := afterCommits_take (P := fun l' => l.Grows l' ∧ Ledger.Fresh texts a v l l')
      ⟨.refl l, Ledger.fresh_of_balances_eq rfl⟩ (refreshCommits_ok texts l a v) committed
    have hfinal {l' : Ledger} (hgrows : l.Grows l') (hfresh : Ledger.Fresh texts a v l l') :
        l.Grows l' ∧ ∀ i row, l.balances.length ≤ i → l'.balances[i]? = some row →
          ∃ v', Except.ok v = (.ok v' : Except HostError Visit) ∧ row.adapterId = a ∧
            StoredBy texts a v' row ∧ l'.balanceRead a = some row.readId ∧
            l'.db.HasResource a row.resourceId :=
      ⟨hgrows, fun i row hi hrow => ⟨v, rfl, hfresh i row hi hrow⟩⟩
    unfold Ledger.refresh
    dsimp only
    split
    · rename_i v' opened readId hvisit hopen
      obtain rfl := Except.ok.inj hvisit
      split
      · rename_i p hp
        split_ifs
        · exact hfinal hleft.1 hleft.2
        · have hwrites := writes_sweeps c texts (a := a) (hleft.1.consistent hdb) options v p
          refine hfinal (hleft.1.trans hwrites.grows) fun i row hi hrow => ?_
          obtain ⟨hadapter, hstored, hread, hresource⟩ :=
            hleft.2 i row hi (by rwa [hwrites.balances] at hrow)
          exact ⟨hadapter, hstored, (hwrites.keeps.reads a).trans hread,
            hwrites.keeps.resources a _ hresource⟩
      · exact hfinal hleft.1 hleft.2
    · exact hfinal hleft.1 hleft.2

/-- **One command**: the tables grow, and every new line is one its refresh stored, under the read
that is current then. -/
lemma Command.spec (hdb : l.db.Consistent) (x : Command) :
    l.Grows (x.apply c texts l) ∧ ∀ i row, l.balances.length ≤ i →
      (x.apply c texts l).balances[i]? = some row → x.Stores texts row ∧
        (x.apply c texts l).balanceRead row.adapterId = some row.readId ∧
        (x.apply c texts l).db.HasResource row.adapterId row.resourceId := by
  cases x with
  | connect adapterId argv derivation listed committed =>
    have hleft := afterCommits_take (P := fun l' => l.Grows l' ∧ l'.balances = l.balances)
      ⟨.refl l, rfl⟩ (connectCommits_spec (a := adapterId) l argv derivation listed) committed
    refine ⟨hleft.1, fun i row hi hrow => ?_⟩
    have hlt := (List.getElem?_eq_some_iff.mp hrow).1
    rw [Command.apply, hleft.2] at hlt
    omega
  | refresh adapterId options visit committed =>
    obtain ⟨hgrows, hrows⟩ := refresh_spec c texts (a := adapterId) hdb options visit committed
    refine ⟨hgrows, fun i row hi hrow => ?_⟩
    obtain ⟨v, rfl, rfl, hstored, hread, hresource⟩ := hrows i row hi hrow
    exact ⟨⟨options, v, committed, rfl, hstored⟩, hread, hresource⟩

/-- A run of commands takes its last one on what the others have left. -/
lemma ledgerRun_concat (commands : List Command) (x : Command) :
    ledgerRun c texts (commands ++ [x]) = x.apply c texts (ledgerRun c texts commands) := by
  simp [ledgerRun, List.foldl_append]

/-- The tables of a run are consistent. -/
lemma consistent_ledgerRun (commands : List Command) :
    (ledgerRun c texts commands).db.Consistent := by
  induction commands using List.reverseRecOn with
  | nil => exact consistent_empty
  | append_singleton commands x ih =>
    rw [ledgerRun_concat]
    exact (x.spec c texts ih).1.consistent ih

/-- Along a run of commands, tables only grow: no balance line is removed and no counter falls. -/
lemma grows_ledgerRun (before after : List Command) :
    (ledgerRun c texts before).Grows (ledgerRun c texts (before ++ after)) := by
  induction after using List.reverseRecOn with
  | nil => simpa using Ledger.Grows.refl _
  | append_singleton after x ih =>
    rw [← List.append_assoc, ledgerRun_concat]
    exact ih.trans (x.spec c texts (consistent_ledgerRun c texts _)).1

/-- **Where a balance line comes from**: the command that stored it, and the read that was current
when it had. -/
lemma exists_stores (commands : List Command) {i : ℕ} {row : StoredBalance}
    (hrow : (ledgerRun c texts commands).balances[i]? = some row) :
    ∃ before x after, commands = before ++ x :: after ∧
      (ledgerRun c texts before).balances.length ≤ i ∧
      (ledgerRun c texts (before ++ [x])).balances[i]? = some row ∧ x.Stores texts row ∧
      (ledgerRun c texts (before ++ [x])).balanceRead row.adapterId = some row.readId ∧
      (ledgerRun c texts (before ++ [x])).db.HasResource row.adapterId row.resourceId := by
  induction commands using List.reverseRecOn with
  | nil => simp [ledgerRun, Ledger.empty] at hrow
  | append_singleton commands x ih =>
    by_cases hi : (ledgerRun c texts commands).balances.length ≤ i
    · have hnew := (x.spec c texts (consistent_ledgerRun c texts commands)).2 i row hi
      rw [← ledgerRun_concat] at hnew
      exact ⟨commands, x, [], rfl, hi, hrow, hnew hrow⟩
    · obtain ⟨rest, hrest⟩ := (grows_ledgerRun c texts commands [x]).balances
      rw [← hrest, List.getElem?_append_left (by omega)] at hrow
      obtain ⟨before, y, after, hcommands, hlater⟩ := ih hrow
      exact ⟨before, y, after ++ [x], by simp [hcommands], hlater⟩

/-- A line of a history is a stored row. -/
lemma mem_categoryHistory {r category : String} {row : BalanceRow}
    (h : row ∈ l.categoryHistory a r category) :
    ∃ stored i, l.balances[i]? = some stored ∧ row = l.balanceRow stored (i + 1) ∧
      stored.adapterId = a ∧ stored.resourceId = r ∧ stored.category = category := by
  obtain ⟨hrow, hcategory⟩ := List.mem_filter.mp h
  obtain ⟨⟨stored, id⟩, hmem, rfl⟩ := List.mem_map.mp hrow
  obtain ⟨hindexed, hkey⟩ := List.mem_filter.mp hmem
  obtain ⟨hid, hlt, hstored⟩ := List.mem_zipIdx hindexed
  simp only [Bool.and_eq_true, beq_iff_eq] at hkey
  refine ⟨stored, id - 1, ?_, ?_, hkey.1, hkey.2, by simpa [Ledger.balanceRow] using hcategory⟩
  · rw [hstored, List.getElem?_eq_getElem]
  · rw [Nat.sub_add_cancel hid]

/-- No read has been opened since the state in which one is current that still is. -/
lemma balanceRead_between {before mid rest : List Command} {n : ℕ}
    (hbefore : (ledgerRun c texts before).balanceRead a = some n)
    (hlast : (ledgerRun c texts (before ++ mid ++ rest)).balanceRead a = some n) :
    (ledgerRun c texts (before ++ mid)).balanceRead a = some n := by
  obtain ⟨m, hm, hle⟩ := (grows_ledgerRun c texts before mid).reads a n hbefore
  obtain ⟨n', hn', hle'⟩ := (grows_ledgerRun c texts (before ++ mid) rest).reads a m hm
  obtain rfl := Option.some.inj (hlast.symm.trans hn')
  rw [hm, hle.antisymm hle']

/-- A staleness of live rules out the outcomes that say otherwise. -/
lemma outcomeStaleness_eq_live {outcome : ReadOutcome} (h : outcomeStaleness outcome = .live) :
    (∀ asOf, outcome ≠ .stale asOf) ∧ outcome ≠ .unavailable ∧ outcome ≠ .gone := by
  cases outcome <;> simp_all [outcomeStaleness]

end Runs

/-- **The freshness of balances.** After any sequence of connections and refreshes, each of them
stopped anywhere:

1. A line is live only if its latest row was stored by a refresh of that adapter, from an accepted
   reply to a request for that very resource, whose status says neither stale, unavailable nor
   gone; and the read it carries is the one current in every state from then on.
2. What the current read did not rewrite is not live.
3. Every stored row has a resource of its adapter, and the outcome that its adapter reported.

**Proof sketch.** Every statement a refresh commits grows the tables, and the rows a command adds
carry the read that is current when it ends (`Command.spec`); read counters never decrease, so a
read that is current at the end has been current since. -/
theorem balance_freshness (c : Crates) (texts : Texts) (commands : List Command)
    (a r category : String) :
    (∀ amount row,
      face ((ledgerRun c texts commands).categoryHistory a r category) = .live amount row →
      ∃ before options v committed after stored status,
        commands = before ++ .refresh a options (.ok v) committed :: after ∧
        (ledgerRun c texts before).balances.length < row.balanceId ∧
        (ledgerRun c texts (before ++ [.refresh a options (.ok v) committed])).balances[
          row.balanceId - 1]? = some stored ∧
        row = (ledgerRun c texts commands).balanceRow stored row.balanceId ∧
        stored.resourceId = r ∧ stored.category = category ∧
        StoredFrom texts a v stored status ∧
        ((∀ asOf, status.outcome ≠ .stale asOf) ∧ status.outcome ≠ .unavailable ∧
          status.outcome ≠ .gone) ∧
        ∀ mid, mid <+: after →
          (ledgerRun c texts
            (before ++ .refresh a options (.ok v) committed :: mid)).balanceRead a =
              some stored.readId) ∧
    ((∀ stored ∈ (ledgerRun c texts commands).balances, stored.adapterId = a →
        stored.resourceId = r → stored.category = category →
        (ledgerRun c texts commands).balanceRead a ≠ some stored.readId) →
      ∀ amount row,
        face ((ledgerRun c texts commands).categoryHistory a r category) ≠ .live amount row) ∧
    ∀ stored ∈ (ledgerRun c texts commands).balances,
      (ledgerRun c texts commands).db.HasResource stored.adapterId stored.resourceId ∧
        ∃ x ∈ commands, x.Stores texts stored := by
  -- the stored row behind a line that is live
  have hlive {amount : Money.Amount} {row : BalanceRow}
      (h : face ((ledgerRun c texts commands).categoryHistory a r category) = .live amount row) :
      ∃ stored i, (ledgerRun c texts commands).balances[i]? = some stored ∧
        row = (ledgerRun c texts commands).balanceRow stored (i + 1) ∧ stored.adapterId = a ∧
        stored.resourceId = r ∧ stored.category = category ∧ stored.staleness = .live ∧
        (ledgerRun c texts commands).balanceRead a = some stored.readId := by
    obtain ⟨hlast, -, hfresh, hstale⟩ := face_eq_live.mp h
    obtain ⟨stored, i, hi, rfl, rfl, hr, hcategory⟩ :=
      mem_categoryHistory (List.mem_of_getLast? hlast)
    exact ⟨stored, i, hi, rfl, rfl, hr, hcategory, hstale, beq_iff_eq.mp hfresh⟩
  refine ⟨fun amount row h => ?_, fun hold amount row h => ?_, fun stored hstored => ?_⟩
  · obtain ⟨stored, i, hi, rfl, rfl, hr, hcategory, hstale, hcurrent⟩ := hlive h
    obtain ⟨before, x, after, rfl, hbefore, hthen, ⟨options, v, committed, rfl, hby⟩, hread, -⟩ :=
      exists_stores c texts commands hi
    obtain ⟨status, hfrom⟩ := hby
    have hstamp : stored.staleness = outcomeStaleness status.outcome := by
      obtain ⟨listed, raw, receivedAt, read, wire, -, -, -, -, -, -, -, -, heq⟩ := hfrom
      rw [heq]
      rfl
    refine ⟨before, options, v, committed, after, stored, status, rfl, ?_, ?_, rfl, hr, hcategory,
      hfrom, outcomeStaleness_eq_live (hstamp ▸ hstale), ?_⟩
    · exact Nat.lt_succ_of_le hbefore
    · exact hthen
    · rintro mid ⟨rest, rfl⟩
      have hsplit (tail : List Command) :
          before ++ .refresh stored.adapterId options (.ok v) committed :: tail =
            before ++ [.refresh stored.adapterId options (.ok v) committed] ++ tail := by
        simp
      rw [hsplit] at hcurrent ⊢
      rw [← List.append_assoc] at hcurrent
      exact balanceRead_between c texts hread hcurrent
  · obtain ⟨stored, i, hi, -, ha, hr, hcategory, -, hcurrent⟩ := hlive h
    exact hold stored (List.mem_of_getElem? hi) ha hr hcategory hcurrent
  · obtain ⟨i, hi⟩ := List.mem_iff_getElem?.mp hstored
    obtain ⟨before, x, after, rfl, -, -, hstores, -, hresource⟩ := exists_stores c texts commands hi
    refine ⟨?_, x, by simp, hstores⟩
    have hgrows := grows_ledgerRun c texts (before ++ [x]) after
    rw [List.append_assoc, List.singleton_append] at hgrows
    exact hgrows.resources _ _ hresource

end Sumer.Store
