import Sumer.Store.Chain

set_option relaxedAutoImplicit false
set_option autoImplicit false

/-!
# Ingestion refines observation

A sweep decides with a fold in memory what the tables alone already determine. As long as the
fold is the replay of the stored observations, ingesting a page is `Db.observe` of each of its
observations: it never fails, it stamps the row of the head, and it leaves a fold that is again
the replay of what is stored.

## Main definitions

* `Sumer.Store.Db.observeAll`: what a list of observations does to the tables.
* `Sumer.Store.Ingesting.Agrees`: memory and tables agree.

## Main results

* `Sumer.Store.head_load`, `Sumer.Store.highestRevision_load`: the loaded fold, by the tables.
* `Sumer.Store.ingestOne_spec`, `Sumer.Store.ingestPage_spec`: ingestion is observation.
* `Sumer.Store.mem_liveRecords`: the fold's live set is the tables'.
-/

namespace Sumer.Store

open Sumer.Wire Sumer.Host

/-- What a list of observations does to the tables. -/
def Db.observeAll (c : Crates) (input : SweepInput) (crawlId : ℕ) (db : Db)
    (observations : List Observation) : Db :=
  observations.foldl (Db.observe c input crawlId) db

/-- A page without a record leaves the store as it is. -/
@[simp]
lemma Db.observeAll_nil (c : Crates) (input : SweepInput) (crawlId : ℕ) (db : Db) :
    db.observeAll c input crawlId [] = db := rfl

/-- The records of a page are stored one after the other, the first one first. -/
@[simp]
lemma Db.observeAll_cons (c : Crates) (input : SweepInput) (crawlId : ℕ) (db : Db)
    (o : Observation) (os : List Observation) :
    db.observeAll c input crawlId (o :: os) =
      (db.observe c input crawlId o).observeAll c input crawlId os := rfl

/-- The records of two pages, one page after the other. -/
lemma Db.observeAll_append (c : Crates) (input : SweepInput) (crawlId : ℕ) (db : Db)
    (os os' : List Observation) :
    db.observeAll c input crawlId (os ++ os') =
      (db.observeAll c input crawlId os).observeAll c input crawlId os' :=
  List.foldl_append

/-- **The rule for what every observation of a sweep keeps.** -/
lemma Db.observeAll_invariant {c : Crates} {input : SweepInput} {crawlId : ℕ} {P : Db → Prop}
    {os : List Observation} (hstep : ∀ db, ∀ o ∈ os, P db → P (db.observe c input crawlId o))
    {db : Db} (hdb : P db) : P (db.observeAll c input crawlId os) := by
  induction os generalizing db with
  | nil => exact hdb
  | cons o os ih =>
    exact ih (fun db o ho => hstep db o (List.mem_cons_of_mem _ ho))
      (hstep db o List.mem_cons_self hdb)

/-! ### The loaded fold -/

section Load

variable {db : Db} {a l : String}

/-- The rows of a chain are those of its adapter with its local id. -/
lemma Db.chainRows_eq_filter :
    db.chainRows a l = (db.observationsForAdapter a).filter (·.observation.localId == l) := by
  simp [Db.chainRows, Db.observationsForAdapter, List.filter_filter, Bool.and_comm]

/-- **Replaying the stored observations re-assigns to every row its own revision.** -/
lemma revisions_load (h : db.Consistent) :
    revisions ((db.observationsForAdapter a).map StoredObservation.observation) (a, l) =
      (db.chainRows a l).map StoredObservation.revisioned := by
  have hfilter : ((db.observationsForAdapter a).map StoredObservation.observation).filter
      (fun o => chainKey o = (a, l)) =
        (db.chainRows a l).map StoredObservation.observation := by
    rw [List.filter_map, Db.chainRows_eq_filter]
    congr 1
    refine List.filter_congr fun r hr => ?_
    have hr' := List.mem_filter.mp hr
    have howner : r.observation.provenance.adapterId = a :=
      (h.provenance r hr'.1).trans (by simpa using hr'.2)
    simp [chainKey, howner, beq_eq_decide]
  rw [revisions, hfilter, List.zipIdx_eq_zip_range', List.length_map, ← h.revisions, List.zip_map',
    List.map_map]
  rfl

/-- The head of a loaded chain is the head of the chain in the tables. -/
lemma head_load (h : db.Consistent) :
    ((loadFold db a).chain a l).getLast? =
      (db.headRow a l).map StoredObservation.revisioned := by
  rw [loadFold, head_replay, revisions_load h]
  exact latest_map StoredObservation.key _ StoredObservation.revisioned (fun _ => rfl) _

/-- The highest revision of a loaded chain is the number of its rows. -/
lemma highestRevision_load (h : db.Consistent) :
    (loadFold db a).highestRevision a l =
      if (db.chainRows a l).length = 0 then none else some (db.chainRows a l).length := by
  rw [loadFold, highestRevision_replay, revisions_load h, List.length_map]

/-- The stored rules of a row, by its local id and revision. -/
lemma storedMeta_of_mem {rows : List StoredObservation} {r : StoredObservation} (hr : r ∈ rows)
    (hinj : ∀ s ∈ rows, s.observation.localId = r.observation.localId →
      s.revision = r.revision → s = r) :
    storedMeta rows (r.observation.localId, r.revision) = some ⟨r.derivation, r.fingerprint⟩ := by
  induction rows using List.reverseRecOn with
  | nil => simp at hr
  | append_singleton rows s ih =>
    rw [storedMeta, List.foldl_append, List.foldl_cons, List.foldl_nil]
    by_cases hs : (r.observation.localId, r.revision) = (s.observation.localId, s.revision)
    · obtain rfl : s = r := hinj s (by simp) (Prod.ext_iff.mp hs).1.symm (Prod.ext_iff.mp hs).2.symm
      rw [Function.update_self]
    · rw [Function.update_of_ne hs]
      have hr' : r ∈ rows := by
        rcases List.mem_append.mp hr with hr | hr
        · exact hr
        · rw [List.mem_singleton.mp hr] at hs
          exact absurd rfl hs
      exact ih hr' fun t ht => hinj t (List.mem_append_left _ ht)

/-- **The rules a sweep loads for a chain are those on the row of its head**, and every chain that
has rows has some. -/
lemma loadHeadMeta_eq (h : db.Consistent) :
    loadHeadMeta db a l = (db.headRow a l).map fun r => ⟨r.derivation, r.fingerprint⟩ := by
  rw [loadHeadMeta, head_load h]
  cases hhead : db.headRow a l with
  | none => rfl
  | some row =>
    have hrow := Db.mem_of_headRow hhead
    have hmem := Db.mem_chainRows.mp hrow
    simp only [Option.map_some, Option.bind_some, StoredObservation.revisioned]
    rw [← hmem.2.2]
    refine storedMeta_of_mem (List.mem_filter.mpr ⟨hmem.1, by simp [hmem.2.1]⟩) ?_
    intro s hs hl hrev
    have hs' := List.mem_filter.mp hs
    refine h.eq_of_revision (a := a) (l := l) ?_ hrow hrev
    exact Db.mem_chainRows.mpr ⟨hs'.1, by simpa using hs'.2, hl.trans hmem.2.2⟩

/-- **The live set in memory is the live set of the tables**, each record with its chain's highest
revision and its head.

**Proof sketch.** The fold in memory holds the head of every chain (`head_load`), and its highest
revision is the length of the chain. A record is in the live set when its head is active, under the
resource, and not buried, and these are the conditions of the tables. -/
lemma mem_liveRecords (h : db.Consistent) {r : String} {x : String × ℕ × Observation} :
    x ∈ liveRecords db a r ↔
      db.Live a r x.1 ∧ x.2.1 = (db.chainRows a x.1).length ∧
        (db.headRow a x.1).map StoredObservation.observation = some x.2.2 := by
  obtain ⟨l, n, o⟩ := x
  have hbind (l' : String) (row : StoredObservation) (hrow : db.headRow a l' = some row) :
      (loadFold db a).highestRevision a l' = some (db.chainRows a l').length := by
    rw [highestRevision_load h, if_neg]
    intro hzero
    have := Db.headRow_eq_none.mpr (List.length_eq_zero_iff.mp hzero)
    simp [hrow] at this
  simp only [liveRecords, liveSet, List.mem_insertionSort, List.mem_filterMap, List.mem_filter,
    Bool.and_eq_true, beq_iff_eq, Prod.exists, Option.bind_eq_some_iff,
    Option.ite_none_left_eq_some, Option.some.injEq, Prod.mk.injEq, Db.Live]
  constructor
  · rintro ⟨a', l', head, ⟨hlive, rfl, hres⟩, rev, hrev, hnb, rfl, rfl, rfl⟩
    obtain ⟨hhead, hactive⟩ := (Fold.mem_liveSet _ _ _).mp hlive
    rw [head_load h] at hhead
    obtain ⟨row, hrow, rfl⟩ := Option.map_eq_some_iff.mp hhead
    obtain rfl : (db.chainRows a' l').length = rev := by
      simpa [hbind l' row hrow] using hrev
    refine ⟨⟨row, hrow, hactive, hres, ?_⟩, rfl, by simp [hrow, StoredObservation.revisioned]⟩
    simpa [Db.buried] using hnb
  · rintro ⟨⟨row, hrow, hactive, hres, hnb⟩, rfl, ho⟩
    obtain rfl : row.observation = o := by simpa [hrow] using ho
    refine ⟨a, l, row.revisioned, ⟨?_, rfl, hres⟩, _, hbind l row hrow, ?_, rfl, rfl, rfl⟩
    · rw [Fold.mem_liveSet, head_load h, hrow]
      exact ⟨rfl, hactive⟩
    · simpa [Db.buried] using hnb

/-- No local id is listed twice among the live records of a resource. -/
lemma nodup_liveRecords (db : Db) (a r : String) : ((liveRecords db a r).map Prod.fst).Nodup := by
  rw [liveRecords, liveSet, ((List.perm_insertionSort _ _).map Prod.fst).nodup_iff, List.Nodup,
    List.pairwise_map, List.pairwise_filterMap]
  have hkeys : (loadFold db a).liveSet.Pairwise fun p q => p.1 ≠ q.1 :=
    List.pairwise_map.mp (loadFold db a).nodup_liveSet
  refine (hkeys.filter _).imp_of_mem ?_
  intro p q hp hq hne x hx y hy heq
  have howner (p : (String × String) × RevisionedObservation)
      (hp : p ∈ (loadFold db a).liveSet.filter fun p =>
        p.1.1 == a && p.2.observation.resourceId == r) : p.1.1 = a := by
    simpa using (Bool.and_eq_true_iff.mp (List.mem_filter.mp hp).2).1
  simp only [Option.bind_eq_some_iff, Option.ite_none_left_eq_some, Option.some.injEq] at hx hy
  obtain ⟨_, -, -, rfl⟩ := hx
  obtain ⟨_, -, -, rfl⟩ := hy
  exact hne (Prod.ext ((howner p hp).trans (howner q hq).symm) heq)

end Load

/-! ### Ingestion -/

/-- **Memory and tables agree**: the fold is the replay of the adapter's stored observations, the
burial map is the tables' own, and the crawl exists. -/
structure Ingesting.Agrees (s : Ingesting) (input : SweepInput) (crawlId : ℕ)
    (buried : String → Option ℕ) : Prop where
  consistent : s.db.Consistent
  fold : s.fold = loadFold s.db input.adapterId
  buried : buried = s.db.retractionHighWater input.adapterId
  crawl : s.db.hasCrawl crawlId = true

/-- The rules under which a sweep reports what it reports. -/
def SweepInput.rules (input : SweepInput) : HeadMeta :=
  ⟨input.helloDerivation, some input.fingerprint⟩

section Ingest

variable {c : Crates} {input : SweepInput} {crawlId : ℕ} {buried : String → Option ℕ}

/-- The fold loaded after an observation: one more arrival if it was appended, else the same. -/
lemma loadFold_observe {db : Db} (o : Observation) :
    loadFold (db.observe c input crawlId o) input.adapterId =
      if db.repeats c input.adapterId o then loadFold db input.adapterId
      else ((loadFold db input.adapterId).ingest o).1 := by
  unfold Db.observe
  split_ifs with hrep
  · have hrows : (db.stampHead input crawlId o.localId).observationsForAdapter input.adapterId =
        update (db.isHead input.adapterId o.localId) (StoredObservation.stamped input crawlId)
          (db.observationsForAdapter input.adapterId) :=
      filter_update _ _ (StoredObservation.stamped input crawlId) (fun _ => rfl) _
    rw [loadFold, hrows, map_update _ (StoredObservation.stamped input crawlId) _ fun _ => rfl]
    rfl
  · rw [loadFold, loadFold, Db.observationsForAdapter, Db.observationsForAdapter,
      List.filter_append, List.map_append, ← replay_concat]
    congr 2
    simp [Db.newRow]

/-- What the sweep's fold says about an observation is what the tables say. -/
lemma Ingesting.Agrees.alreadyHeld {s : Ingesting} (h : s.Agrees input crawlId buried)
    (o : Observation) :
    s.alreadyHeld c buried input.adapterId o = s.db.repeats c input.adapterId o := by
  rw [Ingesting.alreadyHeld, Ingesting.head, h.fold, h.buried, head_load h.consistent,
    highestRevision_load h.consistent, Db.repeats]
  cases hhead : s.db.headRow input.adapterId o.localId with
  | none => simp
  | some head =>
    have hne : s.db.chainRows input.adapterId o.localId ≠ [] := by
      intro hnil
      simp [Db.headRow_eq_none.mpr hnil] at hhead
    simp [hne, Db.buried, StoredObservation.revisioned]

/-- Memory and tables still agree after an observation, once the fold has followed. -/
lemma Ingesting.Agrees.observe {s s' : Ingesting} (h : s.Agrees input crawlId buried)
    {o : Observation} (ho : o.provenance.adapterId = input.adapterId)
    (hdb : s'.db = s.db.observe c input crawlId o)
    (hfold : s'.fold = loadFold (s.db.observe c input crawlId o) input.adapterId) :
    s'.Agrees input crawlId buried where
  consistent := hdb ▸ h.consistent.observe ho
  fold := hdb ▸ hfold
  buried := by rw [h.buried, hdb, Db.retractionHighWater_congr Db.retractions_observe]
  crawl := by
    rw [hdb, Db.hasCrawl, Db.crawls_observe]
    exact h.crawl

/-- **Ingesting one observation is observing it.** It never fails.

**Proof sketch.** The decision is the tables' own. A stamp names the head's revision, hence the
row of the head. An insert uses the revision after the last of its chain, which no row has. -/
lemma ingestOne_spec {s : Ingesting} (h : s.Agrees input crawlId buried) {o : Observation}
    (ho : o.provenance.adapterId = input.adapterId) :
    ∃ s', ingestOne c input crawlId buried s o = .ok s' ∧
      s'.db = s.db.observe c input crawlId o ∧
      s'.headMeta = Function.update s.headMeta o.localId (some input.rules) ∧
      s'.Agrees input crawlId buried := by
  have hkey : chainKey o = (input.adapterId, o.localId) := by simp [chainKey, ho]
  unfold ingestOne
  simp only [h.alreadyHeld]
  cases hrep : s.db.repeats c input.adapterId o with
  | true =>
    have hdb : s.db.stampSeen input.adapterId o.localId (s.stampedRevision input.adapterId o)
        crawlId input.helloDerivation (some input.fingerprint) =
          s.db.observe c input crawlId o := by
      rw [Db.observe, if_pos hrep, Db.stampHead, Ingesting.stampedRevision, Ingesting.head, h.fold,
        head_load h.consistent, Option.map_map]
      rfl
    refine ⟨_, if_pos rfl, hdb, rfl, h.observe ho hdb ?_⟩
    rw [loadFold_observe, if_pos hrep]
    exact h.fold
  | false =>
    have hnew : ¬ s.db.repeats c input.adapterId o = true := by simp [hrep]
    have hrev : (s.fold.ingest o).2 = (s.db.chainRows input.adapterId o.localId).length + 1 := by
      rw [h.fold, loadFold, ingest_replay, hkey, revisions_load h.consistent, List.length_map]
    have hunique : s.db.observations.any (fun r => r.adapterId == input.adapterId &&
        r.observation.localId == o.localId && decide (r.revision = (s.fold.ingest o).2)) =
          false := by
      rw [List.any_eq_false]
      intro r hr
      simp only [Bool.and_eq_true, beq_iff_eq, decide_eq_true_eq, not_and, and_imp]
      intro ha hl hrevision
      have := (h.consistent.revision_mem (Db.mem_chainRows.mpr ⟨hr, ha, hl⟩)).2
      omega
    have happend : s.db.appendObservation
        { adapterId := input.adapterId, revision := (s.fold.ingest o).2, crawlId,
          derivation := input.helloDerivation, fingerprint := some input.fingerprint,
          contentHash := contentHash c o, observation := o } =
          .ok (s.db.observe c input crawlId o) := by
      rw [Db.appendObservation, if_neg (by rw [hunique]; simp), if_pos h.crawl, Db.observe,
        if_neg hnew]
      simp [Append.row, Db.newRow, hrev]
    simp only [happend]
    refine ⟨_, rfl, rfl, rfl, h.observe (c := c) ho rfl ?_⟩
    rw [loadFold_observe, if_neg hnew, h.fold]

/-- **Ingesting a page is observing its observations**, one after the other. It never fails, and
memory and tables still agree. -/
lemma ingestPage_spec {s : Ingesting} (h : s.Agrees input crawlId buried) {os : List Observation}
    (hos : ∀ o ∈ os, o.provenance.adapterId = input.adapterId) :
    ∃ s', ingestPage c input crawlId buried s os = .ok s' ∧
      s'.db = s.db.observeAll c input crawlId os ∧
      (∀ l, s'.headMeta l =
        if l ∈ os.map Observation.localId then some input.rules else s.headMeta l) ∧
      s'.Agrees input crawlId buried := by
  induction os generalizing s with
  | nil => exact ⟨s, rfl, rfl, by simp, h⟩
  | cons o os ih =>
    obtain ⟨s₁, hone, hdb₁, hmeta₁, h₁⟩ := ingestOne_spec (c := c) h (hos o List.mem_cons_self)
    obtain ⟨s₂, hall, hdb₂, hmeta₂, h₂⟩ := ih h₁ fun o' ho' => hos o' (List.mem_cons_of_mem _ ho')
    refine ⟨s₂, ?_, ?_, ?_, h₂⟩
    · rw [ingestPage, List.foldlM_cons, hone]
      exact hall
    · rw [hdb₂, hdb₁, Db.observeAll_cons]
    · intro l
      simp only [hmeta₂, hmeta₁, List.map_cons, List.mem_cons, Function.update_apply]
      split_ifs <;> tauto

end Ingest

end Sumer.Store
