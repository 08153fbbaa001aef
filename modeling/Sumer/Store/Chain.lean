import Sumer.Store.SweepRun

set_option relaxedAutoImplicit false
set_option autoImplicit false

/-!
# Chains in the tables

What the observation and retraction tables say about one `(adapter_id, local_id)`, without a
fold: its rows, the row that is its head, whether a retraction buries it, whether it is live. An
observation acts on the tables in one of two ways: it stamps the head that already says the same
thing, or it is appended to its chain.

## Main definitions

* `Sumer.Store.Db.chainRows`, `Sumer.Store.Db.headRow`, `Sumer.Store.Db.buried`.
* `Sumer.Store.Db.Live`: a local id is live under a resource.
* `Sumer.Store.Db.observe`: what one observation does to the tables.
* `Sumer.Store.Db.Consistent`: the invariant of the tables.

## Main results

* `Sumer.Store.Db.buried_iff`: a chain is buried by a retraction of its highest revision.
* `Sumer.Store.Db.chainRows_observe`, `Sumer.Store.Db.headRow_observe`: the effect of an
  observation on a chain, and on every other.
* `Sumer.Store.Db.Consistent.observe`: an observation keeps the invariant.
-/

namespace Sumer.Store

open Sumer.Wire Sumer.Host

/-- The rows of one chain, in stored order. -/
def Db.chainRows (db : Db) (a l : String) : List StoredObservation :=
  db.observations.filter fun r => r.adapterId == a && r.observation.localId == l

/-- What orders the rows of a chain. -/
def StoredObservation.key (r : StoredObservation) : String ×ₗ String := orderKey r.observation

/-- A row as the fold has it. -/
def StoredObservation.revisioned (r : StoredObservation) : RevisionedObservation :=
  ⟨r.revision, r.observation⟩

/-- The row that is the head of a chain: its latest by receipt time and surface. -/
def Db.headRow (db : Db) (a l : String) : Option StoredObservation :=
  latest StoredObservation.key (db.chainRows a l)

/-- Whether a retraction buries a chain. -/
def Db.buried (db : Db) (a l : String) : Bool :=
  isBuried (db.retractionHighWater a) l (db.chainRows a l).length

/-- A local id is live under a resource of an adapter: the head of its chain is active, reports
that resource, and no retraction buries the chain. -/
def Db.Live (db : Db) (a r l : String) : Prop :=
  ∃ row, db.headRow a l = some row ∧ row.observation.state = .active ∧
    row.observation.resourceId = r ∧ db.buried a l = false

/-- Liveness looks at one row, so that it can be evaluated. -/
instance (db : Db) (a r l : String) : Decidable (db.Live a r l) :=
  match h : db.headRow a l with
  | none => isFalse (by rintro ⟨row, hrow, -⟩; simp [h] at hrow)
  | some row =>
    decidable_of_iff (row.observation.state = .active ∧ row.observation.resourceId = r ∧
      db.buried a l = false) (by simp [Db.Live, h])

/-- The tables' invariant: the rows of each chain carry the revisions `1, 2, …, n` in stored
order, each under its own adapter; a retraction names a revision its chain has, and no revision
is retracted twice; crawl ids grow. -/
structure Db.Consistent (db : Db) : Prop where
  revisions : ∀ a l, (db.chainRows a l).map StoredObservation.revision =
    List.range' 1 (db.chainRows a l).length
  provenance : ∀ r ∈ db.observations, r.observation.provenance.adapterId = r.adapterId
  retracted : ∀ ρ ∈ db.retractions, 1 ≤ ρ.revision ∧
    ρ.revision ≤ (db.chainRows ρ.adapterId ρ.localId).length
  retractedOnce : (db.retractions.map fun ρ => (ρ.adapterId, ρ.localId, ρ.revision)).Nodup
  crawlIds : (db.crawls.map CrawlRow.crawlId).Pairwise (· < ·)

/-- Whether an observation says what the head of its chain already says, of a chain that is not
buried. -/
def Db.repeats (c : Crates) (db : Db) (a : String) (o : Observation) : Bool :=
  !db.buried a o.localId &&
    (db.headRow a o.localId).any fun h => contentHash c h.observation == contentHash c o

/-- The row an observation becomes when it is appended. -/
def Db.newRow (c : Crates) (input : SweepInput) (crawlId : ℕ) (db : Db) (o : Observation) :
    StoredObservation where
  adapterId := input.adapterId
  revision := (db.chainRows input.adapterId o.localId).length + 1
  crawlId := crawlId
  lastSeenCrawl := crawlId
  derivation := input.helloDerivation
  fingerprint := some input.fingerprint
  contentHash := contentHash c o
  observation := o

/-- A row after a sweep has seen its record again. -/
def StoredObservation.stamped (input : SweepInput) (crawlId : ℕ) (r : StoredObservation) :
    StoredObservation :=
  { r with
    lastSeenCrawl := crawlId
    derivation := input.helloDerivation
    fingerprint := some input.fingerprint }

/-- Stamps the head of a chain. -/
def Db.stampHead (input : SweepInput) (crawlId : ℕ) (db : Db) (l : String) : Db :=
  db.stampSeen input.adapterId l
    (((db.headRow input.adapterId l).map StoredObservation.revision).getD 1) crawlId
    input.helloDerivation (some input.fingerprint)

/-- Whether a row is the head of a chain, by what `stampSeen` names it with. -/
def Db.isHead (db : Db) (a l : String) (r : StoredObservation) : Bool :=
  r.adapterId == a && r.observation.localId == l &&
    decide (r.revision = ((db.headRow a l).map StoredObservation.revision).getD 1)

/-- What one observation does to the tables. -/
def Db.observe (c : Crates) (input : SweepInput) (crawlId : ℕ) (db : Db) (o : Observation) : Db :=
  if db.repeats c input.adapterId o then db.stampHead input crawlId o.localId
  else { db with observations := db.observations ++ [db.newRow c input crawlId o] }

/-! ### Lists of rows -/

section Update

variable {α : Type}

/-- An update changes rows in place: none is added and none is lost. -/
@[simp]
lemma length_update (p : α → Bool) (f : α → α) (rows : List α) :
    (update p f rows).length = rows.length := by
  simp [update]

/-- A column that an update does not write stays as it is. -/
lemma map_update {β : Type} (p : α → Bool) (f : α → α) (g : α → β) (hg : ∀ r, g (f r) = g r)
    (rows : List α) : (update p f rows).map g = rows.map g := by
  simp only [update, List.map_map]
  refine List.map_congr_left fun r _ => ?_
  by_cases h : p r <;> simp [h, hg]

/-- A selection by columns that an update does not write commutes with the update. -/
lemma filter_update (p q : α → Bool) (f : α → α) (hq : ∀ r, q (f r) = q r) (rows : List α) :
    (update p f rows).filter q = update p f (rows.filter q) := by
  induction rows with
  | nil => rfl
  | cons r rows ih =>
    have hr : q (if p r then f r else r) = q r := by split_ifs <;> simp [hq]
    simp only [update, List.map_cons, List.filter_cons, hr] at ih ⊢
    by_cases h : q r <;> simp [h, ih]

/-- Two updates of the same rows are one. -/
lemma update_update (p : α → Bool) (f g : α → α) (hg : ∀ r, p (g r) = p r) (rows : List α) :
    update p f (update p g rows) = update p (f ∘ g) rows := by
  simp only [update, List.map_map]
  refine List.map_congr_left fun r _ => ?_
  by_cases h : p r <;> simp [h, hg]

/-- An update that matches no row changes nothing. -/
lemma update_eq_self {p : α → Bool} (f : α → α) {rows : List α} (h : ∀ r ∈ rows, p r = false) :
    update p f rows = rows := by
  simp only [update]
  refine (List.map_congr_left fun r hr => ?_).trans (List.map_id rows)
  simp [h r hr]

/-- The rows of an updated table are the rows of the table, changed where they are selected. -/
lemma mem_update {p : α → Bool} {f : α → α} {rows : List α} {r : α} :
    r ∈ update p f rows ↔ ∃ r' ∈ rows, (if p r' then f r' else r') = r := List.mem_map

end Update

/-! ### Rows, heads, burial -/

namespace Db

variable {db : Db} {a l : String}

/-- The rows of a chain are the stored rows of its adapter and local id. -/
lemma mem_chainRows {r : StoredObservation} :
    r ∈ db.chainRows a l ↔
      r ∈ db.observations ∧ r.adapterId = a ∧ r.observation.localId = l := by
  simp [chainRows]

/-- The head of a chain is one of its rows. -/
lemma mem_of_headRow {row : StoredObservation} (h : db.headRow a l = some row) :
    row ∈ db.chainRows a l := mem_of_latest _ h

/-- A chain without a head has no rows. -/
@[simp]
lemma headRow_eq_none : db.headRow a l = none ↔ db.chainRows a l = [] :=
  latest_eq_none_iff _ _

/-- What a high-water mark buries: the revisions up to some retraction. -/
lemma isBuried_iff {n : ℕ} :
    isBuried (db.retractionHighWater a) l n = true ↔
      ∃ ρ ∈ db.retractions, ρ.adapterId = a ∧ ρ.localId = l ∧ n ≤ ρ.revision := by
  simp only [isBuried, Option.any_eq_true, retractionHighWater, decide_eq_true_eq]
  constructor
  · rintro ⟨top, htop, hle⟩
    obtain ⟨ρ, hρ, rfl⟩ := List.mem_map.mp (List.max?_mem htop)
    have hρ' := List.mem_filter.mp hρ
    simp only [Bool.and_eq_true, beq_iff_eq] at hρ'
    exact ⟨ρ, hρ'.1, hρ'.2.1, hρ'.2.2, hle⟩
  · rintro ⟨ρ, hρ, rfl, rfl, hle⟩
    have hmem : ρ.revision ∈ ((db.retractions.filter fun r =>
        r.adapterId == ρ.adapterId && r.localId == ρ.localId).map RetractionRow.revision) :=
      List.mem_map.mpr ⟨ρ, List.mem_filter.mpr ⟨hρ, by simp⟩, rfl⟩
    obtain ⟨top, htop⟩ := Option.isSome_iff_exists.mp
      (List.isSome_max?_of_mem hmem)
    exact ⟨top, htop, hle.trans (List.max?_eq_some_iff.mp htop |>.2 _ hmem)⟩

/-- **A chain is buried exactly by a retraction at or above its highest revision.** -/
lemma buried_iff :
    db.buried a l = true ↔ ∃ ρ ∈ db.retractions, ρ.adapterId = a ∧ ρ.localId = l ∧
      (db.chainRows a l).length ≤ ρ.revision :=
  isBuried_iff

/-- The retraction high-water mark reads nothing but the retractions. -/
lemma retractionHighWater_congr {db' : Db} (h : db'.retractions = db.retractions) :
    db'.retractionHighWater = db.retractionHighWater := by
  funext a l
  simp [retractionHighWater, h]

/-- A chain is not buried when every retraction of it is of an earlier revision. -/
lemma buried_eq_false_iff :
    db.buried a l = false ↔ ∀ ρ ∈ db.retractions, ρ.adapterId = a → ρ.localId = l →
      ρ.revision < (db.chainRows a l).length := by
  rw [← Bool.not_eq_true, buried_iff]
  push Not
  exact Iff.rfl

/-- The revision of a row, by its place in the chain. -/
lemma Consistent.revision_mem (h : db.Consistent) {r : StoredObservation}
    (hr : r ∈ db.chainRows a l) : 1 ≤ r.revision ∧ r.revision ≤ (db.chainRows a l).length := by
  have hmem : r.revision ∈ (db.chainRows a l).map StoredObservation.revision :=
    List.mem_map_of_mem hr
  rw [h.revisions, List.mem_range'_1] at hmem
  omega

/-- Rows of one chain with one revision are one row. -/
lemma Consistent.eq_of_revision (h : db.Consistent) {r s : StoredObservation}
    (hr : r ∈ db.chainRows a l) (hs : s ∈ db.chainRows a l) (heq : r.revision = s.revision) :
    r = s := by
  have hnodup : ((db.chainRows a l).map StoredObservation.revision).Nodup := by
    rw [h.revisions]
    exact List.nodup_range'
  exact List.inj_on_of_nodup_map hnodup hr hs heq

end Db

/-! ### The effect of an observation -/

section Observe

variable {c : Crates} {input : SweepInput} {crawlId : ℕ} {db : Db} {o : Observation}
  {a l : String}

/-- Stamping writes the head of one chain. -/
lemma Db.chainRows_stampHead (l' : String) :
    (db.stampHead input crawlId l').chainRows a l =
      if a = input.adapterId ∧ l = l' then
        update (fun r => some r.revision == (db.headRow a l).map StoredObservation.revision)
          (StoredObservation.stamped input crawlId) (db.chainRows a l)
      else db.chainRows a l := by
  have hfilter : (db.stampHead input crawlId l').chainRows a l =
      update (db.isHead input.adapterId l') (StoredObservation.stamped input crawlId)
        (db.chainRows a l) :=
    filter_update _ _ (StoredObservation.stamped input crawlId) (fun _ => rfl) _
  rw [hfilter]
  split_ifs with h
  · obtain ⟨rfl, rfl⟩ := h
    refine List.map_congr_left fun r hr => ?_
    obtain ⟨-, ha, hl⟩ := Db.mem_chainRows.mp hr
    cases hhead : db.headRow input.adapterId l with
    | none => exact absurd (Db.headRow_eq_none.mp hhead ▸ hr : r ∈ []) List.not_mem_nil
    | some head => simp [Db.isHead, ha, hl, hhead]
  · refine update_eq_self _ fun r hr => ?_
    obtain ⟨-, ha, hl⟩ := Db.mem_chainRows.mp hr
    simp only [Db.isHead, Bool.and_eq_false_iff, beq_eq_false_iff_ne, ha, hl]
    tauto

/-- **The effect of an observation on a chain.** Its own chain is stamped at the head or grows by
one row, every other chain keeps its rows. -/
lemma Db.chainRows_observe :
    (db.observe c input crawlId o).chainRows a l =
      if a = input.adapterId ∧ l = o.localId then
        if db.repeats c input.adapterId o then
          update (fun r => some r.revision == (db.headRow a l).map StoredObservation.revision)
            (StoredObservation.stamped input crawlId) (db.chainRows a l)
        else db.chainRows a l ++ [db.newRow c input crawlId o]
      else db.chainRows a l := by
  by_cases hrep : db.repeats c input.adapterId o = true
  · rw [Db.observe, if_pos hrep, Db.chainRows_stampHead]
    simp [hrep]
  · rw [Db.observe, if_neg hrep]
    have hrow : (db.newRow c input crawlId o).adapterId = input.adapterId ∧
        (db.newRow c input crawlId o).observation.localId = o.localId := ⟨rfl, rfl⟩
    split_ifs with h
    · simp [Db.chainRows, List.filter_append, hrow.1, hrow.2, h.1, h.2]
    · have hne : ((db.newRow c input crawlId o).adapterId == a &&
          (db.newRow c input crawlId o).observation.localId == l) = false := by
        simp only [hrow.1, hrow.2, Bool.and_eq_false_iff, beq_eq_false_iff_ne]
        tauto
      simp [Db.chainRows, List.filter_append, hne]

/-- A chain an observation does not belong to keeps its rows. -/
lemma Db.chainRows_observe_of_ne (h : ¬(a = input.adapterId ∧ l = o.localId)) :
    (db.observe c input crawlId o).chainRows a l = db.chainRows a l := by
  rw [Db.chainRows_observe, if_neg h]

/-- A column of a chain that stamping does not write, after an observation. -/
lemma Db.map_chainRows_observe {β : Type} (g : StoredObservation → β)
    (hg : ∀ r, g (StoredObservation.stamped input crawlId r) = g r) :
    ((db.observe c input crawlId o).chainRows a l).map g =
      if a = input.adapterId ∧ l = o.localId ∧ db.repeats c input.adapterId o = false then
        (db.chainRows a l).map g ++ [g (db.newRow c input crawlId o)]
      else (db.chainRows a l).map g := by
  rw [Db.chainRows_observe]
  by_cases h : a = input.adapterId ∧ l = o.localId
  · cases hrep : db.repeats c input.adapterId o
    · simp [h.1, h.2]
    · simp [h.1, h.2, map_update _ _ g hg]
  · rw [if_neg h, if_neg (by tauto)]

/-- How long a chain is after an observation. -/
lemma Db.length_chainRows_observe :
    ((db.observe c input crawlId o).chainRows a l).length =
      if a = input.adapterId ∧ l = o.localId ∧ db.repeats c input.adapterId o = false then
        (db.chainRows a l).length + 1
      else (db.chainRows a l).length := by
  have h := congrArg List.length
    (@Db.map_chainRows_observe c input crawlId db o a l Unit (fun _ => ()) fun _ => rfl)
  rw [List.length_map] at h
  rw [h]
  split_ifs <;> simp

/-- Storing an observation retracts nothing, and takes no retraction back. -/
@[simp]
lemma Db.retractions_observe :
    (db.observe c input crawlId o).retractions = db.retractions := by
  unfold Db.observe Db.stampHead Db.stampSeen
  split_ifs <;> rfl

/-- Storing an observation leaves the crawls as they are: its crawl was opened before. -/
@[simp]
lemma Db.crawls_observe : (db.observe c input crawlId o).crawls = db.crawls := by
  unfold Db.observe Db.stampHead Db.stampSeen
  split_ifs <;> rfl

/-- Storing an observation defines no resource. -/
@[simp]
lemma Db.resources_observe : (db.observe c input crawlId o).resources = db.resources := by
  unfold Db.observe Db.stampHead Db.stampSeen
  split_ifs <;> rfl

/-- Storing an observation leaves what is known of the adapters. -/
@[simp]
lemma Db.adapters_observe : (db.observe c input crawlId o).adapters = db.adapters := by
  unfold Db.observe Db.stampHead Db.stampSeen
  split_ifs <;> rfl

/-- Storing an observation reports no discrepancy: these come when a sweep ends. -/
@[simp]
lemma Db.discrepancies_observe :
    (db.observe c input crawlId o).discrepancies = db.discrepancies := by
  unfold Db.observe Db.stampHead Db.stampSeen
  split_ifs <;> rfl

/-- **The effect of an observation on a head.** -/
lemma Db.headRow_observe :
    (db.observe c input crawlId o).headRow a l =
      if a = input.adapterId ∧ l = o.localId then
        if db.repeats c input.adapterId o then
          (db.headRow a l).map (StoredObservation.stamped input crawlId)
        else later StoredObservation.key (db.headRow a l) (db.newRow c input crawlId o)
      else db.headRow a l := by
  rw [Db.headRow, Db.chainRows_observe]
  split_ifs with h hrep
  · rw [update, latest_map StoredObservation.key _ _ fun r => by split_ifs <;> rfl]
    change (db.headRow a l).map _ = _
    cases hhead : db.headRow a l with
    | none => rfl
    | some head => simp
  · exact latest_concat _ _ _
  · rfl

/-- A repeated observation has a head to repeat. -/
lemma Db.exists_head_of_repeats (h : db.repeats c a o = true) :
    ∃ head, db.headRow a o.localId = some head ∧ db.buried a o.localId = false ∧
      contentHash c head.observation = contentHash c o := by
  simpa [Db.repeats, and_left_comm, Option.any_eq_true] using h

/-- A chain that an observation does not belong to is buried as before. -/
lemma Db.buried_observe_of_ne (h : ¬(a = input.adapterId ∧ l = o.localId)) :
    (db.observe c input crawlId o).buried a l = db.buried a l := by
  rw [Db.buried, Db.retractionHighWater_congr Db.retractions_observe,
    Db.chainRows_observe_of_ne h, Db.buried]

/-- **An observed chain is not buried**: it was not before, or it has grown past its retractions. -/
lemma Db.Consistent.buried_observe (hdb : db.Consistent) :
    (db.observe c input crawlId o).buried input.adapterId o.localId = false := by
  rw [Db.buried_eq_false_iff, Db.length_chainRows_observe, Db.retractions_observe]
  intro ρ hρ ha hl
  cases hrep : db.repeats c input.adapterId o
  · have := (hdb.retracted ρ hρ).2
    rw [ha, hl] at this
    simp only [and_self, if_true]
    omega
  · obtain ⟨head, -, hburied, -⟩ := Db.exists_head_of_repeats hrep
    simpa using Db.buried_eq_false_iff.mp hburied ρ hρ ha hl

/-- **An observation keeps the tables' invariant**, when it is the adapter's own: it adds the next
revision of its chain, or stamps the head.

**Proof sketch.** By the fields. The chain of the observation has one more row, numbered by its
length, or as many as before; the new row is the adapter's own; and a retraction of a chain stays
within its length. -/
lemma Db.Consistent.observe (hdb : db.Consistent) (ho : o.provenance.adapterId = input.adapterId) :
    (db.observe c input crawlId o).Consistent where
  revisions a l := by
    rw [Db.map_chainRows_observe _ fun _ => rfl, Db.length_chainRows_observe, hdb.revisions]
    split_ifs with h
    · rw [h.1, h.2.1, List.range'_concat]
      simp [Db.newRow, Nat.add_comm]
    · rfl
  provenance r hr := by
    unfold Db.observe at hr
    split_ifs at hr
    · obtain ⟨r', hr', rfl⟩ := mem_update.mp hr
      split_ifs <;> exact hdb.provenance r' hr'
    · rcases List.mem_append.mp hr with hr | hr
      · exact hdb.provenance r hr
      · rw [List.mem_singleton.mp hr]
        exact ho
  retracted ρ hρ := by
    rw [Db.retractions_observe] at hρ
    refine ⟨(hdb.retracted ρ hρ).1, (hdb.retracted ρ hρ).2.trans ?_⟩
    rw [Db.length_chainRows_observe]
    split_ifs <;> omega
  retractedOnce := by simpa using hdb.retractedOnce
  crawlIds := by simpa using hdb.crawlIds

end Observe

end Sumer.Store
