import Sumer.Store.Ingest

set_option relaxedAutoImplicit false
set_option autoImplicit false

/-!
# How a head moves

The head of a chain under one observation of its record: stamped if the observation repeats it,
replaced if the observation does not sort before it, and otherwise left as it is.

## Main definitions

* `Sumer.Store.reportsOf`: the reports of one record among some observations.
* `Sumer.Store.StoredObservation.rules`: the software rules on a row.
* `Sumer.Store.Db.SameChain`: two databases agree on one chain.

## Main results

* `Sumer.Store.Db.headRow_observe_of_repeats`, `Sumer.Store.Db.headRow_observe_of_appended`,
  `Sumer.Store.Db.headRow_observe_of_none`: the three cases.
* `Sumer.Store.Db.SameChain.observeAll`: a chain sees the reports of its own record only.
-/

namespace Sumer.Store

open Sumer.Wire Sumer.Host

/-- The reports of one record among some observations. -/
def reportsOf (l : String) (os : List Observation) : List Observation :=
  os.filter (·.localId == l)

/-- The rules on a row. -/
def StoredObservation.rules (r : StoredObservation) : HeadMeta := ⟨r.derivation, r.fingerprint⟩

section Heads

variable {c : Crates} {input : SweepInput} {crawlId : ℕ} {db : Db} {l : String}

/-- A repeated observation puts the sweep's rules on the head. -/
lemma Db.headRow_observe_of_repeats {o : Observation} {h : StoredObservation}
    (hhead : db.headRow input.adapterId o.localId = some h)
    (hrep : db.repeats c input.adapterId o = true) :
    (db.observe c input crawlId o).headRow input.adapterId o.localId =
      some (h.stamped input crawlId) := by
  simp [Db.headRow_observe, hrep, hhead]

/-- An appended observation becomes the head unless it sorts before it. -/
lemma Db.headRow_observe_of_appended {o : Observation} {h : StoredObservation}
    (hhead : db.headRow input.adapterId o.localId = some h)
    (hrep : ¬ db.repeats c input.adapterId o = true) :
    (db.observe c input crawlId o).headRow input.adapterId o.localId =
      some (if h.key ≤ orderKey o then db.newRow c input crawlId o else h) := by
  have hkey : (db.newRow c input crawlId o).key = orderKey o := rfl
  rw [Db.headRow_observe, if_pos ⟨rfl, rfl⟩, if_neg hrep, hhead, later, hkey]
  split_ifs <;> rfl

/-- The first observation of a chain becomes its head. -/
lemma Db.headRow_observe_of_none {o : Observation}
    (hhead : db.headRow input.adapterId o.localId = none) :
    (db.observe c input crawlId o).headRow input.adapterId o.localId =
      some (db.newRow c input crawlId o) := by
  have hrep : db.repeats c input.adapterId o = false := by simp [Db.repeats, hhead]
  simp [Db.headRow_observe, hrep, hhead, later]

end Heads

/-! ### One chain at a time -/

/-- Two databases agree on one chain: on its rows, and on how far it is retracted. -/
structure Db.SameChain (a l : String) (db db' : Db) : Prop where
  rows : db'.chainRows a l = db.chainRows a l
  water : db'.retractionHighWater a l = db.retractionHighWater a l

namespace Db.SameChain

variable {c : Crates} {input : SweepInput} {crawlId : ℕ} {db db' db'' : Db} {a l : String}

/-- A chain is the same as in the store itself. -/
lemma refl (db : Db) : SameChain a l db db := ⟨rfl, rfl⟩

/-- Whether a chain is the same does not depend on which store comes first. -/
lemma symm (h : SameChain a l db db') : SameChain a l db' db := ⟨h.rows.symm, h.water.symm⟩

/-- A chain that is the same over two steps is the same over both. -/
lemma trans (h : SameChain a l db db') (h' : SameChain a l db' db'') : SameChain a l db db'' :=
  ⟨h'.rows.trans h.rows, h'.water.trans h.water⟩

/-- Databases with the same observations and retractions agree on every chain. -/
lemma of_eq (h : db'.observations = db.observations) (h' : db'.retractions = db.retractions) :
    SameChain a l db db' :=
  ⟨by simp [chainRows, h], by rw [retractionHighWater_congr h']⟩

/-- A chain that is the same has the same head. -/
lemma headRow (h : SameChain a l db db') : db'.headRow a l = db.headRow a l := by
  rw [Db.headRow, h.rows, Db.headRow]

/-- A chain that is the same is buried or not as before. -/
lemma buried (h : SameChain a l db db') : db'.buried a l = db.buried a l := by
  rw [Db.buried, Db.buried, isBuried, isBuried, h.water, h.rows]

/-- A chain that is the same is live in the same resources. -/
lemma live (h : SameChain a l db db') (r : String) : db'.Live a r l ↔ db.Live a r l := by
  rw [Live, Live, h.headRow, h.buried]

/-- Databases that agree on the chain of an observation agree on whether it repeats the head. -/
lemma repeats {o : Observation} (h : SameChain a o.localId db db') :
    db'.repeats c a o = db.repeats c a o := by
  rw [Db.repeats, Db.repeats, h.buried, h.headRow]

/-- An observation of another chain leaves a chain as it is. -/
lemma observe_of_ne {o : Observation} (hne : ¬(a = input.adapterId ∧ l = o.localId)) :
    SameChain a l db (db.observe c input crawlId o) :=
  ⟨chainRows_observe_of_ne hne, by rw [retractionHighWater_congr retractions_observe]⟩

/-- Databases that agree on a chain agree on it after the same observation. -/
lemma observe (h : SameChain a l db db') (o : Observation) :
    SameChain a l (db.observe c input crawlId o) (db'.observe c input crawlId o) := by
  by_cases hne : a = input.adapterId ∧ l = o.localId
  · obtain ⟨rfl, rfl⟩ := hne
    refine ⟨?_, ?_⟩
    · rw [chainRows_observe, chainRows_observe, h.repeats, h.headRow, h.rows, newRow, newRow,
        h.rows]
    · rw [retractionHighWater_congr retractions_observe, h.water,
        retractionHighWater_congr retractions_observe]
  · exact (observe_of_ne hne).symm.trans (h.trans (observe_of_ne hne))

/-- **A chain sees the reports of its own record only.** -/
lemma observeAll (h : SameChain input.adapterId l db db') (os : List Observation) :
    SameChain input.adapterId l (db.observeAll c input crawlId (reportsOf l os))
      (db'.observeAll c input crawlId os) := by
  induction os generalizing db db' with
  | nil => exact h
  | cons o os ih =>
    by_cases hl : o.localId = l
    · have hreports : reportsOf l (o :: os) = o :: reportsOf l os := by simp [reportsOf, hl]
      rw [hreports]
      exact ih (h.observe o)
    · have hreports : reportsOf l (o :: os) = reportsOf l os := by simp [reportsOf, hl]
      rw [hreports]
      exact ih (h.trans (observe_of_ne fun hne => hl hne.2.symm))

end Db.SameChain

end Sumer.Store
