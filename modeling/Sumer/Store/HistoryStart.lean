import Sumer.Host.Checked
import Sumer.Store.Retraction

set_option relaxedAutoImplicit false
set_option autoImplicit false

/-!
# The reach of a sweep

A sweep whose adapter reports how far back its history goes retracts no record from before that
(`core/store/src/sweep.rs`). The comparison is that of the instants that the timestamps name.

## Main results

* `Sumer.Store.notBefore_iff_instant`: which of two timestamps is not before the other.
* `Sumer.Store.timestamp_order_exact`: the order of timestamps is that of their instants.
-/

namespace Sumer.Store

open Sumer.Wire Sumer.Host

/-- When a record took effect, or else was observed. -/
def effectiveTime (o : Observation) : Rfc3339 :=
  o.provenance.effectiveAt.getD o.provenance.observedAt

section Order

variable {ts ts' : Rfc3339} {t t' : Timestamp}

/-- A timestamp that the host can place. -/
lemma instant_eq_some (h : ts.text = String.ofList t.chars) {i : ℤ × ℕ} :
    instant ts = some i ↔ t.Placeable ∧ i = (t.seconds, t.nanos) := by
  rw [instant_eq h]
  split_ifs with hplace <;> simp [hplace, eq_comm]

/-- The host cannot place a timestamp exactly when its date does not exist, its second is a leap
second, or its fraction is finer than nine digits. -/
lemma instant_eq_none (h : ts.text = String.ofList t.chars) :
    instant ts = none ↔
      ¬ t.DateExists ∨ t.second = 60 ∨ ∃ digit ∈ t.fraction.drop 9, digit ≠ '0' := by
  have hnot : ¬ t.Placeable ↔
      ¬ t.DateExists ∨ t.second = 60 ∨ ∃ digit ∈ t.fraction.drop 9, digit ≠ '0' := by
    rw [Timestamp.Placeable, not_and_or, not_and_or, not_not]
    push Not
    rw [← or_assoc, or_comm]
  rw [instant_eq h, ← hnot]
  split_ifs with hplace <;> simp [hplace]

/-- Of two timestamps that can be placed, the second is not before the first. -/
lemma notBefore_iff_instant (h : ts.text = String.ofList t.chars)
    (h' : ts'.text = String.ofList t'.chars) :
    notBefore ts ts' = true ↔ t.Placeable ∧ t'.Placeable ∧ t'.instant ≤ t.instant := by
  rw [notBefore_iff]
  constructor
  · rintro ⟨i, j, hi, hj, hle⟩
    obtain ⟨hplace, rfl⟩ := (instant_eq_some h).mp hi
    obtain ⟨hplace', rfl⟩ := (instant_eq_some h').mp hj
    exact ⟨hplace, hplace', not_lt.mp (mt (toLex_lt_iff hplace hplace').mpr hle.not_gt)⟩
  · rintro ⟨hplace, hplace', hle⟩
    exact ⟨_, _, (instant_eq_some h).mpr ⟨hplace, rfl⟩, (instant_eq_some h').mpr ⟨hplace', rfl⟩,
      not_lt.mp (mt (toLex_lt_iff hplace hplace').mp hle.not_gt)⟩

end Order

/-- **The order of timestamps is exact.** Every accepted text has its parts. The host places it
unless the date does not exist, the second is the sixtieth or a digit past the ninth counts, and
none of its arithmetic overflows; those it places it orders as the instants they name. So a sweep
takes a record to be in reach of its history only from the bound on, and retracts no other. -/
theorem timestamp_order_exact :
    (∀ ts : Rfc3339, ∃ t : Timestamp, ts.text = String.ofList t.chars) ∧
    (∀ (ts : Rfc3339) (t : Timestamp), ts.text = String.ofList t.chars →
      (instant ts = none ↔
        ¬ t.DateExists ∨ t.second = 60 ∨ ∃ digit ∈ t.fraction.drop 9, digit ≠ '0') ∧
      Checked.instant ts = .ok (instant ts)) ∧
    (∀ (ts ts' : Rfc3339) (t t' : Timestamp) (i j : ℤ × ℕ), ts.text = String.ofList t.chars →
      ts'.text = String.ofList t'.chars → instant ts = some i → instant ts' = some j →
      (toLex i < toLex j ↔ t.instant < t'.instant) ∧ (i = j ↔ t.instant = t'.instant)) ∧
    (∀ (head : Observation) (start : Rfc3339) (t t' : Timestamp),
      (effectiveTime head).text = String.ofList t.chars → start.text = String.ofList t'.chars →
      inReach (some start) head = true → t'.instant ≤ t.instant) ∧
    (∀ (c : Crates) (actions : List Action) (input : SweepInput) (script : Script)
      (start : Rfc3339) (t' : Timestamp), input.historyStart = some start →
      start.text = String.ofList t'.chars →
      let out := sweepResource c (run c actions) input script
      ∀ ρ ∈ out.db.retractions, ρ ∉ (run c actions).retractions →
        ∃ (head : StoredObservation) (t : Timestamp),
          (out.unretracted (run c actions)).headRow input.adapterId ρ.localId = some head ∧
          (effectiveTime head.observation).text = String.ofList t.chars ∧
          t'.instant ≤ t.instant) := by
  refine ⟨Rfc3339.exists_timestamp, fun ts t h => ⟨instant_eq_none h, Checked.instant_eq ts⟩,
    fun ts ts' t t' i j h h' hi hj => ?_, fun head start t t' h h' hreach => ?_,
    fun c actions input script start t' hstart h' => ?_⟩
  · obtain ⟨hplace, rfl⟩ := (instant_eq_some h).mp hi
    obtain ⟨hplace', rfl⟩ := (instant_eq_some h').mp hj
    have hlt := toLex_lt_iff hplace hplace'
    have hgt := toLex_lt_iff hplace' hplace
    refine ⟨hlt, ?_⟩
    rw [← toLex_inj, eq_iff_le_not_lt, ← not_lt, hlt, hgt, not_lt, ← eq_iff_le_not_lt]
  · exact ((notBefore_iff_instant h h').mp hreach).2.2
  · intro out ρ hρ hnew
    have hjustified := sweep_justified (consistent_run c actions) hnew hρ
    obtain ⟨head, hhead, i, j, hi, hj, hle⟩ := hjustified.inReach start hstart
    obtain ⟨t, h⟩ := (effectiveTime head.observation).exists_timestamp
    exact ⟨head, t, hhead, h,
      ((notBefore_iff_instant h h').mp (notBefore_iff.mpr ⟨i, j, hi, hj, hle⟩)).2.2⟩

/-- Two texts of one instant, on two sides of the new year. -/
def newYear : Rfc3339 × Rfc3339 :=
  (⟨"2025-01-01T00:30:00.5+01:00", by decide⟩, ⟨"2024-12-31t23:30:00.500000000000z", by decide⟩)

/-- Two payments, both booked on the first day. -/
def paidRent : List Action :=
  [.sweep (Sample.sweep "checking" "d1") (Sample.script Sample.day₂
    [Sample.page "checking" none
      [Sample.record "checking" "x" "api" "rent" .active Sample.day₂,
        Sample.record "checking" "y" "api" "food" .active Sample.day₂]])]

/-- A sweep of a history that begins with that day. -/
def fromDay₁ : SweepInput :=
  { Sample.sweep "checking" "d1" with historyStart := some Sample.day₁ }

/-- One of the payments is gone. -/
def onlyFood : Script :=
  Sample.script Sample.day₃
    [Sample.page "checking" none [Sample.record "checking" "y" "api" "food" .active Sample.day₃]]

/-- Two texts of one instant, and a payment at the very start of a history that is retracted. -/
theorem timestamp_order_exact_newYear :
    (∃ t t' : Timestamp, newYear.1.text = String.ofList t.chars ∧
      newYear.2.text = String.ofList t'.chars ∧ t.instant = t'.instant) ∧
    ∃ (head : StoredObservation) (t t' : Timestamp), head.observation.localId = "x" ∧
      (effectiveTime head.observation).text = String.ofList t.chars ∧
      Sample.day₁.text = String.ofList t'.chars ∧ t'.instant ≤ t.instant := by
  obtain ⟨hparts, -, horder, -, hretracted⟩ := timestamp_order_exact
  constructor
  · obtain ⟨t, h⟩ := hparts newYear.1
    obtain ⟨t', h'⟩ := hparts newYear.2
    have hsome : instant newYear.1 = some (1735687800, 500000000) := by decide +kernel
    have hsome' : instant newYear.2 = some (1735687800, 500000000) := by decide +kernel
    exact ⟨t, t', h, h', (horder _ _ t t' _ _ h h' hsome hsome').2.mp rfl⟩
  · obtain ⟨t', h'⟩ := hparts Sample.day₁
    have hrows : (sweepResource Sample.crates (run Sample.crates paidRent) fromDay₁
        onlyFood).db.retractions = [⟨"bank", "x", 1, REASON_ABSENT, 2, Sample.day₃.text⟩] := by
      decide +kernel
    have hnone : (run Sample.crates paidRent).retractions = [] := by decide +kernel
    obtain ⟨head, t, hhead, h, hle⟩ := hretracted Sample.crates paidRent fromDay₁ onlyFood
      Sample.day₁ t' rfl h' ⟨"bank", "x", 1, REASON_ABSENT, 2, Sample.day₃.text⟩
      (by rw [hrows]; exact List.mem_singleton_self _) (by rw [hnone]; exact List.not_mem_nil)
    exact ⟨head, t, t', (Db.mem_chainRows.mp (Db.mem_of_headRow hhead)).2.2, h, h', hle⟩

/-- Half past midnight in an offset that crosses the year is the year before, and a leap second
has no instant. -/
example :
    instant ⟨"2025-01-01T00:30:00.5+01:00", by decide⟩ =
      instant ⟨"2024-12-31t23:30:00.500000000000z", by decide⟩ ∧
    instant ⟨"2016-12-31T23:59:60Z", by decide⟩ = none := by decide +kernel

end Sumer.Store
