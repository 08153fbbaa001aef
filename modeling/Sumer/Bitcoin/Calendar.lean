import Sumer.Bitcoin.Map
import Sumer.Host.Checked

set_option relaxedAutoImplicit false
set_option autoImplicit false

/-!
# The adapter's calendar

The adapter has a copy of `civil_from_days` of its own (`adapters/bitcoin/src/map.rs`), which
divides by truncation where the host's divides by `div_euclid`.

## Main definitions

* `Sumer.Bitcoin.Checked.civilFromDays`: the adapter's copy, every result in its type.

## Main results

* `Sumer.Bitcoin.civilFromDays_eq_host`: the copies agree.
* `Sumer.Bitcoin.calendar_exact`: the conversions are exact inverses.
-/

namespace Sumer.Bitcoin

open Gregorian Machine

/-- The era of a day, by truncating division and by division with remainder. -/
lemma era_eq (z : ℤ) : (if 0 ≤ z then z else z - 146096).tdiv 146097 = z / 146097 := by
  split_ifs with h
  · exact Int.tdiv_eq_ediv_of_nonneg h
  · rw [Int.tdiv_eq_ediv]
    split_ifs with hexact
    · obtain hpos | hdvd := hexact
      · omega
      · omega
    · rw [show Int.sign 146097 = 1 from rfl]
      omega

/-- **The adapter's copy is the host's.** -/
lemma civilFromDays_eq_host (days : ℤ) : civilFromDays days = Host.civilFromDays days := by
  unfold civilFromDays Host.civilFromDays
  dsimp only
  rw [era_eq]

namespace Checked

/-- `civil_from_days` of the adapter, in `i64`. -/
def civilFromDays (days : ℤ) : Except Overflow (ℤ × ℤ × ℤ) := do
  let z ← i64 (days + 719468)
  let shifted ← if 0 ≤ z then pure z else i64 (z - 146096)
  let era := shifted.tdiv 146097
  let eraDays ← i64 (era * 146097)
  let doe ← i64 (z - eraDays)
  let rest ← i64 (doe - doe.tdiv 1460)
  let rest ← i64 (rest + doe.tdiv 36524)
  let rest ← i64 (rest - doe.tdiv 146096)
  let yoe := rest.tdiv 365
  let eraYears ← i64 (era * 400)
  let y ← i64 (yoe + eraYears)
  let yearDays ← i64 (365 * yoe)
  let yearDays ← i64 (yearDays + yoe.tdiv 4)
  let yearDays ← i64 (yearDays - yoe.tdiv 100)
  let doy ← i64 (doe - yearDays)
  let scaled ← i64 (5 * doy)
  let scaled ← i64 (scaled + 2)
  let mp := scaled.tdiv 153
  let monthDays ← i64 (153 * mp)
  let monthDays ← i64 (monthDays + 2)
  let d ← i64 (doy - monthDays.tdiv 5)
  let d ← i64 (d + 1)
  let m ← if mp < 10 then i64 (mp + 3) else i64 (mp - 9)
  let y ← if m ≤ 2 then i64 (y + 1) else pure y
  pure (y, m, d)

/-- The copies compute the same in `i64`. -/
lemma civilFromDays_eq_host {days : ℤ} (h : -2 ^ 63 ≤ days ∧ days + 719468 < 2 ^ 63) :
    civilFromDays days = Host.Checked.civilFromDays days := by
  have hera := era_eq (days + 719468)
  unfold civilFromDays Host.Checked.civilFromDays
  rw [i64_bind (by omega), i64_bind (by omega)]
  by_cases hpos : 0 ≤ days + 719468
  · rw [if_pos hpos] at hera
    simp only [if_pos hpos, pure_bind, hera]
  · rw [if_neg hpos] at hera
    simp only [if_neg hpos]
    rw [i64_bind (by omega), hera]

end Checked

/-- **The calendar conversions are exact inverses**, for every day count, and the adapter's copy
returns the same dates; in `i64` nothing overflows but the shift of the epoch. -/
theorem calendar_exact :
    (∀ days, IsDate (Host.civilFromDays days) ∧
      Host.daysFromCivil (Host.civilFromDays days).1 (Host.civilFromDays days).2.1
        (Host.civilFromDays days).2.2 = days) ∧
    (Host.civilFromDays 0 = (1970, 1, 1) ∧
      ∀ days, Host.civilFromDays (days + 1) = nextDay (Host.civilFromDays days)) ∧
    (∀ year month day, 1 ≤ month ∧ month ≤ 12 → 1 ≤ day ∧ day ≤ 31 →
      (Host.civilFromDays (Host.daysFromCivil year month day) = (year, month, day) ↔
        IsDate (year, month, day))) ∧
    (∀ days, civilFromDays days = Host.civilFromDays days) ∧
    ∀ days : ℤ, -2 ^ 63 ≤ days ∧ days < 2 ^ 63 →
      if days + 719468 < 2 ^ 63 then
        Host.Checked.civilFromDays days = .ok (Host.civilFromDays days) ∧
        Host.Checked.daysFromCivil (Host.civilFromDays days).1 (Host.civilFromDays days).2.1
          (Host.civilFromDays days).2.2 = .ok days ∧
        Checked.civilFromDays days = .ok (civilFromDays days)
      else
        Host.Checked.civilFromDays days = .error ⟨⟩ ∧
          Checked.civilFromDays days = .error ⟨⟩ := by
  refine ⟨fun days => ⟨Host.isDate_civilFromDays days, Host.daysFromCivil_civilFromDays days⟩,
    ⟨by decide, Host.civilFromDays_succ⟩, fun year month day _ _ =>
      Host.civilFromDays_daysFromCivil_iff_isDate, civilFromDays_eq_host, fun days hdays => ?_⟩
  split_ifs with hroom
  · have hrange : -2 ^ 63 ≤ days ∧ days + 719468 < 2 ^ 63 := ⟨hdays.1, hroom⟩
    have hhost := Host.Checked.civilFromDays_eq hrange
    refine ⟨hhost, Host.Checked.daysFromCivil_civilFromDays hrange, ?_⟩
    rw [Checked.civilFromDays_eq_host hrange, hhost, civilFromDays_eq_host]
  · have hz : i64 (days + 719468) = .error ⟨⟩ := if_neg fun h => hroom h.2
    unfold Host.Checked.civilFromDays Checked.civilFromDays
    rw [hz]
    exact ⟨rfl, rfl⟩

end Sumer.Bitcoin
