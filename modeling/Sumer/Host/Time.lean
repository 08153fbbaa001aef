import Sumer.Wire.Rfc3339

set_option relaxedAutoImplicit false
set_option autoImplicit false

/-!
# Instants

The one ordering of two timestamps that the host performs (`core/host/src/time.rs`): the instant
a timestamp names, as seconds since the Unix epoch and nanoseconds. A timestamp the clock cannot
place is `none`, and the caller may not conclude anything from it.

## Main definitions

* `Sumer.Host.instant`: the instant a timestamp names, if it can be ordered.
* `Sumer.Host.civilFromDays`, `Sumer.Host.daysFromCivil`: the calendar, both ways.
-/

namespace Sumer.Host

open Sumer.Wire

/-- The bytes `b[i .. j]`, when the text is long enough. -/
def slice (b : List UInt8) (i j : ℕ) : Option (List UInt8) :=
  if i ≤ j ∧ j ≤ b.length then some ((b.drop i).take (j - i)) else none

/-- The digits of an ASCII decimal field, or `none` if it is not all digits. -/
def number (bytes : List UInt8) : Option ℤ :=
  if bytes.isEmpty || !bytes.all isAsciiDigit then none
  else some (bytes.foldl (fun n byte => n * 10 + (digitValue byte : ℤ)) 0)

/-- Civil date from a day count since the Unix epoch. `/` of the source truncates, `div_euclid`
rounds towards the divisor's multiples below. -/
def civilFromDays (days : ℤ) : ℤ × ℤ × ℤ :=
  let z := days + 719468
  let era := z / 146097
  let doe := z - era * 146097
  let yoe := (doe - doe.tdiv 1460 + doe.tdiv 36524 - doe.tdiv 146096).tdiv 365
  let y := yoe + era * 400
  let doy := doe - (365 * yoe + yoe.tdiv 4 - yoe.tdiv 100)
  let mp := (5 * doy + 2).tdiv 153
  let d := doy - (153 * mp + 2).tdiv 5 + 1
  let m := if mp < 10 then mp + 3 else mp - 9
  let y := if m ≤ 2 then y + 1 else y
  (y, m, d)

/-- Day count since the Unix epoch from a civil date; a day number the calendar does not have
rolls forward. -/
def daysFromCivil (year month day : ℤ) : ℤ :=
  let y := year - (if month ≤ 2 then 1 else 0)
  let era := y / 400
  let yoe := y - era * 400
  let mp := if month > 2 then month - 3 else month + 9
  let doy := (153 * mp + 2).tdiv 5 + day - 1
  let doe := yoe * 365 + yoe.tdiv 4 - yoe.tdiv 100 + doy
  era * 146097 + doe - 719468

/-- Nine digits of a fraction that starts at `start` and ends at `stop`, zero-padded on the
right: a shorter fraction is a coarser instant, not a smaller one. -/
def fractionNanos (b : List UInt8) (start stop : ℕ) : ℕ :=
  (List.range 9).foldl
    (fun nanos slot =>
      nanos * 10 +
        (if start + slot < stop then ((b[start + slot]?).map digitValue).getD 0 else 0))
    0

/-- The fraction of a second, and where the offset starts. A digit finer than a nanosecond makes
the timestamp unorderable. -/
def fraction (b : List UInt8) : Option (ℕ × ℕ) :=
  if b[19]? = some (ascii '.') then
    let start := 20
    let stop := digitsEnd b start
    if stop = start then none
    else if ((slice b (start + 9) stop).getD []).any (· ≠ ascii '0') then none
    else some (fractionNanos b start stop, stop)
  else some (0, 19)

/-- The numeric offset in seconds that starts at `i`. -/
def offsetSecs (b : List UInt8) (i : ℕ) : Option ℤ :=
  match b[i]? with
  | none => none
  | some c =>
    if c = ascii 'Z' ∨ c = ascii 'z' then some 0
    else if c = ascii '+' ∨ c = ascii '-' then do
      let offHour ← number (← slice b (i + 1) (i + 3))
      let offMin ← number (← slice b (i + 4) (i + 6))
      let magnitude := offHour * 3600 + offMin * 60
      pure (if c = ascii '+' then magnitude else -magnitude)
    else none

/-- The instant a timestamp names: seconds since the Unix epoch, and nanoseconds. `none` for a
leap second, a date the calendar does not have, or a fraction finer than a nanosecond. -/
def instant (ts : Rfc3339) : Option (ℤ × ℕ) := do
  let b := asBytes ts.text
  let year ← number (← slice b 0 4)
  let month ← number (← slice b 5 7)
  let day ← number (← slice b 8 10)
  let hour ← number (← slice b 11 13)
  let minute ← number (← slice b 14 16)
  let second ← number (← slice b 17 19)
  if second = 60 then none
  else do
    let (nanos, i) ← fraction b
    let offset ← offsetSecs b i
    let days := daysFromCivil year month day
    -- the round trip holds exactly when the input was a date
    if civilFromDays days ≠ (year, month, day) then none
    else some (days * 86400 + hour * 3600 + minute * 60 + second - offset, nanos)

/-- Whether both timestamps can be ordered and the first is not before the second. -/
def notBefore (ts start : Rfc3339) : Bool :=
  match instant ts, instant start with
  | some a, some s => decide (s.1 < a.1) || (decide (s.1 = a.1) && decide (s.2 ≤ a.2))
  | _, _ => false

end Sumer.Host
