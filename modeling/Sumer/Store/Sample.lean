import Sumer.Store.SweepRun
import Sumer.Wire.Json

set_option relaxedAutoImplicit false
set_option autoImplicit false

/-!
# A small bank

Concrete third-party functions, and an adapter with two resources, on which the model can be run:
a fingerprint for the digest of a record, the text of a stored cursor, and the pages, sweeps and
scripts such an adapter gives rise to.

## Main definitions

* `Sumer.Store.Sample.crates`, `Sumer.Store.Sample.textCrates`: the third-party functions.
* `Sumer.Store.Sample.record`, `Sumer.Store.Sample.page`, `Sumer.Store.Sample.sweep`.
-/

namespace Sumer.Store.Sample

open Sumer.Wire Sumer.Host

/-- Adds a number to a fingerprint. -/
def mix (h x : ℕ) : ℕ := (h * 31 + x + 7) % 65521

/-- The fingerprint of a text. -/
def textPrint (s : String) : ℕ := s.toList.foldl (fun h ch => mix h ch.toNat) 1

/-- The fingerprint of a JSON value of at most the given depth. -/
def fingerprint : ℕ → Json → ℕ
  | 0, _ => 0
  | _ + 1, .null => 2
  | _ + 1, .bool b => if b then 3 else 4
  | _ + 1, .num literal => mix 5 (textPrint literal)
  | _ + 1, .str s => mix 6 (textPrint s)
  | depth + 1, .arr items => (items.map (fingerprint depth)).foldl mix 8
  | depth + 1, .obj members => (members.map fun m => fingerprint depth m.2).foldl mix 9

/-- The hexadecimal digits of some bytes. -/
def hex (bytes : List UInt8) : String :=
  String.ofList (bytes.flatMap fun b =>
    [Nat.digitChar (b.toNat / 16), Nat.digitChar (b.toNat % 16)])

/-- Different bytes have different digits.

**Proof sketch.** Induction on the bytes, two digits at a time: sixteen digits are all different,
and two digits give back the byte. -/
lemma hex_injective : Function.Injective hex := by
  have hdigit : ∀ m < 16, ∀ n < 16, Nat.digitChar m = Nat.digitChar n → m = n := by decide
  intro bytes bytes' h
  have hchars := String.ofList_injective h
  induction bytes generalizing bytes' with
  | nil =>
    cases bytes' with
    | nil => rfl
    | cons b bytes' => simp at hchars
  | cons b bytes ih =>
    cases bytes' with
    | nil => simp at hchars
    | cons b' bytes' =>
      simp only [List.flatMap_cons, List.cons_append, List.nil_append, List.cons.injEq] at hchars
      obtain ⟨hhigh, hlow, hrest⟩ := hchars
      have hlt := b.toNat_lt
      have hlt' := b'.toNat_lt
      have hb : b = b' := by
        rw [← UInt8.toNat_inj]
        have := hdigit _ (by omega) _ (by omega) hhigh
        have := hdigit _ (by omega) _ (by omega) hlow
        omega
      rw [hb, ih (congrArg String.ofList hrest) hrest]

/-- What a stored cursor's text starts and ends with. -/
def cursorStart : List Char := "\x7b\"kind\":\"cursor\",\"cursor\":\"".toList

/-- What ends the cursor of a sample page: a quote and a brace. -/
def cursorEnd : List Char := "\"\x7d".toList

/-- The text of a page request. The bank pages by cursors alone. -/
def pageText : PageRequest → String
  | .cursor cursor => String.ofList (cursorStart ++ cursor.toList ++ cursorEnd)
  | .window _ _ _ _ => "\x7b\"kind\":\"window\"\x7d"

/-- Reads back the text of a cursor. -/
def parsePage (text : String) : Option PageRequest :=
  let inner := text.toList.drop cursorStart.length
  let cursor := inner.take (inner.length - cursorEnd.length)
  if text.toList = cursorStart ++ cursor ++ cursorEnd then
    some (.cursor (String.ofList cursor))
  else none

/-- The third-party functions. Of the JSON text and its digest the store only compares the two
together, so a fingerprint of the value stands for the text here, and its bytes for the digest. -/
def crates : Crates :=
  ⟨fun value => String.ofList (Nat.toDigits 16 (fingerprint 4 value)), hex, pageText, parsePage⟩

/-- The same functions with the JSON text itself, which names the members of an object too. -/
def textCrates : Crates := { crates with jsonText := Json.text }

/-- Four instants, a day apart. -/
def day₁ : Rfc3339 := ⟨"2026-01-01T00:00:00Z", by decide⟩

/-- The second day of the samples. -/
def day₂ : Rfc3339 := ⟨"2026-01-02T00:00:00Z", by decide⟩

/-- The third day of the samples. -/
def day₃ : Rfc3339 := ⟨"2026-01-03T00:00:00Z", by decide⟩

/-- The fourth day of the samples. -/
def day₄ : Rfc3339 := ⟨"2026-01-04T00:00:00Z", by decide⟩

/-- A payment of one unit, as the bank reports it. -/
def record (resourceId localId surface description : String) (state : ObservationState)
    (receivedAt : Rfc3339) : Observation where
  resourceId := resourceId
  localId := localId
  providerId := none
  supersedesProviderId := none
  state := state
  tombstoneReason := none
  surface := surface
  posting := .posted
  amount := ⟨⟨"usd", by decide⟩, 1, 0, by decide, Money.zero_le_maxScale⟩
  fees := none
  rawSign := .providerPositive
  description := description
  providerExtra := []
  provenance :=
    { adapterId := "bank", providerId := "bank.example", surface := surface, observedAt := day₁,
      receivedAt := receivedAt, effectiveAt := none, staleness := .live, completeness := .complete }

/-- A page of one resource, exact-resumable. -/
def page (resourceId : String) (next : Option String) (observations : List Observation) :
    HistoryRead where
  observations := observations
  statuses :=
    [{ resourceId, outcome := .fetched observations.isEmpty, degraded := []
       page := some ⟨.exact, next.map .cursor⟩, historyStart := none }]

/-- A sweep of one resource under a derivation. -/
def sweep (resourceId derivation : String) : SweepInput where
  adapterId := "bank"
  resourceId := resourceId
  helloDerivation := derivation
  fingerprint := "f"
  providerId := "bank.example"
  historyStart := none
  connectionViolation := none
  options := ⟨false, false⟩

/-- A sweep in which every page arrives and commits. -/
def script (now : Rfc3339) (pages : List HistoryRead) : Script where
  now := now
  verdict := none
  openFault := false
  events := pages.map fun page => .reply (.ok page) false
  limitFault := false

end Sumer.Store.Sample
