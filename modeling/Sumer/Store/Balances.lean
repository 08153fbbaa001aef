import Sumer.Host.Balances
import Sumer.Store.Tables

set_option relaxedAutoImplicit false
set_option autoImplicit false

/-!
# The balance table and its rendering

The table every balance line is appended to, the query that joins it with the adapter's current
read (`core/store/src/store.rs`), and the one function that prints a figure
(`core/store/src/render.rs`). A line is one of five kinds; `Face` names the kind and what it
shows.

## Main definitions

* `Sumer.Store.Ledger`: the tables with the balance table.
* `Sumer.Store.Ledger.appendBalance`, `Sumer.Store.Ledger.balanceHistory`: its statements.
* `Sumer.Store.face`, `Sumer.Store.balanceLine`: what a line shows, and its text.

## Main results

* `Sumer.Store.face_eq_live`: what is rendered live.
* `Sumer.Store.figure_kept_iff`: when a line without an amount shows the last figure there was.
-/

namespace Sumer.Store

open Sumer.Wire Sumer.Money Sumer.Host

/-- One row of the balance table. -/
structure StoredBalance where
  adapterId : String
  readId : ℕ
  resourceId : String
  category : String
  canonicalHint : Option CanonicalHint
  amount : Option Amount
  providerId : String
  surface : String
  observedAt : Rfc3339
  effectiveAt : Option Rfc3339
  completeness : Completeness
  receivedAt : Rfc3339
  staleness : Staleness
  outcome : String

/-- The tables. The balance table is in rowid order like the others. -/
structure Ledger where
  db : Db
  balances : List StoredBalance

/-- The tables of a new profile. -/
def Ledger.empty : Ledger := ⟨Db.empty, []⟩

/-- One line of a balance history. -/
structure BalanceRow where
  balanceId : ℕ
  adapterId : String
  resourceId : String
  category : String
  canonicalHint : Option CanonicalHint
  amount : Option Amount
  providerId : String
  receivedAt : Rfc3339
  staleness : Staleness
  outcome : String
  /-- Whether the read that wrote this row is still its adapter's current one. -/
  fromLatestRead : Bool

/-- The wire name of an outcome, as it is stored beside a balance line. -/
def outcomeLabel : ReadOutcome → String
  | .fetched _ => "fetched"
  | .notFetched => "not_fetched"
  | .stale asOf => "stale:" ++ asOf.text
  | .rateLimited _ => "rate_limited"
  | .unavailable => "unavailable"
  | .reauthRequired => "reauth_required"
  | .revoked => "revoked"
  | .gone => "gone"
  | .scaRequired => "sca_required"

/-- The row a balance line is stored as. -/
def storedBalance (adapterId : String) (readId : ℕ) (balance : Balance) (outcome : String) :
    StoredBalance where
  adapterId := adapterId
  readId := readId
  resourceId := balance.resourceId
  category := balance.category
  canonicalHint := balance.canonicalHint
  amount := balance.amount
  providerId := balance.provenance.providerId
  surface := balance.provenance.surface
  observedAt := balance.provenance.observedAt
  effectiveAt := balance.provenance.effectiveAt
  completeness := balance.provenance.completeness
  receivedAt := balance.provenance.receivedAt
  staleness := balance.provenance.staleness
  outcome := outcome

/-- Appends a balance line. -/
def Ledger.appendBalance (l : Ledger) (adapterId : String) (readId : ℕ) (balance : Balance)
    (outcome : String) : Ledger :=
  { l with balances := l.balances ++ [storedBalance adapterId readId balance outcome] }

/-- The read that is current for an adapter, if there is such an adapter. -/
def Ledger.balanceRead (l : Ledger) (adapterId : String) : Option ℕ :=
  (l.db.adapters.find? (·.adapterId == adapterId)).map AdapterRow.balanceRead

/-- A stored line as a history shows it. -/
def Ledger.balanceRow (l : Ledger) (row : StoredBalance) (balanceId : ℕ) : BalanceRow where
  balanceId := balanceId
  adapterId := row.adapterId
  resourceId := row.resourceId
  category := row.category
  canonicalHint := row.canonicalHint
  amount := row.amount
  providerId := row.providerId
  receivedAt := row.receivedAt
  staleness := row.staleness
  outcome := row.outcome
  fromLatestRead := l.balanceRead row.adapterId == some row.readId

/-- Every balance line ever recorded for one resource, oldest first, with the freshness join. -/
def Ledger.balanceHistory (l : Ledger) (adapterId resourceId : String) : List BalanceRow :=
  ((l.balances.zipIdx 1).filter fun r =>
    r.1.adapterId == adapterId && r.1.resourceId == resourceId).map fun r => l.balanceRow r.1 r.2

/-- One category's history: what the `balances` command renders as one line. -/
def Ledger.categoryHistory (l : Ledger) (adapterId resourceId category : String) :
    List BalanceRow :=
  (l.balanceHistory adapterId resourceId).filter (·.category == category)

/-! ### Rendering -/

/-- `{:<w$}`. -/
def padEnd (w : ℕ) (s : String) : String := s ++ String.ofList (List.replicate (w - s.length) ' ')

/-- `{:>w$}`. -/
def padStart (w : ℕ) (s : String) : String := String.ofList (List.replicate (w - s.length) ' ') ++ s

/-- What follows a prefix. -/
def stripStart (start s : String) : Option String :=
  if start.toList <+: s.toList then some (String.ofList (s.toList.drop start.length)) else none

/-- The time of day of a timestamp, up to the byte after the seconds. The bytes that a shape check
has fixed are ASCII, so that these are characters too. -/
def timeOfDay (timestamp : Rfc3339) : String :=
  String.ofList ((timestamp.text.toList.drop 11).take 9)

/-- When the figure of a line was observed: what `stale` said, or the receipt time. -/
def BalanceRow.asOf (row : BalanceRow) : String :=
  (stripStart "stale:" row.outcome).getD row.receivedAt.text

/-- What one balance line shows. -/
inductive Face where
  | never
  | live (amount : Amount) (row : BalanceRow)
  | stale (amount : Amount) (row : BalanceRow)
  | unknown (row : BalanceRow)
  | unavailable (row : BalanceRow)

/-- The most recent figure of a history, and its row. -/
def lastFigure (history : List BalanceRow) : Option (Amount × BalanceRow) :=
  history.reverse.findSome? fun row => row.amount.map fun amount => (amount, row)

/-- What a category's line shows, by its history. -/
def face (history : List BalanceRow) : Face :=
  match history.getLast? with
  | none => .never
  | some latest =>
    match latest.amount, latest.fromLatestRead && latest.staleness == .live with
    | some amount, true => .live amount latest
    | some amount, false => .stale amount latest
    | none, true => .unknown latest
    | none, false =>
      match lastFigure history with
      | some (amount, row) => .stale amount row
      | none => .unavailable latest

/-- Source and time, at the end of a line. -/
def sourceOf (row : BalanceRow) : String := row.providerId ++ " · " ++ timeOfDay row.receivedAt

/-- The text of a line. -/
def Face.text (category : String) : Face → String
  | .never => "  " ++ padEnd 14 category ++ " unavailable"
  | .live amount row => "  " ++ padEnd 14 category ++ " " ++ padStart 14 amount.toText ++ " " ++
      amount.asset.text ++ "   live · " ++ sourceOf row
  | .stale amount row => "  " ++ padEnd 14 category ++ " " ++ padStart 14 amount.toText ++ " " ++
      amount.asset.text ++ "   stale (as of " ++ row.asOf ++ ") · " ++ sourceOf row
  | .unknown row => "  " ++ padEnd 14 category ++ " " ++ padStart 14 "unknown" ++
      "     unknown · " ++ sourceOf row
  | .unavailable row => "  " ++ padEnd 14 category ++ " " ++ padStart 14 "--" ++
      "     unavailable · " ++ sourceOf row

/-- One balance line. `history` is the whole history of its category, oldest first. -/
def balanceLine (category : String) (history : List BalanceRow) : String :=
  (face history).text category

section Face

variable {history before after : List BalanceRow} {row : BalanceRow} {amount : Amount}

/-- **What is rendered live**: an amount in the latest row, from the latest read, stamped live.

**Proof sketch.** The face of a history is decided by its latest row: without one there is none,
without an amount it is not live, and with one the two marks of the row decide between live and the
older forms. -/
lemma face_eq_live :
    face history = .live amount row ↔ history.getLast? = some row ∧ row.amount = some amount ∧
      row.fromLatestRead = true ∧ row.staleness = .live := by
  unfold face
  cases hlast : history.getLast? with
  | none => simp
  | some latest =>
    dsimp only
    cases hamount : latest.amount with
    | none =>
      cases hlive : latest.fromLatestRead && latest.staleness == .live with
      | true =>
        simp only [Option.some.injEq, reduceCtorEq, false_iff]
        rintro ⟨rfl, hsome, -⟩
        cases hamount.symm.trans hsome
      | false =>
        dsimp only
        split <;> simp only [Option.some.injEq, reduceCtorEq, false_iff] <;>
          · rintro ⟨rfl, hsome, -⟩
            cases hamount.symm.trans hsome
    | some figure =>
      cases hlive : latest.fromLatestRead && latest.staleness == .live with
      | true =>
        simp only [Bool.and_eq_true, beq_iff_eq] at hlive
        simp only [Face.live.injEq, Option.some.injEq]
        constructor
        · rintro ⟨rfl, rfl⟩
          exact ⟨rfl, hamount, hlive⟩
        · rintro ⟨rfl, hsome, -⟩
          exact ⟨Option.some.inj (hamount.symm.trans hsome), rfl⟩
      | false =>
        simp only [Option.some.injEq, reduceCtorEq, false_iff]
        rintro ⟨rfl, -, hfresh, hstale⟩
        simp [hfresh, hstale] at hlive

/-- The most recent figure is that of the last row with an amount. -/
lemma lastFigure_of_split (hrow : row.amount = some amount)
    (hafter : ∀ r ∈ after, r.amount = none) :
    lastFigure (before ++ row :: after) = some (amount, row) := by
  have hnone : after.reverse.findSome? (fun r => r.amount.map fun a => (a, r)) = none := by
    rw [List.findSome?_eq_none_iff]
    intro r hr
    rw [hafter r (List.mem_reverse.mp hr), Option.map_none]
  simp [lastFigure, List.findSome?_append, hnone, hrow]

/-- A history with a figure has a last row with one. -/
lemma exists_last_figure (h : ∃ r ∈ history, r.amount ≠ none) :
    ∃ before row after amount, history = before ++ row :: after ∧ row.amount = some amount ∧
      ∀ r ∈ after, r.amount = none := by
  induction history with
  | nil => simp at h
  | cons r rest ih =>
    by_cases hrest : ∃ r ∈ rest, r.amount ≠ none
    · obtain ⟨before, row, after, amount, rfl, hrow, hafter⟩ := ih hrest
      exact ⟨r :: before, row, after, amount, rfl, hrow, hafter⟩
    · push Not at hrest
      obtain ⟨r', hr', hamount⟩ := h
      rcases List.mem_cons.mp hr' with rfl | hr'
      · obtain ⟨amount, hamount⟩ := Option.ne_none_iff_exists'.mp hamount
        exact ⟨[], r', rest, amount, rfl, hamount, hrest⟩
      · exact absurd (hrest r' hr') hamount

end Face

/-! ### Which line it is can be read off its text -/

section Text

/-- The characters of an amount's text.

**Proof sketch.** The text is a sign or none, digits, and possibly a point and more digits. What
pads the digits are zeros. -/
lemma mem_formatDecimal {units : ℤ} {scale : ℕ} {ch : Char}
    (h : ch ∈ (formatDecimal units scale).toList) : ch.isDigit = true ∨ ch = '-' ∨ ch = '.' := by
  have hdigits {ch : Char} (h : ch ∈ magnitudeDigits units) : ch.isDigit = true :=
    Nat.isDigit_of_mem_toDigits (by decide) (by decide) h
  have hzeros {n : ℕ} {ch : Char} (h : ch ∈ List.replicate n '0') : ch.isDigit = true := by
    rw [List.eq_of_mem_replicate h]
    rfl
  simp only [formatDecimal, String.toList_ofList, List.mem_append] at h
  rcases h with h | h
  · split_ifs at h
    · exact Or.inr (Or.inl (by simpa using h))
    · exact absurd h List.not_mem_nil
  · split_ifs at h
    · exact Or.inl (hdigits h)
    · rcases List.mem_append.mp h with h | h
      · exact Or.inl (hdigits (List.mem_of_mem_take h))
      · rcases List.mem_cons.mp h with rfl | h
        · exact Or.inr (Or.inr rfl)
        · exact Or.inl (hdigits (List.mem_of_mem_drop h))
    · rcases List.mem_cons.mp h with rfl | h
      · exact Or.inl rfl
      rcases List.mem_cons.mp h with rfl | h
      · exact Or.inr (Or.inr rfl)
      rcases List.mem_append.mp h with h | h
      · exact Or.inl (hzeros h)
      · exact Or.inl (hdigits h)

/-- An amount's text is not empty. -/
lemma formatDecimal_ne_nil (units : ℤ) (scale : ℕ) : (formatDecimal units scale).toList ≠ [] := by
  have hdigits : magnitudeDigits units ≠ [] := Nat.toDigits_ne_nil
  simp only [formatDecimal, String.toList_ofList]
  split_ifs <;> simp [hdigits]

/-- The last column of a padded text is one of its own characters. -/
lemma getElem?_padStart {w : ℕ} {s : String} (rest : List Char) (hs : s.toList ≠ []) :
    ∃ ch ∈ s.toList, ((padStart (w + 1) s).toList ++ rest)[w]? = some ch := by
  have hlen : s.length = s.toList.length := String.length_toList.symm
  have hpos : 0 < s.toList.length := List.length_pos_iff.mpr hs
  simp only [padStart, String.toList_append, String.toList_ofList, List.append_assoc]
  have hskip : w + 1 - s.length ≤ w := by omega
  rw [List.getElem?_append_right (by simpa using hskip), List.length_replicate]
  have hin : w - (w + 1 - s.length) < s.toList.length := by omega
  rw [List.getElem?_append_left hin, List.getElem?_eq_getElem hin]
  exact ⟨_, List.getElem_mem hin, rfl⟩

/-- A line that shows a figure as stale is not one that says it is unknown. -/
lemma text_stale_ne_unknown (category : String) (amount : Amount) (row latest : BalanceRow) :
    (Face.stale amount row).text category ≠ (Face.unknown latest).text category := by
  intro h
  have hlist := congrArg String.toList h
  simp only [Face.text, String.toList_append, List.append_assoc, List.append_cancel_left_eq]
    at hlist
  obtain ⟨ch, hch, hcol⟩ := getElem?_padStart (w := 13) (s := amount.toText)
    (" ".toList ++ (amount.asset.text.toList ++ ("   stale (as of ".toList ++
      (row.asOf.toList ++ (") · ".toList ++ (sourceOf row).toList)))))
    (formatDecimal_ne_nil amount.units amount.scale)
  have hunknown : (padStart 14 "unknown").toList = "       unknown".toList := by decide
  rw [hlist, hunknown] at hcol
  -- the column before the gap is a character of the figure in one and the letter n in the other
  obtain rfl : 'n' = ch := by simpa using hcol
  rcases mem_formatDecimal hch with hdigit | hsign | hpoint
  · exact absurd hdigit (by decide)
  · exact absurd hsign (by decide)
  · exact absurd hpoint (by decide)

end Text

/-- An outcome that reports that its resource was not read. -/
def NotRead : ReadOutcome → Prop
  | .notFetched | .rateLimited _ | .reauthRequired | .revoked | .scaRequired => True
  | .unavailable | .gone => True
  | .fetched _ | .stale _ => False

/-- **When a line without an amount keeps the last figure.** A category with some figure, whose
latest row has none and an outcome that reports that its resource was not read, shows the most
recent figure, stale as of its own time, exactly when the latest row is not from the latest read
or its outcome is `unavailable` or `gone`. Under any other such outcome a row of the latest read
is stamped live, and the line says `unknown`.

**Proof sketch.** The staleness stamped from the outcome decides which of the two arms without an
amount is taken, and their texts differ in the last column of the figure. -/
theorem figure_kept_iff (category : String) (history : List BalanceRow) (latest : BalanceRow)
    (outcome : ReadOutcome) (hfigure : ∃ row ∈ history, row.amount ≠ none)
    (hlatest : history.getLast? = some latest) (hnone : latest.amount = none)
    (hread : NotRead outcome) (hstamp : latest.staleness = outcomeStaleness outcome) :
    (∃ before row after amount, history = before ++ row :: after ∧ row.amount = some amount ∧
        (∀ r ∈ after, r.amount = none) ∧
        balanceLine category history = (Face.stale amount row).text category) ↔
      latest.fromLatestRead = false ∨ outcome = .unavailable ∨ outcome = .gone := by
  obtain ⟨before, row, after, amount, rfl, hrow, hafter⟩ := exists_last_figure hfigure
  have hlast : lastFigure (before ++ row :: after) = some (amount, row) :=
    lastFigure_of_split hrow hafter
  have hlive : (latest.fromLatestRead && latest.staleness == .live) = false ↔
      latest.fromLatestRead = false ∨ outcome = .unavailable ∨ outcome = .gone := by
    rw [Bool.and_eq_false_iff, hstamp]
    cases outcome <;> simp_all [NotRead, outcomeStaleness]
  rw [← hlive]
  constructor
  · rintro ⟨before', row', after', amount', hsplit, hrow', hafter', hline⟩
    by_contra hfresh
    rw [Bool.not_eq_false] at hfresh
    have hface : face (before ++ row :: after) = .unknown latest := by
      simp only [face, hlatest, hnone, hfresh]
    rw [balanceLine, hface] at hline
    exact text_stale_ne_unknown category amount' row' latest hline.symm
  · intro hstale
    have hface : face (before ++ row :: after) = .stale amount row := by
      simp only [face, hlatest, hnone, hstale, hlast]
    exact ⟨before, row, after, amount, rfl, hrow, hafter, by rw [balanceLine, hface]⟩

/-- 130000 sat. -/
def sats130000 : Amount := ⟨⟨"sat", by decide⟩, 130000, 0, by decide, zero_le_maxScale⟩

/-- A line of a wallet's confirmed balance, as a read with the given outcome stores it. -/
def walletLine (balanceId : ℕ) (amount : Option Amount) (receivedAt : Rfc3339)
    (outcome : ReadOutcome) (fromLatestRead : Bool) : BalanceRow where
  balanceId := balanceId
  adapterId := "sumer-bitcoin"
  resourceId := "cold"
  category := "confirmed"
  canonicalHint := some .confirmed
  amount := amount
  providerId := "https://blockstream.info/api"
  receivedAt := receivedAt
  staleness := outcomeStaleness outcome
  outcome := outcomeLabel outcome
  fromLatestRead := fromLatestRead

/-- A wallet that was read on one day; the next day the read of it ended with the given outcome. -/
def walletHistory (outcome : ReadOutcome) : List BalanceRow :=
  [walletLine 1 (some sats130000) ⟨"2026-01-01T12:04:31Z", by decide⟩ (.fetched false) false,
    walletLine 2 none ⟨"2026-01-02T12:04:31Z", by decide⟩ outcome true]

/-- A read that found the provider unavailable keeps the figure. -/
theorem figure_kept_unavailable :
    ∃ before row after amount, walletHistory .unavailable = before ++ row :: after ∧
      row.amount = some amount ∧ (∀ r ∈ after, r.amount = none) ∧
      balanceLine "confirmed" (walletHistory .unavailable) =
        (Face.stale amount row).text "confirmed" :=
  (figure_kept_iff "confirmed" (walletHistory .unavailable) _ .unavailable
    ⟨_, List.mem_cons_self, nofun⟩ rfl rfl trivial rfl).mpr (Or.inr (Or.inl rfl))

/-- A read that was rate limited does not: the line says `unknown`, and the figure is gone from
it. -/
theorem figure_lost_rate_limited :
    ¬ ∀ (category : String) (history : List BalanceRow) (latest : BalanceRow)
      (outcome : ReadOutcome), (∃ row ∈ history, row.amount ≠ none) →
      history.getLast? = some latest → latest.amount = none → NotRead outcome →
      latest.outcome = outcomeLabel outcome → latest.staleness = outcomeStaleness outcome →
      ∃ before row after amount, history = before ++ row :: after ∧ row.amount = some amount ∧
        (∀ r ∈ after, r.amount = none) ∧
        balanceLine category history = (Face.stale amount row).text category := by
  intro h
  obtain ⟨before, row, after, amount, -, -, -, hline⟩ :=
    h "confirmed" (walletHistory (.rateLimited 60000)) _ (.rateLimited 60000)
      ⟨_, List.mem_cons_self, nofun⟩ rfl rfl trivial rfl rfl
  exact text_stale_ne_unknown "confirmed" amount row _ hline.symm

example : balanceLine "confirmed" (walletHistory (.rateLimited 60000)) =
    "  confirmed             unknown     unknown · https://blockstream.info/api · 12:04:31Z" := by
  decide +kernel

end Sumer.Store
